import FlatLisp.Eval
import FlatLisp.Text.Backspace
import FlatLisp.Text.Blank

/-!
# The interactive session

Input lines, as the line editor leaves them, are gathered into buffers. A buffer is
complete when its parentheses balance or when a blank line follows; how it evaluates plays
no part in that, so `Repl.buffers` cuts the whole input first. Every buffer is then
evaluated, and its value printed unless it is nil, or its error.

The input does not come from a terminal: there are no prompts and no interrupts. The history of
the lines is left out.
-/

namespace FlatLisp

namespace Repl

/-! ## Balance of parentheses -/

/-- Where a scan for parentheses stands: outside strings, in one, or behind a backslash in
one. -/
inductive ScanMode where
  | code
  | string
  | escape
deriving DecidableEq

/-- The depth after a character, and where the scan stands then. A string ends with its
line. -/
def scan : Int × ScanMode → Char → Int × ScanMode
  | (depth, .escape), _ => (depth, .string)
  | (depth, .string), c =>
    (depth, if c = '\\' then .escape else if c = '"' ∨ c = '\n' then .code else .string)
  | (depth, .code), c =>
    if c = '(' then (depth + 1, .code)
    else if c = ')' then (depth - 1, .code)
    else if c = '"' then (depth, .string)
    else (depth, .code)

/-- How many more parentheses are opened than closed outside of strings. -/
def openDepth (source : String) : Int := (source.toList.foldl scan (0, .code)).1

/-! ## Lines and buffers -/

/-- The lines of a text, behind the current line `line`, which has its last character first.
A line feed ends a line, with a carriage return before it. -/
def linesFrom (line : List Char) : List Char → List String
  | [] => if line.isEmpty then [] else [String.ofList line.reverse]
  | c :: cs =>
    if c = '\n' then
      let line := if line.head? = some '\x0d' then line.tail else line
      String.ofList line.reverse :: linesFrom [] cs
    else linesFrom (c :: line) cs

/-- What a line editor makes of a typed line. -/
abbrev LineEditor := String → String

/-- What is told to the users of a line editor, as far as sessions rely on it: a line without
backspaces stays as it is. -/
structure LineEditor.Documented (edit : LineEditor) : Prop where
  edit_of_notMem : ∀ line : String, Backspace.key ∉ line.toList → edit line = line

/-- The editor of the sessions, which stands for `rustyline`. -/
def editor : LineEditor := Backspace.apply Cluster.split

theorem editor_documented : LineEditor.Documented editor where
  edit_of_notMem _ := Backspace.apply_of_notMem Cluster.split_documented

/-- The lines of an input, each as the editor leaves it; the last one need not be ended. -/
def inputLines (edit : LineEditor) (input : String) : List String :=
  (linesFrom [] input.toList).map edit

/-- The complete buffers that lines make up, behind the lines gathered in `pending`. -/
def buffersFrom (pending : String) : List String → List String
  | [] => []
  | line :: lines =>
    if isBlank line then
      if pending = "" then buffersFrom "" lines else pending :: buffersFrom "" lines
    else
      let text := if pending = "" then line else pending ++ "\n" ++ line
      if openDepth text ≤ 0 then text :: buffersFrom "" lines else buffersFrom text lines

/-- The buffers of an input, in order. One that is incomplete at the end is dropped. -/
def buffers (edit : LineEditor) (input : String) : List String :=
  buffersFrom "" (inputLines edit input)

/-! ## Evaluation -/

/-- Evaluates a buffer and prints its value or its error; `none` if the fuel is too little. -/
def answer (fuel : Nat) (buffer : String) (s : Session) : Option Session :=
  match evalSource fuel buffer s with
  | .done v s => some (if v.isNil then s else s.print (v.text ++ "\n"))
  | .failed e s => some (s.print (e.text ++ "\n"))
  | .exhausted => none

/-- Evaluates buffers in order. -/
def answerAll (fuel : Nat) : List String → Session → Option Session
  | [], s => some s
  | b :: bs, s => (answer fuel b s).bind (answerAll fuel bs)

/-- Runs an interactive session on an input. -/
def run (edit : LineEditor) (fuel : Nat) (input : String) (s : Session) : Option Session :=
  answerAll fuel (buffers edit input) s

end Repl

end FlatLisp
