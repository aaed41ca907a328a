import FlatLisp.Form.Printer
import FlatLisp.Form.Reader
import FlatLisp.Token.Lexer

/-!
# Errors

What can go wrong with a program, as causes, and the one place where each gets its wording.
-/

namespace FlatLisp

/-- Why a file or the standard input cannot be read as text. -/
inductive ReadError where
  | missing
  | isDirectory
  | notUtf8
  | other (reason : String)
deriving DecidableEq

def ReadError.message : ReadError → String
  | .missing => "No such file or directory (os error 2)"
  | .isDirectory => "Is a directory (os error 21)"
  | .notUtf8 => "stream did not contain valid UTF-8"
  | .other reason => reason

/-- The kinds of argument that builtins ask for. -/
inductive ArgumentKind where
  | number
  | string
deriving DecidableEq

def ArgumentKind.name : ArgumentKind → String
  | .number => "Number"
  | .string => "String"

/-- Why evaluation fails. -/
inductive RuntimeError where
  | unbound (name : String)
  | emptyApplication
  | notCallable (head : Form) (kind : Kind)
  | wrongCount (function : String) (expected : Arity) (got : Nat)
  | wrongArgument (b : Builtin) (index : Nat) (expected : ArgumentKind) (got : Kind)
  | moduloByZero
  | negativeShift (b : Builtin) (count : Int)
  /-- The head or tail of something that is no cell. -/
  | notCell (b : Builtin) (v : Value)
  | negativeIndex (index : Int)
  | notList (reached : Atom)
  | notProper (v : Value)
  | joinOfOther (got : Kind)
  | joinWithOther (found : Kind)
  | badPair (v : Value)
  | badKey (v : Value)
  | unreadableFile (file : String) (why : ReadError)
  | unreadableInput

def RuntimeError.message : RuntimeError → String
  | .unbound name => "could not find symbol '" ++ name ++ "'"
  | .emptyApplication => "cannot apply an empty sequence"
  | .notCallable head kind => head.text ++ " is not callable: " ++ kind.name
  | .wrongCount function (.exactly n) got =>
    function ++ " expects " ++ toString n ++ " argument(s), got " ++ toString got
  | .wrongCount function (.atLeast n) got =>
    function ++ " expects at least " ++ toString n ++ " argument(s), got " ++ toString got
  | .wrongArgument b index expected got =>
    b.name ++ "'s argument " ++ toString index ++ " should be a " ++ expected.name ++ ", got " ++
      got.name
  | .moduloByZero => "mod by zero"
  | .negativeShift b count => b.name ++ ": negative shift amount " ++ toString count
  | .notCell b v =>
    "can only " ++ b.name ++ " a cons cell, not " ++ v.text ++ " (" ++ v.kind.name ++ ")"
  | .negativeIndex index => "nth: negative index " ++ toString index
  | .notList reached => "nth expects a list, reached " ++ reached.text
  | .notProper v => "length: not a proper list: " ++ v.text
  | .joinOfOther got => "strings/Join expects a list of strings, got " ++ got.name
  | .joinWithOther found => "strings/Join expects a list of strings, found " ++ found.name
  | .badPair v => "Invalid key-value pair in format: " ++ v.text
  | .badKey v => "Invalid key in format: " ++ v.text
  | .unreadableFile file why => "Failed to load file " ++ file ++ ": " ++ why.message
  | .unreadableInput => "Failed to read stdin."

inductive Error where
  | lex (e : LexError)
  | parse (e : ParseError)
  | run (e : RuntimeError)

namespace Error

/-- The wording without the stage. -/
def message : Error → String
  | .lex e => e.fault.message
  | .parse e => e.message
  | .run e => e.message

/-- The wording with the stage at which the error arose. -/
def text : Error → String
  | .lex e => "Lexing error on line " ++ toString e.line ++ ": " ++ e.fault.message
  | .parse e => "Parsing error: " ++ e.message
  | .run e => "Runtime error: " ++ e.message

end Error

end FlatLisp
