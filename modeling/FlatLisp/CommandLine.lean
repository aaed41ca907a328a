import FlatLisp.Form.Outline
import FlatLisp.Load
import FlatLisp.Repl

/-!
# The command line

`Request.read?` makes a request of the words of a command line, or refuses them.
`Invocation.reading` carries a request out: it says which files are read, and whether the input
is, each when its turn comes, and then what is printed and how the program exits.

An option `--lib` may have its value in the same word or in the next one, which must not look
like an option. A lone hyphen is a value. After `--` every word is a file name.

Two things that a run does are left out. It logs events to the standard error, as many as the
variable `DANLISP_LOG` asks for; unless it is set, that is only a warning when the history of a
session cannot be saved. And a session reads a history file when it starts, and writes it when it
ends. Neither has an effect on what else is printed, on the exit code, or on the bindings.
-/

namespace FlatLisp

/-- What a command line asks for. -/
structure Invocation where
  libraries : List String
  withLibrary : Bool
  /-- List the names of the environment. -/
  inspect : Bool
  /-- Draw the program instead of running it. -/
  draw : Bool
  /-- The program; a hyphen stands for the input. Without one there is an interactive session. -/
  file : Option String
deriving DecidableEq

inductive Request where
  | version
  | help
  | run (i : Invocation)
deriving DecidableEq

/-! ## Reading the words -/

/-- What the words so far amount to. -/
structure Words where
  /-- Values of `--lib`, last one first. -/
  libraries : List String
  /-- The option `--lib` was given, with a value or not. -/
  libraryOption : Bool
  /-- The last word was `--lib`, and its value may be next. -/
  awaiting : Bool
  inspections : Nat
  drawings : Nat
  exclusions : Nat
  file : Option String
  /-- Every further word is a file name. -/
  onlyFiles : Bool

/-- Why the reading of words stops. -/
inductive Stop where
  | version
  | help
  | refused
deriving DecidableEq

namespace Words

def start : Words := ⟨[], false, false, 0, 0, 0, none, false⟩

/-- Takes a value of `--lib`. -/
def addLibrary (w : Words) (value : String) : Words :=
  { w with libraries := value :: w.libraries, libraryOption := true, awaiting := false }

/-- Takes the option `--lib`, with the text attached to it if there is any. Equality signs in
front of the text belong to the option. -/
def addOption (w : Words) (attached : Option (List Char)) : Words :=
  match attached with
  | some value => w.addLibrary (.ofList (value.dropWhile (· = '=')))
  | none => { w with libraryOption := true, awaiting := true }

/-- Takes a word as the file name. -/
def addFile (w : Words) (word : String) : Except Stop Words :=
  match w.file with
  | none => .ok { w with file := some word }
  | some _ => .error .refused

/-- Takes an option given by its long name; text attached to a flag is ignored. -/
def addLong (w : Words) (word : List Char) : Except Stop Words :=
  let word := word.dropWhile (· = '-')
  let name := String.ofList (word.takeWhile (· ≠ '='))
  let attached := if word.contains '=' then some ((word.dropWhile (· ≠ '=')).drop 1) else none
  if name = "lib" then .ok (w.addOption attached)
  else if name = "inspect-env" then
    .ok { w with inspections := w.inspections + 1, awaiting := false }
  else if name = "dot" then .ok { w with drawings := w.drawings + 1, awaiting := false }
  else if name = "no-stdlib" then
    .ok { w with exclusions := w.exclusions + 1, awaiting := false }
  else if name = "help" then .error .help
  else if name = "version" then .error .version
  else .error .refused

/-- Takes an option given by one letter, with what follows the letter. -/
def addShort (w : Words) (letter : Char) (rest : List Char) : Except Stop Words :=
  if letter = 'l' then .ok (w.addOption (if rest.isEmpty then none else some rest))
  else if letter = 'h' then .error .help
  else if letter = 'V' then .error .version
  else .error .refused

/-- Takes one word. -/
def add (w : Words) (word : String) : Except Stop Words :=
  if w.onlyFiles then w.addFile word
  else
    match word.toList with
    | ['-', '-'] => .ok { w with onlyFiles := true }
    | '-' :: '-' :: rest => w.addLong rest
    | '-' :: letter :: rest => w.addShort letter rest
    | _ => if w.awaiting then .ok (w.addLibrary word) else w.addFile word

/-- Takes words in order. -/
def addAll : Words → List String → Except Stop Words
  | w, [] => .ok w
  | w, word :: words =>
    match w.add word with
    | .ok w => w.addAll words
    | .error stop => .error stop

/-- What all the words ask for: no flag twice, a file to draw, and a value for `--lib`. -/
def request? (w : Words) : Option Request :=
  if 1 < w.inspections ∨ 1 < w.drawings ∨ 1 < w.exclusions then none
  else if w.drawings = 1 ∧ w.file = none then none
  else if w.libraryOption ∧ w.libraries = [] then none
  else
    some (.run
      { libraries := w.libraries.reverse
        withLibrary := decide (w.exclusions = 0)
        inspect := decide (w.inspections = 1)
        draw := decide (w.drawings = 1)
        file := w.file })

end Words

/-- What a command line asks for; `none` if it is refused. -/
def Request.read? (words : List String) : Option Request :=
  match Words.start.addAll words with
  | .ok w => w.request?
  | .error .version => some .version
  | .error .help => some .help
  | .error .refused => none

/-! ## Carrying out a request -/

/-- What is left of a run: the exit code and the two outputs. -/
structure Exit where
  code : Nat
  out : String
  err : String
deriving DecidableEq

namespace Exit

/-- The exit after a failure. -/
def failure (out : String) (e : Error) : Exit := ⟨1, out, e.text ++ "\n"⟩

/-- The exit of an outcome, with more output after a success. -/
def ofOutcome {α : Type} (o : Outcome α) (more : Session → String) : Option Exit :=
  match o with
  | .done _ s => some ⟨0, s.printed ++ more s, ""⟩
  | .failed e s => some (failure s.printed e)
  | .exhausted => none

end Exit

namespace Invocation

/-- The files that are evaluated first. -/
def setup (i : Invocation) (prelude : Option String) : Setup := ⟨i.withLibrary, prelude, i.libraries⟩

/-- Where a program of this name is read from; a hyphen stands for the input. -/
def source (name : String) : Source := if name = "-" then .input else .file name

/-- The text of a program of this name, from what is read. -/
def programText (name : String) (contents : Contents) : Except RuntimeError String :=
  contents.mapError fun why => if name = "-" then .unreadableInput else .unreadableFile name why

/-- Draws a program. -/
def drawProgram (name : String) (contents : Contents) : Exit :=
  match programText name contents with
  | .error e => .failure "" (.run e)
  | .ok text =>
    match readForms text with
    | .error e => .failure "" e
    | .ok fs => ⟨0, Outline.graph (Form.outlines fs) ++ "\n", ""⟩

/-- Evaluates a program. -/
def runProgram (fuel : Nat) (name : String) (contents : Contents) (s : Session) : Outcome Value :=
  match programText name contents with
  | .error e => .failed (.run e) s
  | .ok text => evalSource fuel text s

/-- Runs an interactive session on the input. -/
def interact (fuel : Nat) (contents : Contents) (s : Session) : Outcome Unit :=
  match contents with
  | .error _ => .failed (.run .unreadableInput) s
  | .ok input =>
    match Repl.run Repl.editor fuel input s with
    | some s => .done () s
    | none => .exhausted

/-- Goes on in the session that was started, unless that failed. -/
def continue? (o : Outcome Unit) (next : Session → Reading (Option Exit)) : Reading (Option Exit) :=
  match o with
  | .done _ s => next s
  | .failed e s => .done (some (.failure s.printed e))
  | .exhausted => .done none

/-- Carries out a request; `none` if the fuel is too little. -/
def reading (i : Invocation) (fuel : Nat) (prelude : Option String) : Reading (Option Exit) :=
  let started := (i.setup prelude).reading fuel
  if i.inspect then
    started.bind fun o =>
      .done (Exit.ofOutcome o fun s => String.join (s.env.names.map (· ++ "\n")))
  else
    match i.file with
    | some name =>
      if i.draw then .read (source name) fun contents => .done (some (drawProgram name contents))
      else
        started.bind fun o => continue? o fun s =>
          .read (source name) fun contents =>
            .done (Exit.ofOutcome (runProgram fuel name contents s) fun _ => "")
    | none =>
      started.bind fun o => continue? o fun s =>
        .read .input fun contents => .done (Exit.ofOutcome (interact fuel contents s) fun _ => "")

end Invocation

/-- The name and version of the program. -/
def versionText : String := "danlisp 0.1"

/-- How the program is called. -/
def usageText : String :=
  "usage: danlisp [--lib FILE]... [--no-stdlib] [--inspect-env] [--dot] [FILE]\n" ++
  "  FILE           program to run; - reads the standard input; an interactive session without\n" ++
  "  -l, --lib FILE evaluate this file first; may be repeated\n" ++
  "  --inspect-env  list the names in the environment\n" ++
  "  --dot          print the syntax tree of FILE as a graph instead of running it\n" ++
  "  --no-stdlib    leave out the standard library"

/-- Answers a command line; `none` if the fuel is too little. -/
def answering (words : List String) (fuel : Nat) (prelude : Option String) : Reading (Option Exit) :=
  match Request.read? words with
  | none => .done (some ⟨1, "", usageText ++ "\n"⟩)
  | some .version => .done (some ⟨0, versionText ++ "\n", ""⟩)
  | some .help => .done (some ⟨0, versionText ++ "\n" ++ usageText ++ "\n", ""⟩)
  | some (.run i) => i.reading fuel prelude

/-- What a run can read: files, the standard input, and the name of the prelude. -/
structure Surroundings where
  files : Files
  input : Contents
  prelude : Option String

/-- What can be read from a source. -/
def Surroundings.texts (r : Surroundings) : Source → Contents
  | .file name => r.files name
  | .input => r.input

/-- The answer to a command line in given surroundings; `none` if the fuel is too little. -/
def answer (words : List String) (fuel : Nat) (r : Surroundings) : Option Exit :=
  (answering words fuel r.prelude).result r.texts

end FlatLisp
