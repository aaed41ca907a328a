import FlatLisp.Eval
import FlatLisp.Reading

/-!
# Loading files

A session starts from the core environment, with the standard library or without it, and
then evaluates the prelude and the libraries. The files that can be read are given by a
function from names to texts (`Setup.start`), or each is read when its turn comes
(`Setup.reading`).
-/

namespace FlatLisp

/-- What can be read under a name. -/
abbrev Files := String → Contents

/-- What a session starts with. -/
structure Setup where
  withLibrary : Bool
  prelude : Option String
  libraries : List String

/-- Evaluates a file. -/
def runFile (fuel : Nat) (files : Files) (name : String) (s : Session) : Outcome Value :=
  match files name with
  | .ok source => evalSource fuel source s
  | .error why => .failed (.run (.unreadableFile name why)) s

/-- Evaluates files in order, up to the first that fails. -/
def loadFiles (fuel : Nat) (files : Files) : List String → Session → Outcome Unit
  | [], s => .done () s
  | name :: names, s =>
    (runFile fuel files name s).andThen fun _ s => loadFiles fuel files names s

/-- Evaluates files in order, up to the first that fails, and reads each when its turn comes. -/
def readFiles (fuel : Nat) : List String → Session → Reading (Outcome Unit)
  | [], s => .done (.done () s)
  | name :: names, s =>
    .read (.file name) fun contents =>
      match runFile fuel (fun _ => contents) name s with
      | .done _ s => readFiles fuel names s
      | .failed e s => .done (.failed e s)
      | .exhausted => .done .exhausted

namespace Setup

/-- The environment before any file is evaluated. -/
def environment (c : Setup) : Environment :=
  if c.withLibrary then Environment.standard else Environment.core

/-- The files that are evaluated first. -/
def preloaded (c : Setup) : List String := c.prelude.toList ++ c.libraries

/-- Starts a session. -/
def start (c : Setup) (fuel : Nat) (files : Files) : Outcome Unit :=
  loadFiles fuel files c.preloaded (.fresh c.environment)

/-- Starts a session, and reads each file when its turn comes. -/
def reading (c : Setup) (fuel : Nat) : Reading (Outcome Unit) :=
  readFiles fuel c.preloaded (.fresh c.environment)

end Setup

/-! ## Settings from the process environment -/

/-- The variable that names the prelude. -/
def preludeVariable : String := "DANLISP_PRELUDE"

/-- The variable that names the file for the history of inputs. -/
def historyVariable : String := "DANLISP_HISTORY"

def historyName : String := ".danlisp_history"

/-- The file to evaluate before anything else. An empty setting counts as none. -/
def findPrelude (setting : String → Option String) : Option String :=
  (setting preludeVariable).filter (· ≠ "")

/-- A name inside a directory. The empty directory name stands for the current one. -/
def inDirectory (directory name : String) : String :=
  if directory = "" ∨ directory.endsWith "/" then directory ++ name
  else directory ++ "/" ++ name

/-- The file for the history of inputs: as set, else in the home directory, else here. -/
def findHistory (setting : String → Option String) : String :=
  match setting historyVariable with
  | some path => path
  | none =>
    match setting "HOME" with
    | some home => inDirectory home historyName
    | none => historyName

end FlatLisp
