import FlatLisp.CommandLine

/-!
# The program

Carries out what `FlatLisp.answering` says for the words of the command line, and prints the
result.
-/

open FlatLisp

-- powers are the core ones, whatever else is imported
attribute [local instance (high)] instPowNat

/-- The fuel of a run, more than any run can use up. -/
def runFuel : Nat := 2 ^ (62 : Nat)

/-- Bytes as text. -/
def asText (bytes : ByteArray) : Contents :=
  match String.fromUTF8? bytes with
  | some s => .ok s
  | none => .error .notUtf8

/-- Reads a file. -/
def readFile (name : String) : IO Contents := do
  try
    return asText (← IO.FS.readBinFile name)
  catch e =>
    match e with
    | .noFileOrDirectory .. => return .error .missing
    | e => return .error (.other e.toString)

/-- Reads the standard input. -/
def readInput : IO Contents := do
  return asText (← (← IO.getStdin).readBinToEnd)

def readSource : Source → IO Contents
  | .file name => readFile name
  | .input => readInput

def main (words : List String) : IO UInt32 := do
  let setting ← IO.getEnv preludeVariable
  let prelude := findPrelude fun name => if name = preludeVariable then setting else none
  match ← (answering words runFuel prelude).perform readSource with
  | some exit =>
    IO.print exit.out
    IO.eprint exit.err
    return UInt32.ofNat exit.code
  | none =>
    IO.eprintln "the program does not end"
    return 1
