import FlatLisp.Form
import FlatLisp.Number.Layout

/-!
# Values

The kinds of values, what counts as true, and the text that a value is printed as. `Value.text`
walks along tails without recursion, so long chains need no stack.
-/

namespace FlatLisp

/-- The kinds of values that programs can tell apart. -/
inductive Kind where
  | number
  | string
  | bool
  | cell
  | builtin
  | procedure
  | nil
deriving DecidableEq

def Kind.name : Kind → String
  | .number => "number"
  | .string => "string"
  | .bool => "bool"
  | .cell => "cons"
  | .builtin => "builtin"
  | .procedure => "function"
  | .nil => "nil"

namespace Atom

def isNil : Atom → Bool
  | .nil => true
  | _ => false

def kind : Atom → Kind
  | .number _ => .number
  | .string _ => .string
  | .bool _ => .bool
  | .builtin _ => .builtin
  | .procedure _ => .procedure
  | .nil => .nil

/-- The text that an atom is printed as. Strings are printed as they are. -/
def text : Atom → String
  | .number x => x.text
  | .string s => s
  | .bool true => "true"
  | .bool false => "false"
  | .builtin b => "<builtin " ++ b.name ++ ">"
  | .procedure p => "<fn " ++ p.name ++ ">"
  | .nil => "nil"

end Atom

namespace Value

@[match_pattern] abbrev number (x : Number) : Value := .atom (.number x)

@[match_pattern] abbrev string (s : String) : Value := .atom (.string s)

@[match_pattern] abbrev bool (b : Bool) : Value := .atom (.bool b)

@[match_pattern] abbrev builtin (b : Builtin) : Value := .atom (.builtin b)

@[match_pattern] abbrev procedure (p : Procedure Form) : Value := .atom (.procedure p)

@[match_pattern] abbrev nil : Value := .atom .nil

def kind : Value → Kind
  | .atom a => a.kind
  | .cell _ _ _ => .cell

def isNil : Value → Bool
  | .atom a => a.isNil
  | .cell _ _ _ => false

/-- Only false and nil count as false. -/
def truthy : Value → Bool
  | .bool b => b
  | .nil => false
  | _ => true

mutual

/-- Writes a value behind `out`. -/
def write (out : String) : Value → String
  | .atom a => out ++ a.text
  | .cell _ head tail => writeTail (write (out ++ "(") head) tail

/-- Writes the rest of a chain behind `out`, with its closing parenthesis. -/
def writeTail (out : String) : Value → String
  | .nil => out ++ ")"
  | .atom a => out ++ " . " ++ a.text ++ ")"
  | .cell _ head tail => writeTail (write (out ++ " ") head) tail

end

/-- The text that a value is printed as. -/
def text (v : Value) : String := v.write ""

/-- The texts of several values, with spaces between. -/
def joinedText (vs : List Value) : String := " ".intercalate (vs.map text)

end Value

end FlatLisp
