/-!
# Builtins

The operations that an environment offers from the start, and the number of arguments that
each takes. Their meaning is in the modules below this one.
-/

namespace FlatLisp

inductive Builtin where
  -- arithmetic
  | add | sub | mul | div
  -- 64-bit integers
  | modulo | bitAnd | bitOr | bitXor | bitClear | shiftRight | shiftLeft
  -- comparison and truth
  | equal | and | or | not | greater | less
  | print
  -- cells and lists
  | cons | car | cdr | list | nth | length
  | typeOf
  -- text
  | contains | startsWith | endsWith | join | split | replace | upper | lower | concat | format
deriving DecidableEq, Inhabited

/-- How many arguments a function takes. -/
inductive Arity where
  | exactly (n : Nat)
  | atLeast (n : Nat)
deriving DecidableEq

namespace Builtin

/-- The name that a builtin is bound to. -/
def name : Builtin → String
  | .add => "+"
  | .sub => "-"
  | .mul => "*"
  | .div => "/"
  | .modulo => "mod"
  | .bitAnd => "&"
  | .bitOr => "|"
  | .bitXor => "^"
  | .bitClear => "&^"
  | .shiftRight => ">>"
  | .shiftLeft => "<<"
  | .equal => "="
  | .and => "and"
  | .or => "or"
  | .not => "not"
  | .greater => "gt"
  | .less => "lt"
  | .print => "prn"
  | .cons => "cons"
  | .car => "car"
  | .cdr => "cdr"
  | .list => "list"
  | .nth => "nth"
  | .length => "length"
  | .typeOf => "type"
  | .contains => "strings/Contains"
  | .startsWith => "strings/HasPrefix"
  | .endsWith => "strings/HasSuffix"
  | .join => "strings/Join"
  | .split => "strings/Split"
  | .replace => "strings/Replace"
  | .upper => "strings/ToUpper"
  | .lower => "strings/ToLower"
  | .concat => "str"
  | .format => "format"

/-- The builtins of every environment. -/
def core : List Builtin :=
  [.add, .sub, .mul, .div, .modulo, .bitAnd, .bitOr, .bitXor, .bitClear, .shiftRight, .shiftLeft,
   .equal, .and, .or, .not, .greater, .less, .print]

/-- The list part of the standard library. -/
def lists : List Builtin := [.cons, .car, .cdr, .list, .nth, .length]

/-- The part of the standard library that looks at values. -/
def reflection : List Builtin := [.typeOf]

/-- The text part of the standard library. -/
def texts : List Builtin :=
  [.contains, .startsWith, .endsWith, .join, .split, .replace, .upper, .lower, .concat, .format]

/-- The whole standard library. -/
def library : List Builtin := lists ++ reflection ++ texts

end Builtin

end FlatLisp
