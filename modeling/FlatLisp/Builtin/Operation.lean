import FlatLisp.Session

/-!
# Operations

The meaning of a builtin is a function of as many arguments as it takes. `Operation.apply`
counts the arguments first, so that no operation looks for one that is not there.
-/

namespace FlatLisp

/-- The result of a builtin. -/
abbrev Result := Except RuntimeError Yield

inductive Operation where
  | unary (f : Value → Result)
  | binary (f : Value → Value → Result)
  | ternary (f : Value → Value → Value → Result)
  | atLeastOne (f : Value → List Value → Result)
  | variadic (f : List Value → Result)

namespace Operation

def arity : Operation → Arity
  | .unary _ => .exactly 1
  | .binary _ => .exactly 2
  | .ternary _ => .exactly 3
  | .atLeastOne _ => .atLeast 1
  | .variadic _ => .atLeast 0

/-- Applies an operation, which goes by a name in messages, to arguments. -/
def apply (name : String) : Operation → List Value → Result
  | .unary f, [x] => f x
  | .binary f, [x, y] => f x y
  | .ternary f, [x, y, z] => f x y z
  | .atLeastOne f, x :: xs => f x xs
  | .variadic f, xs => f xs
  | op, xs => .error (.wrongCount name op.arity xs.length)

end Operation

namespace Builtin

/-- The number in the place `index` of the arguments. -/
def numberArgument (b : Builtin) (index : Nat) : Value → Except RuntimeError Number
  | .number x => .ok x
  | v => .error (.wrongArgument b index .number v.kind)

/-- The 64-bit integer in the place `index` of the arguments. -/
def integerArgument (b : Builtin) (index : Nat) (v : Value) : Except RuntimeError Int :=
  (b.numberArgument index v).map Number.toInteger

/-- The string in the place `index` of the arguments. -/
def stringArgument (b : Builtin) (index : Nat) : Value → Except RuntimeError String
  | .string s => .ok s
  | v => .error (.wrongArgument b index .string v.kind)

end Builtin

end FlatLisp
