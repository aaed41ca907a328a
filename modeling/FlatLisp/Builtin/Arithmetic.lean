import FlatLisp.Builtin.Operation
import FlatLisp.Number.Integer

/-!
# Arithmetic

Operations on numbers and on 64-bit integers. The left operand is looked at first.
-/

namespace FlatLisp

namespace Builtin

/-- An operation on two numbers. -/
def onNumbers (b : Builtin) (f : Number → Number → Value) : Operation :=
  .binary fun l r => do
    let l ← b.numberArgument 0 l
    let r ← b.numberArgument 1 r
    return .value (f l r)

/-- An operation on two 64-bit integers; the result is rounded to a number. -/
def onIntegers (b : Builtin) (f : Int → Int → Except RuntimeError Int) : Operation :=
  .binary fun l r => do
    let l ← b.integerArgument 0 l
    let r ← b.integerArgument 1 r
    let n ← f l r
    return .value (.number (.ofInt n))

/-- A bitwise operation. -/
def onBits (b : Builtin) (f : BitVec 64 → BitVec 64 → BitVec 64) : Operation :=
  b.onIntegers fun l r => .ok (Number.bitwise f l r)

/-- The remainder of the quotient rounded toward zero: it has the sign of the dividend. -/
def remainder (l r : Int) : Except RuntimeError Int :=
  if r = 0 then .error .moduloByZero else .ok (l.tmod r)

/-- A shift by a count that must not be negative. -/
def shift (b : Builtin) (f : Int → Nat → Int) : Operation :=
  b.onIntegers fun l r => if r < 0 then .error (.negativeShift b r) else .ok (f l r.toNat)

end Builtin

end FlatLisp
