import FlatLisp.Number.Rounding

/-!
# Integer operations on numbers

Operands are truncated to 64-bit integers (`Number.toInteger`), combined in two's
complement, and the result is rounded back to a double.
-/

namespace FlatLisp

-- powers are the core ones, whatever else is imported
attribute [local instance (high)] instPowNat

namespace Number

/-- Combines two operands bit by bit as 64-bit words in two's complement. -/
def bitwise (op : BitVec 64 → BitVec 64 → BitVec 64) (l r : Int) : Int :=
  (op (BitVec.ofInt 64 l) (BitVec.ofInt 64 r)).toInt

/-- `l * 2 ^ count` reduced to a signed 64-bit integer. From 64 places on nothing is left. -/
def shiftLeft (l : Int) (count : Nat) : Int :=
  if 64 ≤ count then 0 else Int.bmod (l * 2 ^ count) (2 ^ (64 : Nat))

/-- `l / 2 ^ count` rounded down. From 64 places on only the sign is left. -/
def shiftRight (l : Int) (count : Nat) : Int :=
  if 64 ≤ count then if l < 0 then -1 else 0 else l / 2 ^ count

end Number

end FlatLisp
