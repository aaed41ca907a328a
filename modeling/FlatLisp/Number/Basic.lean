/-!
# Numbers

A number is an IEEE 754 binary64 datum, held as its bit pattern. Its *rank* is the pattern
without the sign bit: the place of its magnitude among the nonnegative doubles in
increasing order. A finite rank `r` stands for `significand r * 2 ^ unit r` units of
`2 ^ (-1074)`, so every finite magnitude is a natural number of such units (`magnitude`).

The four arithmetic operations are those of the hardware. Order, equality and the integer
part are defined on ranks and magnitudes.
-/

namespace FlatLisp

-- powers are the core ones, whatever else is imported
attribute [local instance (high)] instPowNat

/-- A binary64 number, given by its bits. -/
structure Number where
  bits : UInt64
deriving DecidableEq, Inhabited

namespace Number

/-- The pattern as a natural number below `2 ^ 64`. -/
def word (x : Number) : Nat := x.bits.toNat

/-- The sign bit is set. It is also set in `-0` and may be set in a NaN. -/
def negative (x : Number) : Bool := decide (2 ^ (63 : Nat) ≤ x.word)

/-- The pattern without its sign bit. -/
def rank (x : Number) : Nat := x.word % 2 ^ (63 : Nat)

/-- The rank of infinity: the finite ranks lie below it, those of the NaNs above. -/
def infinityRank : Nat := 2047 * 2 ^ (52 : Nat)

def isNaN (x : Number) : Bool := decide (infinityRank < x.rank)

def isInfinite (x : Number) : Bool := decide (x.rank = infinityRank)

def isFinite (x : Number) : Bool := decide (x.rank < infinityRank)

/-- The number of the given sign and rank. -/
def ofRank (negative : Bool) (rank : Nat) : Number :=
  ⟨UInt64.ofNat (if negative then 2 ^ (63 : Nat) + rank else rank)⟩

/-- The integer significand of a rank: the hidden bit is set except in the lowest binade. -/
def significand (rank : Nat) : Nat :=
  if rank < 2 ^ (52 : Nat) then rank else rank % 2 ^ (52 : Nat) + 2 ^ (52 : Nat)

/-- The exponent over `2 ^ (-1074)` of one unit of the significand. -/
def unit (rank : Nat) : Nat := rank / 2 ^ (52 : Nat) - 1

/-- The magnitude of a rank, counted in units of `2 ^ (-1074)`. -/
def magnitude (rank : Nat) : Nat := significand rank * 2 ^ unit rank

def nan : Number := ofRank false (infinityRank + 2 ^ (51 : Nat))

/-! ## Arithmetic -/

private def viaFloat (op : Float → Float → Float) (x y : Number) : Number :=
  ⟨(op (Float.ofBits x.bits) (Float.ofBits y.bits)).toBits⟩

/-- Sum, rounded to nearest, ties to even. -/
def add (x y : Number) : Number := viaFloat Float.add x y

/-- Difference, rounded to nearest, ties to even. -/
def sub (x y : Number) : Number := viaFloat Float.sub x y

/-- Product, rounded to nearest, ties to even. -/
def mul (x y : Number) : Number := viaFloat Float.mul x y

/-- Quotient, rounded to nearest, ties to even; division by zero gives an infinity or NaN. -/
def div (x y : Number) : Number := viaFloat Float.div x y

/-! ## Order -/

/-- Signed rank: increasing in the value, equal at the two zeros. -/
def signedRank (x : Number) : Int := if x.negative then -(x.rank : Int) else x.rank

/-- Numeric equality: the zeros are equal, a NaN equals nothing. -/
def same (x y : Number) : Bool :=
  !x.isNaN && !y.isNaN && decide (x.signedRank = y.signedRank)

/-- Numeric order; false when either side is a NaN. -/
def less (x y : Number) : Bool :=
  !x.isNaN && !y.isNaN && decide (x.signedRank < y.signedRank)

/-! ## Integer part -/

/-- The least and the greatest 64-bit integer. -/
def minInteger : Int := -2 ^ (63 : Nat)

def maxInteger : Int := 2 ^ (63 : Nat) - 1

/-- The value truncated toward zero. An infinity, whose magnitude reads as `2 ^ 1024`, stays
beyond every 64-bit integer. -/
def truncated (x : Number) : Int :=
  let whole := magnitude x.rank >>> 1074
  if x.negative then -(whole : Int) else whole

/-- Truncation toward zero, clamped to the 64-bit integers; a NaN gives zero. -/
def toInteger (x : Number) : Int :=
  if x.isNaN then 0 else max minInteger (min maxInteger x.truncated)

end Number

end FlatLisp
