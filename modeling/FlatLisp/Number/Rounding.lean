import FlatLisp.Number.Basic

/-!
# Rounding to a number

`roundEven n d` is the integer nearest to `n / d`, ties to even. `nearestRank n d` is the
rank of the double nearest to `n / d`: in units of `2 ^ (-1074)` the quotient is rounded to
a multiple of the unit of its binade. Because a binade's significands start at `2 ^ 52`,
the rank is `unit * 2 ^ 52 + significand`, and a significand that rounds up to `2 ^ 53`
carries into the next binade by itself.
-/

namespace FlatLisp

-- powers are the core ones, whatever else is imported
attribute [local instance (high)] instPowNat

namespace Number

/-- The integer nearest to `n / d`, ties to even. -/
def roundEven (n d : Nat) : Nat :=
  let q := n / d
  let r := n % d
  if 2 * r < d then q
  else if d < 2 * r then q + 1
  else if q % 2 = 0 then q else q + 1

/-- The unit of the binade that holds a magnitude, given its whole number of lowest units. -/
def binadeUnit (whole : Nat) : Nat := whole.log2 - 52

/-- The rank of the double nearest to `n / d`, ties to even; from half a unit above the
greatest finite double on it is the rank of infinity. -/
def nearestRank (n d : Nat) : Nat :=
  let scaled := n <<< 1074
  let u := binadeUnit (scaled / d)
  min infinityRank (u * 2 ^ (52 : Nat) + roundEven scaled (d <<< u))

/-- The double nearest to `n / d`, with the given sign. -/
def ofRatio (negative : Bool) (n d : Nat) : Number := ofRank negative (nearestRank n d)

/-- The double nearest to an integer, ties to even. -/
def ofInt (n : Int) : Number := ofRatio (decide (n < 0)) n.natAbs 1

end Number

end FlatLisp
