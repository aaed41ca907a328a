import FlatLisp.Number.Decimal

/-!
# The shortest decimal of a number

The decimals that read back as a given double fill an interval around it: up to halfway to
its neighbours, ends included when its significand is even. A decimal with the coarsest
power of ten that still has a multiple in the interval has the fewest digits: of two points
of the interval with fewer digits in one, a power of ten between them would be coarser
still. `climb` starts from a grid that is finer than the interval and multiplies it by ten
as long as it has a point there. Of the last grid's points the nearest is taken; of two
equally near, the greater.
-/

namespace FlatLisp

-- powers are the core ones, whatever else is imported
attribute [local instance (high)] instPowNat

namespace Number

/-- The reals around `mid` that round to it, in some common unit. -/
structure Neighborhood where
  low : Nat
  mid : Nat
  high : Nat
  /-- The ends themselves round to `mid`. -/
  closed : Bool

namespace Neighborhood

def Contains (I : Neighborhood) (n : Nat) : Prop :=
  if I.closed then I.low ≤ n ∧ n ≤ I.high else I.low < n ∧ n < I.high

instance (I : Neighborhood) (n : Nat) : Decidable (I.Contains n) := by
  unfold Contains; infer_instance

/-- The multiple of `g` in the neighborhood that is nearest to its middle, as a factor of
`g`. Of two equally near ones it is the greater. -/
def nearest? (I : Neighborhood) (g : Nat) : Option Nat :=
  let a := I.mid / g
  if I.Contains (a * g) then
    if I.Contains ((a + 1) * g) ∧ g ≤ 2 * (I.mid % g) then some (a + 1) else some a
  else if I.Contains ((a + 1) * g) then some (a + 1)
  else none

/-- Coarsens the grid `g`, on which `d` lies, as long as it has a point in the neighborhood. -/
def climb (I : Neighborhood) (g : Nat) (d : Decimal) : Decimal :=
  if _h : 0 < g ∧ 10 * g ≤ I.high then
    match I.nearest? (10 * g) with
    | some a => I.climb (10 * g) ⟨a, d.exp + 1⟩
    | none => d
  else d
termination_by I.high - g

end Neighborhood

/-- The neighborhood of a finite rank in quarters of its unit. The gap below the first double
of a binade is half as wide as the gap above. -/
def neighborhood (rank : Nat) : Neighborhood :=
  let m := significand rank
  { low := 4 * m - if m = 2 ^ (52 : Nat) ∧ 0 < unit rank then 1 else 2
    mid := 4 * m
    high := 4 * m + 2
    closed := decide (m % 2 = 0) }

/-- An exponent `k` with `10 ^ k ≤ 2 ^ e`, from `10 ^ 3 ≤ 2 ^ 10` and `2 ^ 3 ≤ 10`. -/
def fineExponent (e : Int) : Int := if 0 ≤ e then 3 * e / 10 else e / 3

/-- The decimal with the fewest digits that reads back as the number of this finite rank; of
several the nearest. -/
def shortest (rank : Nat) : Decimal :=
  let e : Int := unit rank - 1074
  let k := fineExponent (e - 1)
  let scale := 2 ^ (e - 2).toNat * 10 ^ (-k).toNat
  let grid := 2 ^ (2 - e).toNat * 10 ^ k.toNat
  let I := neighborhood rank
  let I : Neighborhood := ⟨I.low * scale, I.mid * scale, I.high * scale, I.closed⟩
  I.climb grid ⟨(I.nearest? grid).getD (I.mid / grid), k⟩

end Number

end FlatLisp
