import FlatLisp.Proofs.Rounding
import Mathlib.Algebra.Order.Field.Power

/-!
# Decimals round to the nearest rank

A decimal has a rational value (`Decimal.value`), which lies between the powers of ten of its
leading exponent and the next one. Outside of the exponents that `Decimal.nearestRank` looks at,
the value is nearest to zero or infinity whatever its digits are; within them it is a quotient.

* `Decimal.nearestRank_nearest`: **the rank of a decimal is the nearest one to its value.**
* `Decimal.nearest_iff_within`: the decimals nearest to a rank are those with a value in its
  neighborhood (`Decimal.Within`).
-/

namespace FlatLisp

namespace Decimal

/-! ## Values -/

/-- The value of a decimal. -/
def value (d : Decimal) : ℚ := d.coeff * 10 ^ d.exp

/-- Zeros may be moved between the coefficient and the power of ten. -/
theorem value_zeros (c k : Nat) (e : Int) : value ⟨c * 10 ^ k, e⟩ = value ⟨c, e + k⟩ := by
  unfold value
  dsimp only
  rw [zpow_add₀ (by norm_num), zpow_natCast]
  push_cast
  ring

/-- The value as a quotient of natural numbers. -/
theorem value_eq_div (d : Decimal) :
    d.value = ((d.coeff * 10 ^ d.exp.toNat : Nat) : ℚ) / (10 ^ (-d.exp).toNat : Nat) := by
  have hexp : (10 : ℚ) ^ d.exp = 10 ^ d.exp.toNat / 10 ^ (-d.exp).toNat := by
    rw [← zpow_natCast, ← zpow_natCast, ← zpow_sub₀ (by norm_num)]
    congr 1
    omega
  rw [value, hexp]
  push_cast
  ring

/-! ## The leading exponent -/

/-- The number of digits is that of the powers of ten. -/
theorem coeff_lt_pow (d : Decimal) : d.coeff < 10 ^ (digits d.coeff).length :=
  (Nat.length_toDigits_le_iff (by decide) Nat.length_toDigits_pos).1 le_rfl

theorem pow_le_coeff {d : Decimal} (h : 0 < d.coeff) :
    10 ^ ((digits d.coeff).length - 1) ≤ d.coeff := by
  rcases Nat.eq_zero_or_pos ((digits d.coeff).length - 1) with hone | hmore
  · rw [hone]
    exact h
  · refine not_lt.1 fun hlt => ?_
    have hle : (digits d.coeff).length ≤ (digits d.coeff).length - 1 :=
      (Nat.length_toDigits_le_iff (by decide) hmore).2 hlt
    omega

theorem value_lt_pow (d : Decimal) : d.value < 10 ^ (d.leading + 1) := by
  have hlead : d.leading + 1 = ((digits d.coeff).length : Int) + d.exp := by
    unfold leading
    omega
  rw [hlead, zpow_add₀ (by norm_num), zpow_natCast]
  refine mul_lt_mul_of_pos_right ?_ (by positivity)
  exact_mod_cast d.coeff_lt_pow

theorem pow_le_value {d : Decimal} (h : 0 < d.coeff) : 10 ^ d.leading ≤ d.value := by
  have hlen : 0 < (digits d.coeff).length := Nat.length_toDigits_pos
  have hlead : d.leading = (((digits d.coeff).length - 1 : Nat) : Int) + d.exp := by
    unfold leading
    omega
  rw [hlead, zpow_add₀ (by norm_num), zpow_natCast]
  refine mul_le_mul_of_nonneg_right ?_ (by positivity)
  exact_mod_cast pow_le_coeff h

/-! ## The nearest rank -/

open Number

theorem nearest_zero_of_coeff {d : Decimal} (h : d.coeff = 0) : Nearest d.value 0 := by
  refine nearest_zero ?_
  rw [value, h, Nat.cast_zero, zero_mul]
  exact lt_of_le_of_lt (by unfold rankValue; positivity) (lt_halfway 0)

/-- A decimal from `10 ^ 310` on is past every finite rank. -/
theorem nearest_infinity_of_leading {d : Decimal} (h : 0 < d.coeff) (hlead : 310 ≤ d.leading) :
    Nearest d.value infinityRank := by
  have hinf : rankValue infinityRank ≤ ((10 ^ 310 : Nat) : ℚ) / (1 : Nat) :=
    (rankValue_le_div Nat.one_pos _).2 (by decide +kernel)
  have hpow : (10 : ℚ) ^ (310 : Int) ≤ 10 ^ d.leading := zpow_le_zpow_right₀ (by norm_num) hlead
  refine nearest_infinity (hinf.trans ?_)
  rw [Nat.cast_one, div_one, Nat.cast_pow, Nat.cast_ofNat]
  exact hpow.trans (pow_le_value h)

/-- A decimal below `10 ^ (-330)` is nearest to zero. -/
theorem nearest_zero_of_leading {d : Decimal} (hlead : d.leading < -330) : Nearest d.value 0 := by
  have hhalf : ((1 : Nat) : ℚ) / (10 ^ 330 : Nat) < halfway 0 := by
    rw [← not_le, halfway_le_div (by positivity)]
    decide +kernel
  have hpow : (10 : ℚ) ^ (d.leading + 1) ≤ 10 ^ (-330 : Int) :=
    zpow_le_zpow_right₀ (by norm_num) (by omega)
  refine nearest_zero ((d.value_lt_pow.trans_le hpow).trans ?_)
  rw [Nat.cast_one, one_div, Nat.cast_pow, Nat.cast_ofNat] at hhalf
  exact hhalf

/-- **The rank of a decimal is the nearest one to its value.** -/
theorem nearestRank_nearest (d : Decimal) : Nearest d.value d.nearestRank := by
  unfold nearestRank
  split_ifs with hzero hlarge hsmall
  · exact nearest_zero_of_coeff hzero
  · exact nearest_infinity_of_leading (Nat.pos_of_ne_zero hzero) hlarge
  · exact nearest_zero_of_leading hsmall
  · rw [value_eq_div]
    exact Number.nearestRank_nearest _ (by positivity)

theorem coeff_pos_of_nearest {d : Decimal} {r : Nat} (hpos : 0 < r) (h : Nearest d.value r) :
    0 < d.coeff :=
  Nat.pos_of_ne_zero fun hzero => hpos.ne' (h.unique (nearest_zero_of_coeff hzero))

theorem nearestRank_le (d : Decimal) : d.nearestRank ≤ infinityRank := d.nearestRank_nearest.le

/-- The value is in the neighborhood of the rank. -/
def Within (d : Decimal) (r : Nat) : Prop :=
  ((Number.neighborhood r).scale (10 ^ (-d.exp).toNat * 2 ^ Number.unit r)).Contains
    (4 * (d.coeff * 10 ^ d.exp.toNat * 2 ^ 1074))

theorem nearest_iff_within {d : Decimal} {r : Nat} (hpos : 0 < r) (hfin : r < infinityRank) :
    Nearest d.value r ↔ d.Within r := by
  rw [value_eq_div, nearest_iff_contains (by positivity) hpos hfin, Within]

end Decimal

end FlatLisp
