import FlatLisp.Proofs.Decimals

/-!
# The shortest decimal

`shortest` looks for a decimal in the neighborhood of a rank on one grid after the other, each
coarser than the one before.

* `exists_point`: the first grid has a point in the neighborhood, since its step is at most two
  quarters of a unit (`firstGrid_le`).
* `climb_spec`: coarser grids are taken as long as they have a point in the neighborhood, so no
  decimal that reads back has a greater power of ten than the last one (`exp_le_shortest`).
* `shortest_nearest`: **the shortest decimal of a rank is nearest to that rank.**
* `shortest_digits_le`: **no decimal nearest to the rank has fewer digits.** One with fewer
  digits would be below a power of ten that is not above the shortest decimal; that power would
  be nearest to the rank as well, with a greater power of ten.
-/

namespace FlatLisp

namespace Number

open Neighborhood

/-! ## The first grid -/

/-- **The first grid is fine**: `10 ^ k ≤ 2 ^ e`, with the negative powers on the other side. -/
theorem fineExponent_le (e : Int) :
    10 ^ (fineExponent e).toNat * 2 ^ (-e).toNat ≤ 2 ^ e.toNat * 10 ^ (-fineExponent e).toNat := by
  unfold fineExponent
  split_ifs with he
  · obtain ⟨n, rfl⟩ := Int.eq_ofNat_of_zero_le he
    have hk : (3 * (n : Int) / 10).toNat = 3 * n / 10 := by omega
    have hneg : (-(3 * (n : Int) / 10)).toNat = 0 ∧ (-(n : Int)).toNat = 0 := by omega
    rw [hk, hneg.1, hneg.2, Int.toNat_natCast, Nat.pow_zero, Nat.pow_zero, Nat.mul_one, Nat.mul_one]
    -- compared by their tenth powers
    refine (Nat.pow_le_pow_iff_left (n := 10) (by decide)).1 ?_
    calc (10 ^ (3 * n / 10)) ^ 10 = 10 ^ (3 * n / 10 * 10) := (Nat.pow_mul ..).symm
      _ ≤ 10 ^ (3 * n) := Nat.pow_le_pow_right (by decide) (Nat.div_mul_le_self _ _)
      _ = (10 ^ 3) ^ n := Nat.pow_mul ..
      _ ≤ (2 ^ 10) ^ n := Nat.pow_le_pow_left (by decide) n
      _ = (2 ^ n) ^ 10 := by rw [← Nat.pow_mul, ← Nat.pow_mul, Nat.mul_comm]
  · obtain ⟨k, hk⟩ : ∃ k : Nat, (-(e / 3)).toNat = k := ⟨_, rfl⟩
    obtain ⟨n, hn⟩ : ∃ n : Nat, (-e).toNat = n := ⟨_, rfl⟩
    have hpos : (e / 3).toNat = 0 ∧ e.toNat = 0 := by omega
    rw [hpos.1, hpos.2, hk, hn, Nat.pow_zero, Nat.pow_zero, Nat.one_mul, Nat.one_mul]
    calc 2 ^ n ≤ 2 ^ (3 * k) := Nat.pow_le_pow_right (by decide) (by omega)
      _ = (2 ^ 3) ^ k := Nat.pow_mul ..
      _ ≤ 10 ^ k := Nat.pow_le_pow_left (by decide) k

/-- The exponent of the first grid of `shortest`. -/
def firstExponent (r : Nat) : Int := fineExponent (unit r - 1074 - 1)

/-- A quarter of a unit, as `shortest` counts it. -/
def firstScale (r : Nat) : Nat :=
  2 ^ ((unit r : Int) - 1074 - 2).toNat * 10 ^ (-firstExponent r).toNat

/-- The step of the first grid, as `shortest` counts it. -/
def firstGrid (r : Nat) : Nat := 2 ^ (2 - ((unit r : Int) - 1074)).toNat * 10 ^ (firstExponent r).toNat

theorem shortest_eq {r a : Nat}
    (h : ((neighborhood r).scale (firstScale r)).nearest? (firstGrid r) = some a) :
    shortest r =
      ((neighborhood r).scale (firstScale r)).climb (firstGrid r) ⟨a, firstExponent r⟩ :=
  congrArg (fun o : Option Nat => climb _ _ ⟨o.getD _, _⟩) h

/-- **The first grid steps by at most two quarters of a unit.** -/
theorem firstGrid_le (r : Nat) : firstGrid r ≤ 2 * firstScale r := by
  unfold firstGrid firstScale firstExponent
  generalize (unit r : Int) - 1074 = e
  have h := fineExponent_le (e - 1)
  generalize 10 ^ (fineExponent (e - 1)).toNat = p at *
  generalize 10 ^ (-fineExponent (e - 1)).toNat = q at *
  rcases lt_trichotomy e 1 with he | rfl | he
  · obtain ⟨n, hn⟩ : ∃ n : Nat, (-(e - 1)).toNat = n := ⟨_, rfl⟩
    have hexp : (e - 1).toNat = 0 ∧ (e - 2).toNat = 0 ∧ (2 - e).toNat = n + 1 := by omega
    rw [hexp.1, hn] at h
    rw [hexp.2.1, hexp.2.2, Nat.pow_succ]
    linarith
  · simpa using h
  · obtain ⟨n, hn⟩ : ∃ n : Nat, (e - 2).toNat = n := ⟨_, rfl⟩
    have hexp : (-(e - 1)).toNat = 0 ∧ (2 - e).toNat = 0 ∧ (e - 1).toNat = n + 1 := by omega
    rw [hexp.1, hexp.2.2, Nat.pow_succ] at h
    rw [hexp.2.1, hn]
    linarith

/-! ## Points of the neighborhood -/

namespace Neighborhood

variable {I : Neighborhood}

/-- A neighborhood has no gaps. -/
theorem Contains.between {a b n : Nat} (ha : I.Contains a) (hb : I.Contains b) (han : a ≤ n)
    (hnb : n ≤ b) : I.Contains n := by
  unfold Contains at *
  split_ifs at * <;> omega

theorem nearest?_contains {g a : Nat} (h : I.nearest? g = some a) : I.Contains (a * g) := by
  unfold nearest? at h
  dsimp only at h
  split_ifs at h with hbelow habove habove <;> cases h
  · exact habove.1
  · exact hbelow
  · exact habove

/-- **A grid without a nearest point has no point in the neighborhood**: one of the two around
the middle lies between any other and the middle. -/
theorem not_contains_of_nearest? {g c : Nat} (hmid : I.Contains I.mid) (hg : 0 < g)
    (h : I.nearest? g = none) : ¬I.Contains (c * g) := by
  intro hc
  unfold nearest? at h
  dsimp only at h
  split_ifs at h with hbelow hnear habove
  rcases Nat.lt_or_ge (I.mid / g) c with hlt | hle
  · refine habove (hmid.between hc ?_ (Nat.mul_le_mul_right g hlt))
    exact (Nat.lt_mul_of_div_lt (Nat.lt_succ_self _) hg).le
  · exact hbelow (hc.between hmid (Nat.mul_le_mul_right g hle) (Nat.div_mul_le_self _ _))

/-- **The last grid has a point in the neighborhood, the next one has none.** -/
theorem climb_spec {g : Nat} {d : Decimal} (hmid : I.Contains I.mid) (hlow : 0 < I.low) (hg : 0 < g)
    (h : I.Contains (d.coeff * g)) :
    ∃ j : Nat, (I.climb g d).exp = d.exp + j ∧ I.Contains ((I.climb g d).coeff * (g * 10 ^ j)) ∧
      ∀ c, ¬I.Contains (c * (g * 10 ^ (j + 1))) := by
  have hten : ∀ g j : Nat, 10 * g * 10 ^ j = g * 10 ^ (j + 1) := fun g j => by ring
  fun_induction climb I g d with
  | case1 g d _ a ha ih =>
    obtain ⟨j, hexp, hj, hcoarse⟩ := ih (by omega) (nearest?_contains ha)
    rw [hten] at hj
    refine ⟨j + 1, by rw [hexp]; push_cast; ring, hj, fun c => ?_⟩
    rw [← hten]
    exact hcoarse c
  | case2 g d hstep hnone =>
    refine ⟨0, by simp, by simpa using h, fun c => ?_⟩
    rw [← hten, Nat.pow_zero, Nat.mul_one]
    exact not_contains_of_nearest? hmid (by omega) hnone
  | case3 g d hstop =>
    refine ⟨0, by simp, by simpa using h, fun c hc => ?_⟩
    rw [← hten, Nat.pow_zero, Nat.mul_one, contains_iff] at hc
    -- zero is below the neighborhood, every other point of the grid above
    rcases Nat.eq_zero_or_pos c with rfl | hpos
    · omega
    · have := Nat.le_mul_of_pos_left (10 * g) hpos
      omega

end Neighborhood

/-- The middle of a neighborhood is in it, and zero is below. -/
theorem neighborhood_mid {r k : Nat} (hpos : 0 < r) (hk : 0 < k) :
    ((neighborhood r).scale k).Contains ((neighborhood r).scale k).mid ∧
      0 < ((neighborhood r).scale k).low := by
  have hm := significand_pos hpos
  refine ⟨contains_of_lt (Nat.mul_lt_mul_of_pos_right ?_ hk) (Nat.mul_lt_mul_of_pos_right ?_ hk),
    Nat.mul_pos ?_ hk⟩
  · dsimp only [neighborhood]
    split_ifs <;> omega
  · dsimp only [neighborhood]
    omega
  · dsimp only [neighborhood]
    split_ifs <;> omega

/-- A grid with a step of at most two quarters of a unit has a point in the neighborhood. -/
theorem exists_point {r g k : Nat} (hpos : 0 < r) (hg : 0 < g) (hle : g ≤ 2 * k) :
    ∃ c, ((neighborhood r).scale k).Contains (c * g) := by
  have hm := significand_pos hpos
  have hdiv := Nat.div_add_mod (4 * significand r * k) g
  have hmod := Nat.mod_lt (4 * significand r * k) hg
  rw [Nat.mul_comm g] at hdiv
  have hgap : ∀ c, c ≤ 4 * significand r → (4 * significand r - c) * k + c * k = 4 * significand r * k :=
    fun c hc => by rw [← Nat.add_mul, Nat.sub_add_cancel hc]
  have htwo := hgap 2 (by omega)
  have hone := hgap 1 (by omega)
  simp only [neighborhood, Neighborhood.scale]
  by_cases hedge : significand r = 2 ^ 52 ∧ 0 < unit r
  · -- the gap below is narrow, but the neighborhood is closed: the point above the middle
    refine ⟨4 * significand r * k / g + 1, contains_of_closed (by simp [hedge.1]) ?_ ?_⟩
    · simp only [if_pos hedge, Nat.add_mul, Nat.one_mul]
      omega
    · simp only [Nat.add_mul, Nat.one_mul]
      omega
  · -- the point below the middle
    refine ⟨4 * significand r * k / g, contains_of_lt ?_ ?_⟩
    · simp only [if_neg hedge]
      omega
    · simp only [Nat.add_mul]
      omega

/-! ## The shortest decimal -/

/-- A point of the grid `10 ^ (k + j)` in the unit of `shortest` and in that of `Within`. -/
theorem point_scaled (c u b j : Nat) (k : Int) :
    c * (2 ^ (2 - ((u : Int) - b)).toNat * 10 ^ k.toNat * 10 ^ j) *
        (10 ^ (-(k + j)).toNat * 2 ^ u) =
      4 * (c * 10 ^ (k + j).toNat * 2 ^ b) *
        (2 ^ ((u : Int) - b - 2).toNat * 10 ^ (-k).toNat) := by
  have htwo : 2 ^ (2 - ((u : Int) - b)).toNat * 2 ^ u = 2 ^ 2 * 2 ^ b * 2 ^ ((u : Int) - b - 2).toNat := by
    rw [← Nat.pow_add, ← Nat.pow_add, ← Nat.pow_add]
    congr 1
    omega
  have hten : 10 ^ k.toNat * 10 ^ j * 10 ^ (-(k + j)).toNat = 10 ^ (k + j).toNat * 10 ^ (-k).toNat := by
    rw [← Nat.pow_add, ← Nat.pow_add, ← Nat.pow_add]
    congr 1
    omega
  calc c * (2 ^ (2 - ((u : Int) - b)).toNat * 10 ^ k.toNat * 10 ^ j) * (10 ^ (-(k + j)).toNat * 2 ^ u)
      = c * (2 ^ (2 - ((u : Int) - b)).toNat * 2 ^ u) *
          (10 ^ k.toNat * 10 ^ j * 10 ^ (-(k + j)).toNat) := by ring
    _ = c * (2 ^ 2 * 2 ^ b * 2 ^ ((u : Int) - b - 2).toNat) *
          (10 ^ (k + j).toNat * 10 ^ (-k).toNat) := by rw [htwo, hten]
    _ = _ := by ring

/-- A point of a grid is a decimal. -/
theorem contains_grid_iff (r c j : Nat) :
    ((neighborhood r).scale (firstScale r)).Contains (c * (firstGrid r * 10 ^ j)) ↔
      Decimal.Within ⟨c, firstExponent r + j⟩ r :=
  contains_scale (by unfold firstScale; positivity) (by positivity) (point_scaled _ _ 1074 _ _)

/-- What `shortest` finds: a point of the coarsest grid that has one. -/
theorem shortest_spec {r : Nat} (hpos : 0 < r) :
    ∃ j : Nat, (shortest r).exp = firstExponent r + j ∧ (shortest r).Within r ∧
      ∀ c, ¬Decimal.Within ⟨c, firstExponent r + (j + 1 : Nat)⟩ r := by
  have hgrid : 0 < firstGrid r := by unfold firstGrid; positivity
  have hscale : 0 < firstScale r := by unfold firstScale; positivity
  obtain ⟨hmid, hlow⟩ := neighborhood_mid hpos hscale
  obtain ⟨c, hc⟩ := exists_point hpos hgrid (firstGrid_le r)
  obtain ⟨a, ha⟩ := Option.ne_none_iff_exists'.1 fun h => not_contains_of_nearest? hmid hgrid h hc
  obtain ⟨j, hexp, hj, hcoarse⟩ := Neighborhood.climb_spec (d := ⟨a, firstExponent r⟩) hmid hlow hgrid
    (Neighborhood.nearest?_contains ha)
  rw [← shortest_eq ha] at hexp hj
  refine ⟨j, hexp, ?_, fun c => (contains_grid_iff r c _).not.1 (hcoarse c)⟩
  have hwithin := (contains_grid_iff r _ j).1 hj
  rwa [← hexp] at hwithin

section Finite

variable {r : Nat} {d : Decimal}

/-- **The shortest decimal of a rank is nearest to that rank.** -/
theorem shortest_nearest (hpos : 0 < r) (hfin : r < infinityRank) : Nearest (shortest r).value r := by
  obtain ⟨_, _, hwithin, _⟩ := shortest_spec hpos
  exact (Decimal.nearest_iff_within hpos hfin).2 hwithin

/-- **No decimal nearest to a rank has a greater power of ten** than the shortest one. -/
theorem exp_le_shortest (hpos : 0 < r) (hfin : r < infinityRank) (h : Nearest d.value r) :
    d.exp ≤ (shortest r).exp := by
  obtain ⟨j, hexp, -, hcoarse⟩ := shortest_spec hpos
  by_contra hlt
  obtain ⟨k, hk⟩ : ∃ k : Nat, d.exp = firstExponent r + (j + 1 : Nat) + k :=
    ⟨(d.exp - (firstExponent r + (j + 1 : Nat))).toNat, by omega⟩
  refine hcoarse (d.coeff * 10 ^ k) ((Decimal.nearest_iff_within hpos hfin).1 ?_)
  rw [Decimal.value_zeros, ← hk]
  exact h

/-- **No decimal nearest to a rank has fewer digits** than the shortest one. -/
theorem shortest_digits_le (hpos : 0 < r) (hfin : r < infinityRank) (h : Nearest d.value r) :
    (Decimal.digits (shortest r).coeff).length ≤ (Decimal.digits d.coeff).length := by
  by_contra hlt
  have hshort := shortest_nearest hpos hfin
  have hexp := exp_le_shortest hpos hfin h
  have hcoeff := Decimal.coeff_pos_of_nearest hpos hshort
  -- the greatest power of ten that is not above the shortest decimal
  have hlead : d.leading + 1 ≤ (shortest r).leading := by
    unfold Decimal.leading
    omega
  have hpow : Decimal.value ⟨1, (shortest r).leading⟩ = 10 ^ (shortest r).leading := by
    simp [Decimal.value]
  have hbetween : Nearest (Decimal.value ⟨1, (shortest r).leading⟩) r := by
    refine h.between hshort ?_ (hpow ▸ Decimal.pow_le_value hcoeff)
    rw [hpow]
    exact d.value_lt_pow.le.trans (zpow_le_zpow_right₀ (by norm_num) hlead)
  have hmax := exp_le_shortest hpos hfin hbetween
  have hlen : 0 < (Decimal.digits d.coeff).length := Nat.length_toDigits_pos
  unfold Decimal.leading at hmax
  dsimp only at hmax
  omega

end Finite

end Number

end FlatLisp
