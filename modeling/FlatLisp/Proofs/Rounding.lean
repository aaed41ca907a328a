import FlatLisp.Number.Shortest
import Mathlib.Algebra.Order.Field.Basic
import Mathlib.Algebra.Order.Field.Rat
import Mathlib.Tactic.ByContra
import Mathlib.Tactic.FieldSimp
import Mathlib.Tactic.Linarith
import Mathlib.Tactic.Ring

/-!
# What rounds to a number

The nearest rank to a rational `q` is the one no other rank is nearer to `q` than, an even one
of two equally near (`Nearest`). Infinity takes part as the next value behind the finite ones.
Since the values increase with the ranks, only the two neighbours of a rank matter, and so the
points halfway to them (`nearest_iff`). All of these points are natural numbers of units of
`2 ^ (-1075)`, in which the rounding and the neighborhoods are compared with them.

* `Nearest.unique`: the nearest rank is unique.
* `nearestRank_nearest`: **`nearestRank` gives the nearest rank** of every quotient.
* `nearest_iff_contains`: the quotients nearest to a rank are those in its neighborhood, which
  is counted in quarters of the unit of the rank; `Neighborhood.scale` changes that count.
-/

namespace FlatLisp

namespace Number

/-! ## Magnitudes -/

/-- Binades follow each other, so a rank counts units and significands together. -/
theorem unit_add_significand (r : Nat) : unit r * 2 ^ 52 + significand r = r := by
  unfold unit significand
  split_ifs <;> omega

theorem significand_lt (r : Nat) : significand r < 2 ^ 53 := by
  unfold significand
  split_ifs <;> omega

theorem significand_pos {r : Nat} (h : 0 < r) : 0 < significand r := by
  unfold significand
  split_ifs <;> omega

/-- The hidden bit is set except in the lowest binade. -/
theorem unit_or_significand (r : Nat) : unit r = 0 ∨ 2 ^ 52 ≤ significand r := by
  unfold unit significand
  split_ifs <;> omega

theorem significand_mod_two (r : Nat) : significand r % 2 = r % 2 := by
  have h := unit_add_significand r
  omega

/-- The magnitude `s * 2 ^ u` in a binade, up to the first one of the next binade. -/
theorem magnitude_add {u s : Nat} (hlow : u = 0 ∨ 2 ^ 52 ≤ s) (hhigh : s ≤ 2 ^ 53) :
    magnitude (u * 2 ^ 52 + s) = s * 2 ^ u := by
  rcases hhigh.lt_or_eq with hlt | rfl
  · have hu : unit (u * 2 ^ 52 + s) = u := by
      unfold unit
      omega
    have hs : significand (u * 2 ^ 52 + s) = s := by
      unfold significand
      split_ifs <;> omega
    rw [magnitude, hu, hs]
  · -- the carry: half the significand in twice the unit
    have hu : unit (u * 2 ^ 52 + 2 ^ 53) = u + 1 := by
      unfold unit
      omega
    have hs : significand (u * 2 ^ 52 + 2 ^ 53) = 2 ^ 52 := by
      unfold significand
      split_ifs <;> omega
    rw [magnitude, hu, hs, Nat.pow_succ]
    ring

/-- **The next rank is one unit higher.** -/
theorem magnitude_succ (r : Nat) : magnitude (r + 1) = magnitude r + 2 ^ unit r := by
  have hr := unit_add_significand r
  have hnext : magnitude (unit r * 2 ^ 52 + (significand r + 1)) = _ :=
    magnitude_add ((unit_or_significand r).imp_right (by omega)) (significand_lt r)
  rw [← Nat.add_assoc, hr, Nat.succ_mul] at hnext
  exact hnext

theorem magnitude_strictMono : StrictMono magnitude := by
  refine strictMono_nat_of_lt_succ fun r => ?_
  rw [magnitude_succ]
  exact Nat.lt_add_of_pos_right (Nat.two_pow_pos _)

/-! ## Values -/

/-- The value of a rank; that of infinity reads as `2 ^ 1024`. -/
def rankValue (r : Nat) : ℚ := magnitude r / 2 ^ 1074

theorem rankValue_strictMono : StrictMono rankValue := fun _ _ h =>
  div_lt_div_of_pos_right (Nat.cast_lt.2 (magnitude_strictMono h)) (by positivity)

/-- **`r` is the rank nearest to `q`**: no rank up to infinity is nearer, and `r` is even if
another one is equally near. -/
structure Nearest (q : ℚ) (r : Nat) : Prop where
  le : r ≤ infinityRank
  near : ∀ s ≤ infinityRank, |q - rankValue r| ≤ |q - rankValue s|
  even : ∀ s ≤ infinityRank, s ≠ r → |q - rankValue s| = |q - rankValue r| → r % 2 = 0

/-! ## Halfway points -/

section Halfway

variable {a b q : ℚ} {p r s : Nat}

/-- Of two values the greater is the nearer one above the point halfway. -/
theorem closer_high (h : a < b) : |q - b| ≤ |q - a| ↔ (a + b) / 2 ≤ q := by
  rcases abs_cases (q - a) with ⟨ha, _⟩ | ⟨ha, _⟩ <;>
    rcases abs_cases (q - b) with ⟨hb, _⟩ | ⟨hb, _⟩ <;>
    rw [ha, hb] <;> constructor <;> intro _ <;> linarith

theorem closer_low (h : a < b) : |q - a| ≤ |q - b| ↔ q ≤ (a + b) / 2 := by
  rcases abs_cases (q - a) with ⟨ha, _⟩ | ⟨ha, _⟩ <;>
    rcases abs_cases (q - b) with ⟨hb, _⟩ | ⟨hb, _⟩ <;>
    rw [ha, hb] <;> constructor <;> intro _ <;> linarith

theorem closer_tie (h : a < b) : |q - a| = |q - b| ↔ q = (a + b) / 2 := by
  rw [le_antisymm_iff, closer_low h, closer_high h, ← le_antisymm_iff]

/-- The point halfway between a rank and the next one. -/
def halfway (r : Nat) : ℚ := (rankValue r + rankValue (r + 1)) / 2

theorem halfway_le (h : p ≤ r) : halfway p ≤ halfway r := by
  have h₁ := rankValue_strictMono.monotone h
  have h₂ := rankValue_strictMono.monotone (Nat.succ_le_succ h)
  unfold halfway
  linarith

theorem lt_halfway (r : Nat) : rankValue r < halfway r := by
  have h := rankValue_strictMono r.lt_succ_self
  unfold halfway
  linarith

theorem halfway_lt (r : Nat) : halfway r < rankValue (r + 1) := by
  have h := rankValue_strictMono r.lt_succ_self
  unfold halfway
  linarith

/-- `q` lies between the points halfway to the neighbours of `r`, on one of them only if `r` is
even. Infinity has no neighbour above. -/
structure Around (q : ℚ) (r : Nat) : Prop where
  below : ∀ p, p + 1 = r → halfway p ≤ q ∧ (q = halfway p → r % 2 = 0)
  above : r < infinityRank → q ≤ halfway r ∧ (q = halfway r → r % 2 = 0)

/-- A rank that is nearer than its neighbours is nearer than every rank. -/
theorem Around.nearest (h : Around q r) (hr : r ≤ infinityRank) : Nearest q r := by
  have hlow : ∀ s < r, (rankValue s + rankValue r) / 2 ≤ q ∧
      (q = (rankValue s + rankValue r) / 2 → r % 2 = 0) := fun s hs => by
    obtain ⟨p, rfl⟩ : ∃ p, r = p + 1 := ⟨r - 1, by omega⟩
    obtain ⟨hp, heven⟩ := h.below p rfl
    have hsp := rankValue_strictMono.monotone (Nat.le_of_lt_succ hs)
    have hle : (rankValue s + rankValue (p + 1)) / 2 ≤ halfway p := by
      unfold halfway
      linarith
    exact ⟨hle.trans hp, fun hq => heven (le_antisymm (hq ▸ hle) hp)⟩
  have hhigh : ∀ s, r < s → s ≤ infinityRank → q ≤ (rankValue r + rankValue s) / 2 ∧
      (q = (rankValue r + rankValue s) / 2 → r % 2 = 0) := fun s hs hsi => by
    obtain ⟨hq, heven⟩ := h.above (hs.trans_le hsi)
    have hsr := rankValue_strictMono.monotone (Nat.succ_le_of_lt hs)
    have hle : halfway r ≤ (rankValue r + rankValue s) / 2 := by
      unfold halfway
      linarith
    exact ⟨hq.trans hle, fun hq' => heven (le_antisymm hq (hq' ▸ hle))⟩
  refine ⟨hr, fun s hs => ?_, fun s hs hne htie => ?_⟩
  · rcases lt_trichotomy s r with hlt | rfl | hlt
    · exact (closer_high (rankValue_strictMono hlt)).2 (hlow s hlt).1
    · exact le_rfl
    · exact (closer_low (rankValue_strictMono hlt)).2 (hhigh s hlt hs).1
  · rcases hne.lt_or_gt with hlt | hlt
    · exact (hlow s hlt).2 ((closer_tie (rankValue_strictMono hlt)).1 htie)
    · exact (hhigh s hlt hs).2 ((closer_tie (rankValue_strictMono hlt)).1 htie.symm)

theorem Nearest.around (h : Nearest q r) : Around q r := by
  refine ⟨fun p hp => ?_, fun hr => ?_⟩
  · subst hp
    have hlt := rankValue_strictMono p.lt_succ_self
    have hp : p ≤ infinityRank := p.le_succ.trans h.le
    exact ⟨(closer_high hlt).1 (h.near p hp),
      fun hq => h.even p hp (by omega) ((closer_tie hlt).2 hq)⟩
  · have hlt := rankValue_strictMono r.lt_succ_self
    exact ⟨(closer_low hlt).1 (h.near _ hr),
      fun hq => h.even _ hr (by omega) ((closer_tie hlt).2 hq).symm⟩

/-- **Only the neighbours of a rank matter.** -/
theorem nearest_iff : Nearest q r ↔ r ≤ infinityRank ∧ Around q r :=
  ⟨fun h => ⟨h.le, h.around⟩, fun h => h.2.nearest h.1⟩

/-- The greater of two ranks is not nearest when the lesser one is. -/
theorem Nearest.le_of_nearest (hr : Nearest q r) (hs : Nearest q s) : s ≤ r := by
  by_contra hlt
  obtain ⟨p, rfl⟩ : ∃ p, s = p + 1 := ⟨s - 1, by omega⟩
  obtain ⟨habove, heven⟩ := hr.around.above (lt_of_lt_of_le (not_le.1 hlt) hs.le)
  obtain ⟨hbelow, heven'⟩ := hs.around.below p rfl
  have hmid := halfway_le (show r ≤ p by omega)
  have hq : q = halfway r := by linarith
  have hq' : q = halfway p := by linarith
  -- both are even, so a rank lies between them, and halfway points increase strictly
  have h₁ := heven hq
  have h₂ := heven' hq'
  have h₃ := halfway_lt r
  have h₄ := lt_halfway p
  have h₅ := rankValue_strictMono.monotone (show r + 1 ≤ p by omega)
  linarith

/-- **The nearest rank is unique.** -/
theorem Nearest.unique (hr : Nearest q r) (hs : Nearest q s) : r = s :=
  le_antisymm (hs.le_of_nearest hr) (hr.le_of_nearest hs)

/-- The rationals nearest to a rank have no gaps. -/
theorem Nearest.between (ha : Nearest a r) (hb : Nearest b r) (haq : a ≤ q) (hqb : q ≤ b) :
    Nearest q r := by
  refine Around.nearest ⟨fun p hp => ?_, fun hr => ?_⟩ ha.le
  · obtain ⟨hle, heven⟩ := ha.around.below p hp
    exact ⟨hle.trans haq, fun hq => heven (le_antisymm (hq ▸ haq) hle)⟩
  · obtain ⟨hle, heven⟩ := hb.around.above hr
    exact ⟨hqb.trans hle, fun hq => heven (le_antisymm hle (hq ▸ hqb))⟩

theorem nearest_infinity (h : rankValue infinityRank ≤ q) : Nearest q infinityRank := by
  refine Around.nearest ⟨fun p hp => ?_, fun hlt => absurd hlt (lt_irrefl _)⟩ le_rfl
  have hq : halfway p < q := (halfway_lt p).trans_le (hp ▸ h)
  exact ⟨hq.le, fun _ => by decide⟩

theorem nearest_zero (h : q < halfway 0) : Nearest q 0 :=
  Around.nearest ⟨fun _ hp => absurd hp (Nat.succ_ne_zero _), fun _ => ⟨h.le, fun _ => rfl⟩⟩
    (Nat.zero_le _)

/-- The halfway points in units of `2 ^ (-1075)`. -/
theorem halfway_eq (r : Nat) :
    halfway r = ((magnitude r + magnitude (r + 1) : Nat) : ℚ) / (2 * 2 ^ 1074 : Nat) := by
  unfold halfway rankValue
  rw [Nat.cast_add, Nat.cast_mul, Nat.cast_pow, Nat.cast_ofNat, ← add_div, div_div, mul_comm (2 : ℚ)]

end Halfway

/-! ## Rounding -/

/-- **The nearest integer** is at most half away, and even if it is exactly half away. -/
theorem roundEven_near {d : Nat} (n : Nat) (hd : 0 < d) :
    2 * (roundEven n d * d) ≤ 2 * n + d ∧ 2 * n ≤ 2 * (roundEven n d * d) + d ∧
      (2 * (roundEven n d * d) = 2 * n + d ∨ 2 * n = 2 * (roundEven n d * d) + d →
        roundEven n d % 2 = 0) := by
  have hn : n = n / d * d + n % d := by rw [Nat.mul_comm]; exact (Nat.div_add_mod n d).symm
  have hr := Nat.mod_lt n hd
  have hstep : (n / d + 1) * d = n / d * d + d := Nat.succ_mul _ _
  unfold roundEven
  dsimp only
  split_ifs <;> omega

theorem ratio_le_iff {a b c d : Nat} (hb : 0 < b) (hd : 0 < d) :
    (a : ℚ) / b ≤ (c : ℚ) / d ↔ a * d ≤ c * b := by
  rw [div_le_div_iff₀ (by positivity) (by positivity)]
  norm_cast

section Quotients

variable {n d : Nat}

theorem rankValue_le_div (hd : 0 < d) (r : Nat) :
    rankValue r ≤ (n : ℚ) / d ↔ magnitude r * d ≤ n * 2 ^ 1074 := by
  have hvalue : rankValue r = (magnitude r : ℚ) / (2 ^ 1074 : Nat) := by
    rw [rankValue, Nat.cast_pow, Nat.cast_ofNat]
  rw [hvalue, ratio_le_iff (by positivity) hd]

/-- A quotient and a halfway point in a common unit. -/
theorem halfway_le_div (hd : 0 < d) (r : Nat) :
    halfway r ≤ (n : ℚ) / d ↔ (magnitude r + magnitude (r + 1)) * d ≤ 2 * (n * 2 ^ 1074) := by
  rw [halfway_eq, ratio_le_iff (by positivity) hd, Nat.mul_left_comm n]

theorem div_le_halfway (hd : 0 < d) (r : Nat) :
    (n : ℚ) / d ≤ halfway r ↔ 2 * (n * 2 ^ 1074) ≤ (magnitude r + magnitude (r + 1)) * d := by
  rw [halfway_eq, ratio_le_iff hd (by positivity), Nat.mul_left_comm n]

theorem div_eq_halfway (hd : 0 < d) (r : Nat) :
    (n : ℚ) / d = halfway r ↔ 2 * (n * 2 ^ 1074) = (magnitude r + magnitude (r + 1)) * d := by
  rw [le_antisymm_iff, halfway_le_div hd, div_le_halfway hd, ← le_antisymm_iff]

end Quotients

/-! ## The nearest rank -/

section NearestRank

variable {n d : Nat}

/-- The binade of a quotient: the significand there is below `2 ^ 53`, and full except in the
lowest binade. -/
theorem binadeUnit_div (x : Nat) (hd : 0 < d) :
    (binadeUnit (x / d) = 0 ∨ 2 ^ 52 * (d * 2 ^ binadeUnit (x / d)) ≤ x) ∧
      x < 2 ^ 53 * (d * 2 ^ binadeUnit (x / d)) := by
  have hbinade : ∀ k u, 2 ^ k * (d * 2 ^ u) = 2 ^ (u + k) * d := fun k u => by
    rw [Nat.pow_add]
    ring
  rw [hbinade, hbinade, ← Nat.le_div_iff_mul_le hd, ← Nat.div_lt_iff_lt_mul hd]
  generalize x / d = whole
  have hhigh : whole < 2 ^ (whole.log2 + 1) := Nat.lt_log2_self
  unfold binadeUnit
  refine ⟨?_, hhigh.trans_le (Nat.pow_le_pow_right (by decide) (by omega))⟩
  rcases Nat.le_total whole.log2 52 with hle | hle
  · exact .inl (by omega)
  · have hne : whole ≠ 0 := by
      rintro rfl
      simp at hle
    rw [Nat.sub_add_cancel hle]
    exact .inr (Nat.log2_self_le hne)

/-- The rank before infinity is cut off is nearer than its neighbours. -/
theorem around_rounded {u : Nat} (hd : 0 < d) (hlow : u = 0 ∨ 2 ^ 52 * (d * 2 ^ u) ≤ n * 2 ^ 1074)
    (hhigh : n * 2 ^ 1074 < 2 ^ 53 * (d * 2 ^ u)) :
    Around ((n : ℚ) / d) (u * 2 ^ 52 + roundEven (n * 2 ^ 1074) (d * 2 ^ u)) := by
  have hg : 0 < d * 2 ^ u := Nat.mul_pos hd (Nat.two_pow_pos u)
  obtain ⟨hnear, hnear', heven⟩ := roundEven_near (n * 2 ^ 1074) hg
  generalize roundEven (n * 2 ^ 1074) (d * 2 ^ u) = s at *
  have hsucc : ∀ c, (c + 1) * (d * 2 ^ u) = c * (d * 2 ^ u) + d * 2 ^ u := fun c => Nat.succ_mul _ _
  have hsmax : s ≤ 2 ^ 53 := by
    by_contra h
    have := hsucc _ ▸ Nat.mul_le_mul_right (d * 2 ^ u) (not_le.1 h)
    omega
  have hsmin : u = 0 ∨ 2 ^ 52 ≤ s := hlow.imp_right fun hlow => by
    by_contra h
    have := hsucc _ ▸ Nat.mul_le_mul_right (d * 2 ^ u) (not_le.1 h)
    omega
  have hvalue := magnitude_add hsmin hsmax
  have hmag : ∀ c, c * 2 ^ u * d = c * (d * 2 ^ u) := fun c => by ring
  refine ⟨fun p hp => ?_, fun _ => ?_⟩
  · by_cases hedge : u = 0 ∨ 2 ^ 52 < s
    · -- the rank below is in the same binade
      obtain ⟨t, rfl⟩ : ∃ t, s = t + 1 := ⟨s - 1, by omega⟩
      have hp' : p = u * 2 ^ 52 + t := by omega
      rw [halfway_le_div hd, div_eq_halfway hd, hp, hvalue, hp', magnitude_add (by omega) (by omega),
        Nat.add_mul, hmag, hmag, hsucc]
      rw [hsucc] at hnear heven
      omega
    · -- the first rank of a binade is not above the quotient
      obtain rfl : s = 2 ^ 52 := by omega
      have hle : rankValue (p + 1) ≤ (n : ℚ) / d := by
        rw [rankValue_le_div hd, hp, hvalue, hmag]
        exact hlow.resolve_left (by omega)
      have hlt := halfway_lt p
      exact ⟨(hlt.trans_le hle).le, fun hq => absurd hq (hlt.trans_le hle).ne'⟩
  · have hunit : d * 2 ^ u ≤ 2 ^ unit (u * 2 ^ 52 + s) * d := by
      rw [Nat.mul_comm d]
      refine Nat.mul_le_mul_right d (Nat.pow_le_pow_right (by decide) ?_)
      unfold unit
      omega
    rw [div_le_halfway hd, div_eq_halfway hd, magnitude_succ, hvalue, Nat.add_mul, Nat.add_mul, hmag]
    omega

/-- Infinity is nearest to what is nearer to a rank behind it than to the one below. -/
theorem Around.min_infinity {q : ℚ} {r : Nat} (h : Around q r) : Nearest q (min infinityRank r) := by
  rcases Nat.le_total r infinityRank with hle | hle
  · rw [Nat.min_eq_right hle]
    exact h.nearest hle
  · rw [Nat.min_eq_left hle]
    refine Around.nearest ⟨fun p hp => ?_, fun hlt => absurd hlt (lt_irrefl _)⟩ le_rfl
    obtain ⟨t, rfl⟩ : ∃ t, r = t + 1 := ⟨r - 1, by omega⟩
    exact ⟨(halfway_le (by omega)).trans (h.below t rfl).1, fun _ => by decide⟩

/-- **`nearestRank` gives the nearest rank.** -/
theorem nearestRank_nearest (n : Nat) {d : Nat} (hd : 0 < d) :
    Nearest ((n : ℚ) / d) (nearestRank n d) := by
  have hshift : ∀ a k : Nat, a <<< k = a * 2 ^ k := Nat.shiftLeft_eq
  obtain ⟨hlow, hhigh⟩ := binadeUnit_div (n * 2 ^ 1074) hd
  rw [nearestRank, hshift, hshift]
  exact (around_rounded hd hlow hhigh).min_infinity

end NearestRank

/-! ## Neighborhoods -/

namespace Neighborhood

/-- The same neighborhood in a unit that is `k` times smaller. -/
def scale (I : Neighborhood) (k : Nat) : Neighborhood := ⟨I.low * k, I.mid * k, I.high * k, I.closed⟩

variable {I : Neighborhood}

theorem contains_of_lt {n : Nat} (hlow : I.low < n) (hhigh : n < I.high) : I.Contains n := by
  unfold Contains
  split_ifs <;> omega

theorem contains_of_closed {n : Nat} (hc : I.closed = true) (hlow : I.low ≤ n) (hhigh : n ≤ I.high) :
    I.Contains n := by
  simp [Contains, hc, hlow, hhigh]

/-- A neighborhood contains its ends only if it is closed. -/
theorem contains_iff {n : Nat} :
    I.Contains n ↔ (I.low ≤ n ∧ (n = I.low → I.closed = true)) ∧
      (n ≤ I.high ∧ (n = I.high → I.closed = true)) := by
  unfold Contains
  cases I.closed
  · simp
    omega
  · simp

/-- A neighborhood contains the same quotients in every unit. -/
theorem contains_scale {a b x y : Nat} (ha : 0 < a) (hb : 0 < b) (h : x * b = y * a) :
    (I.scale a).Contains x ↔ (I.scale b).Contains y := by
  -- both sides are compared in the common unit
  have hle : ∀ l, l * a ≤ x ↔ l * b ≤ y := fun l => by
    rw [← Nat.mul_le_mul_right_iff hb, h, Nat.mul_right_comm, Nat.mul_le_mul_right_iff ha]
  have hge : ∀ l, x ≤ l * a ↔ y ≤ l * b := fun l => by
    rw [← Nat.mul_le_mul_right_iff hb, h, Nat.mul_right_comm, Nat.mul_le_mul_right_iff ha]
  simp only [Contains, scale, hle, hge, ← not_le]

end Neighborhood

/-- The unit below the first rank of a binade is half as large. -/
theorem unit_of_edge {p : Nat} (h : significand (p + 1) = 2 ^ 52 ∧ 0 < unit (p + 1)) :
    unit (p + 1) = unit p + 1 := by
  unfold unit significand at *
  split_ifs at h <;> omega

theorem unit_of_not_edge {p : Nat} (h : ¬(significand (p + 1) = 2 ^ 52 ∧ 0 < unit (p + 1))) :
    unit (p + 1) = unit p := by
  unfold unit significand at *
  split_ifs at h <;> omega

/-- The ends of a neighborhood, in quarters of the unit, are the halfway points. -/
theorem neighborhood_low (p : Nat) :
    (neighborhood (p + 1)).low * 2 ^ unit (p + 1) = 2 * (magnitude p + magnitude (p + 1)) := by
  have hvalue : magnitude (p + 1) = significand (p + 1) * 2 ^ unit (p + 1) := rfl
  have hsucc := magnitude_succ p
  dsimp only [neighborhood]
  rw [Nat.sub_mul, Nat.mul_assoc, ← hvalue]
  split_ifs with hedge
  · rw [unit_of_edge hedge, Nat.pow_succ]
    omega
  · rw [unit_of_not_edge hedge]
    omega

theorem neighborhood_high (r : Nat) :
    (neighborhood r).high * 2 ^ unit r = 2 * (magnitude r + magnitude (r + 1)) := by
  rw [magnitude_succ, magnitude]
  dsimp only [neighborhood]
  ring

/-- **The quotients nearest to a rank are those in its neighborhood.** -/
theorem nearest_iff_contains {n d r : Nat} (hd : 0 < d) (hpos : 0 < r) (hfin : r < infinityRank) :
    Nearest ((n : ℚ) / d) r ↔
      ((neighborhood r).scale (d * 2 ^ unit r)).Contains (4 * (n * 2 ^ 1074)) := by
  obtain ⟨p, rfl⟩ : ∃ p, r = p + 1 := ⟨r - 1, by omega⟩
  have hclosed : (neighborhood (p + 1)).closed = true ↔ (p + 1) % 2 = 0 := by
    rw [← significand_mod_two]
    exact decide_eq_true_iff
  have hlow : (neighborhood (p + 1)).low * (d * 2 ^ unit (p + 1)) =
      2 * ((magnitude p + magnitude (p + 1)) * d) := by
    rw [Nat.mul_left_comm, neighborhood_low]
    ring
  have hhigh : (neighborhood (p + 1)).high * (d * 2 ^ unit (p + 1)) =
      2 * ((magnitude (p + 1) + magnitude (p + 2)) * d) := by
    rw [Nat.mul_left_comm, neighborhood_high]
    ring
  have haround : Around ((n : ℚ) / d) (p + 1) ↔
      (halfway p ≤ (n : ℚ) / d ∧ ((n : ℚ) / d = halfway p → (p + 1) % 2 = 0)) ∧
        ((n : ℚ) / d ≤ halfway (p + 1) ∧ ((n : ℚ) / d = halfway (p + 1) → (p + 1) % 2 = 0)) := by
    constructor
    · intro h
      exact ⟨h.below p rfl, h.above hfin⟩
    · rintro ⟨hbelow, habove⟩
      exact ⟨fun _ hp => Nat.succ_inj.1 hp ▸ hbelow, fun _ => habove⟩
  rw [nearest_iff, and_iff_right hfin.le, haround, halfway_le_div hd, div_le_halfway hd,
    div_eq_halfway hd, div_eq_halfway hd, Neighborhood.contains_iff]
  dsimp only [Neighborhood.scale]
  rw [hlow, hhigh, hclosed]
  generalize n * 2 ^ 1074 = x
  generalize (magnitude p + magnitude (p + 1)) * d = a
  generalize (magnitude (p + 1) + magnitude (p + 2)) * d = b
  omega

end Number

end FlatLisp
