import FlatLisp.Builtin.Call
import FlatLisp.Proofs.Numerals
import Mathlib.Data.Int.Bitwise
import Mathlib.Data.Rat.Floor

/-!
# Integer operations on numbers

The operands of the integer operations are doubles of any kind. What they count as is said here
by their exact values (`Number.operand`): the value without its fraction, brought into the range
of 64 bits. What is returned is said by the integer that the operation gives (`Returns`).

* `toInteger_eq_operand`: **the operand is what the bits of the double say.**
* `bitwise_eq`: a bitwise operation on words joins the bits of two's complement one by one.
* `shiftLeft_eq`, `shiftRight_eq`: the shifts, for every count.
* `integer_operations`: **every integer operation is exact on its operands**, and is rounded once.
-/

namespace FlatLisp

/-! ## Truncation -/

/-- A rational without its fraction. -/
def towardZero (q : ℚ) : Int := if q < 0 then ⌈q⌉ else ⌊q⌋

theorem towardZero_neg (q : ℚ) : towardZero (-q) = -towardZero q := by
  unfold towardZero
  rcases lt_trichotomy q 0 with h | rfl | h
  · rw [if_pos h, if_neg (by linarith), Int.floor_neg]
  · simp
  · rw [if_neg h.le.not_gt, if_pos (by linarith), Int.ceil_neg]

theorem towardZero_div (m n : Nat) : towardZero (m / n) = (m / n : Nat) := by
  have hnonneg : ¬ (m / n : ℚ) < 0 := not_lt.2 (by positivity)
  rw [towardZero, if_neg hnonneg, Rat.floor_natCast_div_natCast, Int.natCast_div]

theorem towardZero_div_pow (m k : Nat) : towardZero (m / 2 ^ k) = (m >>> k : Nat) := by
  have hdiv := towardZero_div m (2 ^ k)
  rwa [Nat.cast_pow, Nat.cast_ofNat, ← Nat.shiftRight_eq_div_pow] at hdiv

/-- Division of integers drops the fraction. -/
theorem towardZero_intCast_div (l r : Int) : towardZero (l / r) = l.tdiv r := by
  -- signs are taken out of both sides
  obtain ⟨m, rfl | rfl⟩ := l.eq_nat_or_neg <;> obtain ⟨n, rfl | rfl⟩ := r.eq_nat_or_neg <;>
    simp only [Int.cast_neg, Int.cast_natCast, neg_div, div_neg, neg_neg, towardZero_neg,
      towardZero_div, Int.neg_tdiv, Int.tdiv_neg] <;> rfl

/-! ## Operands -/

namespace Number

/-- The exact value of a finite number. -/
def value (x : Number) : ℚ := if x.negative then -rankValue x.rank else rankValue x.rank

/-- The nearest integer of 64 bits. -/
def clamp (n : Int) : Int := max minInteger (min maxInteger n)

/-- What a number counts as where an integer of 64 bits is asked for. -/
def operand (x : Number) : Int :=
  if x.isNaN then 0
  else if x.isInfinite then if x.negative then minInteger else maxInteger
  else clamp (towardZero x.value)

theorem truncated_eq (x : Number) : x.truncated = towardZero x.value := by
  have hwhole : towardZero (rankValue x.rank) = (magnitude x.rank >>> 1074 : Nat) :=
    towardZero_div_pow _ _
  unfold truncated value
  split_ifs <;> simp only [towardZero_neg, hwhole]

/-- The magnitude of infinity is beyond the integers of 64 bits. -/
theorem maxInteger_lt_infinity : maxInteger < (magnitude infinityRank >>> 1074 : Nat) := by
  decide +kernel

/-- **An operand is the value without its fraction, within 64 bits**; a NaN counts as zero, and an
infinity as the last integer on its side. -/
theorem toInteger_eq_operand (x : Number) : x.toInteger = x.operand := by
  have hbounds : minInteger = -2 ^ 63 ∧ maxInteger = 2 ^ 63 - 1 := ⟨rfl, rfl⟩
  unfold toInteger operand
  split_ifs with hnan hinf hneg
  · rfl
  · have hrank : x.rank = infinityRank := of_decide_eq_true hinf
    have hlarge := maxInteger_lt_infinity
    simp only [truncated, if_pos hneg, hrank]
    omega
  · have hrank : x.rank = infinityRank := of_decide_eq_true hinf
    have hlarge := maxInteger_lt_infinity
    simp only [truncated, if_neg hneg, hrank]
    omega
  · rw [truncated_eq]
    rfl

theorem operand_bounds (x : Number) : -2 ^ 63 ≤ x.operand ∧ x.operand < 2 ^ 63 := by
  have hbounds : minInteger = -2 ^ 63 ∧ maxInteger = 2 ^ 63 - 1 := ⟨rfl, rfl⟩
  rw [← toInteger_eq_operand]
  unfold toInteger
  split_ifs <;> omega

/-- The double nearest to an integer, ties to even. -/
def NearestTo (y : Number) (n : Int) : Prop := Rounds (decide (n < 0)) n.natAbs y

theorem nearestTo_ofInt (n : Int) : (ofInt n).NearestTo n := by
  have hnear : Nearest n.natAbs (nearestRank n.natAbs 1) := by
    simpa using nearestRank_nearest n.natAbs Nat.one_pos
  have hlt := hnear.le.trans_lt infinityRank_lt
  refine ⟨negative_ofRank hlt, ?_⟩
  rw [ofInt, ofRatio, rank_ofRank hlt]
  exact hnear

/-- An integer with 53 bits is the value of a rank. -/
theorem exists_rankValue_eq {n : Nat} (h : n ≤ 2 ^ 53) : ∃ r ≤ infinityRank, rankValue r = n := by
  rcases Nat.eq_zero_or_pos n with rfl | hpos
  · exact ⟨0, Nat.zero_le _, by decide +kernel⟩
  rcases h.lt_or_eq with hlt | rfl
  · -- the binade is that of the leading bit
    have hlog : n.log2 ≤ 52 := Nat.le_of_lt_succ ((Nat.log2_lt hpos.ne').2 hlt)
    have hself : 2 ^ n.log2 ≤ n := Nat.log2_self_le hpos.ne'
    have hsucc : n < 2 ^ (n.log2 + 1) := Nat.lt_log2_self
    have hlow : 2 ^ 52 ≤ n * 2 ^ (52 - n.log2) := by
      calc 2 ^ 52 = 2 ^ n.log2 * 2 ^ (52 - n.log2) := by rw [← pow_add]; congr 1; omega
        _ ≤ n * 2 ^ (52 - n.log2) := Nat.mul_le_mul_right _ hself
    have hhigh : n * 2 ^ (52 - n.log2) ≤ 2 ^ 53 := by
      calc n * 2 ^ (52 - n.log2) ≤ 2 ^ (n.log2 + 1) * 2 ^ (52 - n.log2) :=
            Nat.mul_le_mul_right _ hsucc.le
        _ = 2 ^ 53 := by rw [← pow_add]; congr 1; omega
    refine ⟨(n.log2 + 1022) * 2 ^ 52 + n * 2 ^ (52 - n.log2), ?_, ?_⟩
    · unfold infinityRank
      omega
    · have hunits : 52 - n.log2 + (n.log2 + 1022) = 1074 := by omega
      rw [rankValue, magnitude_add (.inr hlow) hhigh, mul_assoc, ← pow_add, hunits,
        Nat.cast_mul, Nat.cast_pow, Nat.cast_ofNat]
      exact mul_div_cancel_right₀ _ (by positivity)
  · exact ⟨1076 * 2 ^ 52, by decide +kernel, by decide +kernel⟩

/-- Integers with 53 bits need no rounding. -/
theorem value_ofInt {n : Nat} (h : n ≤ 2 ^ 53) : (ofInt n).value = n := by
  obtain ⟨r, hr, hvalue⟩ := exists_rankValue_eq h
  have hnear : Nearest (n : ℚ) r := by
    refine ⟨hr, fun s _ => ?_, fun s _ hne htie => absurd ?_ hne⟩
    · rw [hvalue, sub_self, abs_zero]
      exact abs_nonneg _
    · rw [hvalue, sub_self, abs_zero, abs_eq_zero, sub_eq_zero, ← hvalue] at htie
      exact rankValue_strictMono.injective htie.symm
  obtain ⟨hsign, hround⟩ := nearestTo_ofInt n
  rw [Int.natAbs_natCast] at hround
  have hrank := hround.unique hnear
  have hnonneg : ¬ (n : Int) < 0 := by omega
  rw [value, hsign, hrank, hvalue, decide_eq_false hnonneg]
  rfl

/-! ## Words -/

theorem getLsbD_ofInt (n : Int) {i : Nat} (hi : i < 64) :
    (BitVec.ofInt 64 n).getLsbD i = n.testBit i := by
  cases n with
  | ofNat m =>
    rw [Int.ofNat_eq_natCast, BitVec.ofInt_natCast, BitVec.getLsbD_ofNat]
    simp [hi, Int.testBit]
  | negSucc m =>
    rw [BitVec.ofInt_negSucc_eq_not_ofNat, BitVec.getLsbD_not, BitVec.getLsbD_ofNat]
    simp [hi, Int.testBit]

/-- A word is read as the integer that has its bits. -/
theorem toInt_ofBits (g : Fin 64 → Bool) : (BitVec.ofNat 64 (Nat.ofBits g)).toInt = Int.ofBits g := by
  have hlt := Nat.ofBits_lt_two_pow g
  rw [BitVec.toInt, BitVec.toNat_ofNat, Nat.mod_eq_of_lt hlt, Int.ofBits, Int.subNatNat_eq_coe]
  rfl

/-- **An operation on words that joins bits one by one** joins the bits of two's complement. -/
theorem bitwise_eq {f : BitVec 64 → BitVec 64 → BitVec 64} {join : Bool → Bool → Bool}
    (h : ∀ v w i, i < 64 → (f v w).getLsbD i = join (v.getLsbD i) (w.getLsbD i)) (l r : Int) :
    bitwise f l r = Int.ofBits fun i : Fin 64 => join (l.testBit i) (r.testBit i) := by
  rw [← toInt_ofBits, bitwise]
  congr 1
  refine BitVec.eq_of_getLsbD_eq fun i hi => ?_
  rw [h _ _ i hi, getLsbD_ofInt l hi, getLsbD_ofInt r hi, BitVec.getLsbD_ofNat,
    Nat.testBit_ofBits_lt _ _ hi, decide_eq_true hi, Bool.true_and]

/-- **A shift to the left**, reduced to 64 bits. -/
theorem shiftLeft_eq (l : Int) (count : Nat) : shiftLeft l count = (l * 2 ^ count).bmod (2 ^ 64) := by
  unfold shiftLeft
  split_ifs with h
  · refine (Int.bmod_eq_zero_of_dvd (Dvd.dvd.mul_left ?_ l)).symm
    exact_mod_cast pow_dvd_pow 2 h
  · rfl

/-- **A shift to the right** rounds down. -/
theorem shiftRight_eq {l : Int} (hmin : -2 ^ 63 ≤ l) (hmax : l < 2 ^ 63) (count : Nat) :
    shiftRight l count = ⌊(l / 2 ^ count : ℚ)⌋ := by
  have hfloor : ⌊(l / 2 ^ count : ℚ)⌋ = l / 2 ^ count := by
    have := Rat.floor_intCast_div_natCast l (2 ^ count)
    simpa using this
  rw [hfloor]
  unfold shiftRight
  split_ifs with hcount hneg
  · have hpow : (2 : Int) ^ 64 ≤ 2 ^ count := pow_le_pow_right₀ (by decide) hcount
    exact (Int.ediv_eq_neg_one_of_neg_of_le hneg (by omega)).symm
  · have hpow : (2 : Int) ^ 64 ≤ 2 ^ count := pow_le_pow_right₀ (by decide) hcount
    exact (Int.ediv_eq_zero_of_lt (by omega) (by omega)).symm
  · rfl

end Number

/-- **A remainder is smaller than the divisor and has the sign of the dividend.** -/
theorem remainder_bounds (l : Int) {r : Int} (hr : r ≠ 0) :
    |l.tmod r| < |r| ∧ (l.tmod r = 0 ∨ (l.tmod r).sign = l.sign) := by
  constructor
  · rw [Int.abs_eq_natAbs, Int.abs_eq_natAbs, Int.natAbs_tmod]
    exact_mod_cast Nat.mod_lt _ (Int.natAbs_pos.2 hr)
  · have hsign := Int.sign_tmod l r
    split_ifs at hsign with hdvd
    · exact .inl (Int.sign_eq_zero_iff_zero.1 hsign)
    · exact .inr hsign

/-! ## Calls -/

namespace Builtin

/-- Called on two numbers, the operation returns the number nearest to `n`, and leaves the session
as it is. -/
def Returns (op : Builtin) (a b : Number) (n : Int) : Prop :=
  ∃ y : Number, y.NearestTo n ∧ ∀ s, op.call [.number a, .number b] s = (.ok (.number y), s)

/-- Called on two numbers, the operation fails, and leaves the session as it is. -/
def Fails (op : Builtin) (a b : Number) (e : RuntimeError) : Prop :=
  ∀ s, op.call [.number a, .number b] s = (.error e, s)

variable {op : Builtin} {f : Int → Int → Except RuntimeError Int} {a b : Number}

/-- An integer operation sees the operands and nothing else. -/
theorem apply_onIntegers (hop : op.operation = op.onIntegers f) :
    op.operation.apply op.name [.number a, .number b] =
      (f a.operand b.operand).map fun n => .value (.number (.ofInt n)) := by
  rw [hop, ← Number.toInteger_eq_operand, ← Number.toInteger_eq_operand]
  rfl

theorem returns_onIntegers (hop : op.operation = op.onIntegers f) {n : Int}
    (h : f a.operand b.operand = .ok n) : op.Returns a b n := by
  refine ⟨.ofInt n, Number.nearestTo_ofInt n, fun s => call_value ?_⟩
  rw [apply_onIntegers hop, h]
  rfl

theorem fails_onIntegers (hop : op.operation = op.onIntegers f) {e : RuntimeError}
    (h : f a.operand b.operand = .error e) : op.Fails a b e := by
  refine fun s => call_error ?_
  rw [apply_onIntegers hop, h]
  rfl

theorem returns_onBits {g : BitVec 64 → BitVec 64 → BitVec 64} (join : Bool → Bool → Bool)
    (hop : op.operation = op.onBits g)
    (h : ∀ v w i, i < 64 → (g v w).getLsbD i = join (v.getLsbD i) (w.getLsbD i)) :
    op.Returns a b
      (Int.ofBits fun i : Fin 64 => join (a.operand.testBit i) (b.operand.testBit i)) := by
  rw [← Number.bitwise_eq h]
  exact returns_onIntegers hop rfl

/-- **The integer operations are exact on their operands**, for all doubles. Bitwise operations
join the 64 bits of two's complement. A remainder is that of the quotient rounded toward zero; only
a divisor of zero fails. A shift to the left is reduced to 64 bits, one to the right rounds down;
only a negative count fails. Then the result is rounded to a double. -/
theorem integer_operations (a b : Number) :
    let l := a.operand
    let r := b.operand
    let remainder := l - r * towardZero (l / r)
    (bitAnd.Returns a b (Int.ofBits fun i : Fin 64 => l.testBit i && r.testBit i) ∧
      bitOr.Returns a b (Int.ofBits fun i : Fin 64 => l.testBit i || r.testBit i) ∧
      bitXor.Returns a b (Int.ofBits fun i : Fin 64 => l.testBit i ^^ r.testBit i) ∧
      bitClear.Returns a b (Int.ofBits fun i : Fin 64 => l.testBit i && !r.testBit i)) ∧
    (if r = 0 then modulo.Fails a b .moduloByZero
      else modulo.Returns a b remainder ∧ |remainder| < |r| ∧
        (remainder = 0 ∨ remainder.sign = l.sign)) ∧
    (if r < 0 then
      shiftLeft.Fails a b (.negativeShift .shiftLeft r) ∧
        shiftRight.Fails a b (.negativeShift .shiftRight r)
      else
        shiftLeft.Returns a b ((l * 2 ^ r.toNat).bmod (2 ^ 64)) ∧
          shiftRight.Returns a b ⌊(l / 2 ^ r.toNat : ℚ)⌋) := by
  intro l r remainder
  refine ⟨⟨?_, ?_, ?_, ?_⟩, ?_, ?_⟩
  · exact returns_onBits (fun x y => x && y) rfl fun v w i _ => BitVec.getLsbD_and
  · exact returns_onBits (fun x y => x || y) rfl fun v w i _ => BitVec.getLsbD_or
  · exact returns_onBits (fun x y => x ^^ y) rfl fun v w i _ => BitVec.getLsbD_xor
  · exact returns_onBits (fun x y => x && !y) rfl fun v w i hi => by simp [hi]
  · split_ifs with hr
    · exact fails_onIntegers rfl (if_pos hr)
    · have hrem : remainder = l.tmod r := by
        rw [Int.tmod_def, ← towardZero_intCast_div]
      rw [hrem]
      exact ⟨returns_onIntegers rfl (if_neg hr), remainder_bounds l hr⟩
  · split_ifs with hr
    · exact ⟨fails_onIntegers rfl (if_pos hr), fails_onIntegers rfl (if_pos hr)⟩
    · obtain ⟨hmin, hmax⟩ := a.operand_bounds
      rw [← Number.shiftLeft_eq, ← Number.shiftRight_eq hmin hmax]
      exact ⟨returns_onIntegers rfl (if_neg hr), returns_onIntegers rfl (if_neg hr)⟩

end Builtin

end FlatLisp
