import FlatLisp.Number.Layout
import FlatLisp.Proofs.NumeralGrammar
import FlatLisp.Proofs.Shortest

/-!
# Written numbers read back

The text of a decimal is a numeral in one of two forms, and in either one it denotes the value of
the decimal. The positional form adds zeros to its coefficient.

* `exists_scientific`, `exists_positional`: the two forms as numerals.
* `exists_layout`: the form that is chosen.
* `readNumber?_eq_some_iff`: **a text is read as the finite number nearest to its numeral.**
* `readNumber?_text`: **the text of a finite number without sign is a numeral of that number.**
-/

namespace FlatLisp

/-! ## The two forms -/

namespace Numeral

/-- Exponent form: a mantissa with one digit in front of its point, an `e`, a sign and at least
two digits. -/
structure Scientific (n : Numeral) : Prop where
  mantissa : n.whole.length = 1
  exponent : ∃ x, n.exponent = some x ∧ x.upper = false ∧ x.sign.isSome ∧ 2 ≤ x.digits.length

/-- Positional form: digits, perhaps with a point. -/
def Positional (n : Numeral) : Prop := n.exponent = none

theorem Scientific.not_positional {n : Numeral} (h : n.Scientific) : ¬n.Positional := by
  obtain ⟨x, hx, -⟩ := h.exponent
  simp [Positional, hx]

end Numeral

namespace Decimal

open Numeral

theorem exponentDigits_spec (n : Nat) :
    2 ≤ (exponentDigits n).length ∧ (∀ c ∈ exponentDigits n, c.isDigit = true) ∧
      ofDigits (exponentDigits n) = n := by
  have hne : 0 < (digits n).length := List.length_pos_iff.2 (digits_ne_nil n)
  unfold exponentDigits
  dsimp only
  split_ifs with hlen
  · refine ⟨Nat.succ_le_succ hne, ?_, (ofDigits_zeros_append 1 _).trans (ofDigits_digits n)⟩
    intro c hc
    rcases List.mem_cons.1 hc with rfl | hc
    · rfl
    · exact isDigit_of_mem_digits hc
  · exact ⟨not_lt.1 hlen, fun c hc => isDigit_of_mem_digits hc, ofDigits_digits n⟩

/-- The exponent that the exponent form writes. -/
theorem exists_writtenExponent (e : Int) :
    ∃ x : Exponent, x.text = 'e' :: (if e < 0 then '-' else '+') :: exponentDigits e.natAbs ∧
      x.value = e ∧ x.upper = false ∧ x.sign.isSome ∧ 2 ≤ x.digits.length := by
  obtain ⟨hlen, hdigit, hvalue⟩ := exponentDigits_spec e.natAbs
  have hne : exponentDigits e.natAbs ≠ [] := List.length_pos_iff.1 (by omega)
  refine ⟨⟨false, some (decide (e < 0)), exponentDigits e.natAbs, hne, hdigit⟩,
    ?_, ?_, rfl, rfl, hlen⟩
  · by_cases he : e < 0 <;> simp [Exponent.text, Exponent.mark, signText, he]
  · simp only [Exponent.value, Option.some.injEq, decide_eq_true_eq, hvalue]
    split_ifs <;> omega

/-- **The exponent form** of a decimal denotes its value. -/
theorem exists_scientific (d : Decimal) :
    ∃ n : Numeral, n.text = d.scientific ∧ n.value = d.value ∧ n.Scientific := by
  obtain ⟨x, hx, hvalue, hupper, hsign, hlen⟩ := exists_writtenExponent d.leading
  have hcoeff := ofDigits_digits d.coeff
  have hdigit := fun c => isDigit_of_mem_digits (n := d.coeff) (c := c)
  have hlead : d.leading = d.exp + (digits d.coeff).length - 1 := rfl
  unfold scientific
  dsimp only
  rw [← hx]
  cases hds : digits d.coeff with
  | nil => exact absurd hds (digits_ne_nil _)
  | cons c cs =>
    rw [hds] at hcoeff hdigit hlead
    have hvalue' : value ⟨ofDigits (c :: cs), x.value - cs.length⟩ = d.value := by
      congr 1
      rw [hcoeff, hvalue, hlead, List.length_cons]
      cases d
      congr 1
      push_cast
      ring
    cases cs with
    | nil =>
      -- a single digit stands without a point
      refine ⟨⟨[c], none, some x, by simp, hdigit⟩, rfl, ?_, rfl, x, rfl, hupper, hsign, hlen⟩
      rw [← decimal_value]
      exact hvalue'
    | cons c' cs =>
      refine ⟨⟨[c], some (c' :: cs), some x, by simp, hdigit⟩, rfl, ?_,
        rfl, x, rfl, hupper, hsign, hlen⟩
      rw [← decimal_value]
      exact hvalue'

/-- **The positional form** of a decimal denotes its value, with zeros in front of its point in
the coefficient. -/
theorem exists_positional (d : Decimal) :
    ∃ n : Numeral, n.text = d.positional ∧ n.value = d.value ∧ n.Positional := by
  have hcoeff := ofDigits_digits d.coeff
  have hdigit := fun c => isDigit_of_mem_digits (n := d.coeff) (c := c)
  have hne := digits_ne_nil d.coeff
  unfold positional
  dsimp only
  generalize digits d.coeff = ds at *
  have hzero : ∀ k, ∀ c ∈ List.replicate k '0', c.isDigit = true := fun k c hc => by
    rw [List.eq_of_mem_replicate hc]
    rfl
  split_ifs with hexp hplaces
  · have hwhole : ∀ c ∈ ds ++ List.replicate d.exp.toNat '0', c.isDigit = true := fun c hc =>
      (List.mem_append.1 hc).elim (hdigit c) (hzero _ c)
    refine ⟨⟨ds ++ List.replicate d.exp.toNat '0', none, none, by simp [hne], by simpa using hwhole⟩,
      ?_, ?_, rfl⟩
    · simp [Numeral.text, fractionText, exponentText]
    · have hzeros := value_zeros d.coeff d.exp.toNat 0
      rw [zero_add, Int.toNat_of_nonneg hexp, ← hcoeff, ← ofDigits_append_zeros, hcoeff] at hzeros
      rw [← decimal_value]
      simpa [Numeral.decimal, places, exponentValue] using hzeros
  · -- the point stands between digits
    have hsplit := List.take_append_drop (ds.length - (-d.exp).toNat) ds
    have hlen : ((ds.drop (ds.length - (-d.exp).toNat)).length : Int) = -d.exp := by
      rw [List.length_drop]
      omega
    generalize ds.take (ds.length - (-d.exp).toNat) = whole at *
    generalize ds.drop (ds.length - (-d.exp).toNat) = fraction at *
    subst hsplit
    have hne' : whole ≠ [] := by
      rintro rfl
      rw [List.nil_append] at hplaces
      omega
    refine ⟨⟨whole, some fraction, none, hne', hdigit⟩, ?_, ?_, rfl⟩
    · simp [Numeral.text, fractionText, exponentText]
    · rw [← decimal_value]
      simp [Numeral.decimal, places, exponentValue, hcoeff, hlen]
  · -- zeros stand behind the point
    have hlen : ((List.replicate ((-d.exp).toNat - ds.length) '0' ++ ds).length : Int) = -d.exp := by
      rw [List.length_append, List.length_replicate]
      omega
    have hfraction : ∀ c ∈ List.replicate ((-d.exp).toNat - ds.length) '0' ++ ds, c.isDigit = true :=
      fun c hc => (List.mem_append.1 hc).elim (hzero _ c) (hdigit c)
    have hvalue : ofDigits ('0' :: (List.replicate ((-d.exp).toNat - ds.length) '0' ++ ds)) =
        d.coeff := (ofDigits_zeros_append ((-d.exp).toNat - ds.length + 1) ds).trans hcoeff
    generalize List.replicate ((-d.exp).toNat - ds.length) '0' ++ ds = fraction at *
    refine ⟨⟨['0'], some fraction, none, by simp, fun c hc => ?_⟩, ?_, ?_, rfl⟩
    · exact (List.mem_cons.1 hc).elim (fun h => h ▸ rfl) (hfraction c)
    · simp [Numeral.text, fractionText, exponentText]
    · rw [← decimal_value]
      simp [Numeral.decimal, places, exponentValue, hvalue, hlen]

/-- **A written decimal denotes its value**, in the form that its leading exponent selects. -/
theorem exists_layout (d : Decimal) :
    ∃ n : Numeral, n.text = d.layout ∧ n.value = d.value ∧
      if d.leading < -4 ∨ 6 ≤ d.leading then n.Scientific else n.Positional := by
  unfold layout
  split_ifs
  · exact d.exists_scientific
  · exact d.exists_positional

/-! ## Numerals are runs -/

/-- A character that may stand in a numeral. -/
def IsNumeralChar (c : Char) : Prop := c.isDigit = true ∨ c ∈ ['.', 'e', 'E', '+', '-']

theorem IsNumeralChar.not_delimiter {c : Char} (h : IsNumeralChar c) : isDelimiter c = false := by
  by_contra hd
  simp only [isDelimiter, isSeparator, Bool.not_eq_false, Bool.or_eq_true, decide_eq_true_eq] at hd
  rcases hd with (rfl | rfl) | ((rfl | rfl) | rfl) | rfl <;> revert h <;> simp [IsNumeralChar]

theorem IsNumeralChar.ne_quote {c : Char} (h : IsNumeralChar c) : c ≠ '"' := by
  rintro rfl
  revert h
  simp [IsNumeralChar]

theorem IsNumeralChar.ne_backslash {c : Char} (h : IsNumeralChar c) : c ≠ '\\' := by
  rintro rfl
  revert h
  simp [IsNumeralChar]

theorem numeralChar_of_mem_exponent {x : Exponent} {c : Char} (h : c ∈ x.text) : IsNumeralChar c := by
  rcases List.mem_cons.1 h with rfl | h
  · unfold Exponent.mark
    split <;> exact .inr (by simp)
  · rcases List.mem_append.1 h with h | h
    · unfold signText at h
      split at h
      · exact absurd h (by simp)
      · exact .inr (by simp [List.mem_singleton.1 h])
      · exact .inr (by simp [List.mem_singleton.1 h])
    · exact .inl (x.isDigit c h)

theorem numeralChar_of_mem {n : Numeral} {c : Char} (h : c ∈ n.text) : IsNumeralChar c := by
  obtain ⟨whole, fraction, exponent, hne, hdigit⟩ := n
  rcases List.mem_append.1 h with h | h
  · exact .inl (hdigit c (List.mem_append_left _ h))
  · rcases List.mem_append.1 h with h | h
    · cases fraction with
      | none => exact absurd h (by simp [fractionText])
      | some ds =>
        rcases List.mem_cons.1 h with rfl | h
        · exact .inr (by simp)
        · exact .inl (hdigit c (List.mem_append_right _ h))
    · cases exponent with
      | none => exact absurd h (by simp [exponentText])
      | some x => exact numeralChar_of_mem_exponent h

/-- A numeral is a run that starts with a digit. -/
theorem run_text (n : Numeral) : Run n.text ∧ Token.isNumeral n.text = true := by
  obtain ⟨c, cs, hcs⟩ := List.exists_cons_of_ne_nil n.whole_ne
  have hc : c.isDigit = true := n.isDigit c (List.mem_append_left _ (by simp [hcs]))
  refine ⟨⟨by simp [Numeral.text, n.whole_ne], fun x hx => (numeralChar_of_mem hx).not_delimiter⟩, ?_⟩
  simpa [Token.isNumeral, Numeral.text, hcs] using hc

theorem run_of_read? {cs : List Char} {d : Decimal} (h : read? cs = some d) :
    Run cs ∧ Token.isNumeral cs = true := by
  obtain ⟨n, rfl, -⟩ := read?_eq_some_iff.1 h
  exact run_text n

end Decimal

/-! ## Numbers -/

namespace Number

section Rank

variable {negative : Bool} {r : Nat}

theorem word_ofRank (h : r < 2 ^ 63) :
    (ofRank negative r).word = if negative then 2 ^ 63 + r else r := by
  unfold word ofRank
  rw [UInt64.toNat_ofNat']
  split_ifs <;> omega

theorem rank_ofRank (h : r < 2 ^ 63) : (ofRank negative r).rank = r := by
  rw [rank, word_ofRank h]
  split_ifs <;> omega

theorem negative_ofRank (h : r < 2 ^ 63) : (ofRank negative r).negative = negative := by
  rw [Number.negative, word_ofRank h]
  cases negative <;> simp
  omega

/-- A number is its sign and its rank. -/
theorem ofRank_rank (x : Number) : ofRank x.negative x.rank = x := by
  have hlt : x.word < 2 ^ 64 := x.bits.toNat_lt
  have hword : (ofRank x.negative x.rank).word = x.word := by
    have hrank : x.rank < 2 ^ 63 := Nat.mod_lt _ (by decide)
    rw [word_ofRank hrank, Number.negative, rank]
    split_ifs with hneg <;> simp at hneg <;> omega
  exact congrArg Number.mk (UInt64.toNat_inj.1 hword)

end Rank

theorem infinityRank_lt : infinityRank < 2 ^ 63 := by decide

/-- **`x` is the double nearest to the number with the sign and the absolute value `q`**, ties to
even. -/
def Rounds (negative : Bool) (q : ℚ) (x : Number) : Prop := x.negative = negative ∧ Nearest q x.rank

theorem Rounds.unique {negative : Bool} {q : ℚ} {x y : Number} (hx : Rounds negative q x)
    (hy : Rounds negative q y) : x = y := by
  rw [← x.ofRank_rank, ← y.ofRank_rank, hx.1, hy.1, hx.2.unique hy.2]

/-- **A decimal rounds to the nearest double.** -/
theorem rounds_toNumber (d : Decimal) (negative : Bool) :
    Rounds negative d.value (d.toNumber negative) := by
  have hlt := d.nearestRank_le.trans_lt infinityRank_lt
  refine ⟨negative_ofRank hlt, ?_⟩
  rw [Decimal.toNumber, rank_ofRank hlt]
  exact d.nearestRank_nearest

/-- The number zero, as it is written. -/
def zeroNumeral : Numeral := ⟨['0'], none, none, by decide, by simp⟩

theorem nearest_zeroNumeral : Nearest zeroNumeral.value 0 := by
  rw [← zeroNumeral.decimal_value]
  exact Decimal.nearest_zero_of_coeff (by decide)

theorem toList_text {x : Number} (hf : x.isFinite = true) :
    x.text.toList = (if x.negative then ['-'] else []) ++
      if x.rank = 0 then ['0'] else (shortest x.rank).layout := by
  have hfin : x.rank < infinityRank := of_decide_eq_true hf
  have hnan : x.isNaN = false := decide_eq_false hfin.le.not_gt
  have hinf : x.isInfinite = false := decide_eq_false hfin.ne
  simp only [text, hnan, hinf, Bool.false_eq_true, if_false, String.toList_ofList]
  cases x.negative <;> rfl

/-- **The text of a finite number is its sign and a numeral that rounds to it.** The numeral of
another number than zero is its shortest decimal. -/
theorem exists_text {x : Number} (hf : x.isFinite = true) :
    ∃ n : Numeral, x.text.toList = (if x.negative then ['-'] else []) ++ n.text ∧
      Rounds x.negative n.value x ∧
      (x.rank ≠ 0 → n.value = (shortest x.rank).value ∧
        if (shortest x.rank).leading < -4 ∨ 6 ≤ (shortest x.rank).leading then n.Scientific
        else n.Positional) := by
  have hfin : x.rank < infinityRank := of_decide_eq_true hf
  rw [toList_text hf]
  by_cases hzero : x.rank = 0
  · refine ⟨zeroNumeral, by rw [if_pos hzero]; rfl, ⟨rfl, ?_⟩, fun hne => absurd hzero hne⟩
    rw [hzero]
    exact nearest_zeroNumeral
  · obtain ⟨n, htext, hvalue, hform⟩ := (shortest x.rank).exists_layout
    have hnearest := shortest_nearest (Nat.pos_of_ne_zero hzero) hfin
    exact ⟨n, by rw [if_neg hzero, htext], ⟨rfl, hvalue ▸ hnearest⟩, fun _ => ⟨hvalue, hform⟩⟩

theorem numeralChar_of_mem_text {x : Number} (hf : x.isFinite = true) {c : Char}
    (h : c ∈ x.text.toList) : Decimal.IsNumeralChar c := by
  obtain ⟨n, htext, -⟩ := exists_text hf
  rw [htext, List.mem_append] at h
  rcases h with h | h
  · have hsign : ∀ c ∈ if x.negative then ['-'] else [], c = '-' := by cases x.negative <;> simp
    rw [hsign c h]
    exact .inr (by simp)
  · exact Decimal.numeralChar_of_mem h

end Number

namespace Token

open Number

/-- **A text is read as the finite number nearest to its numeral.** -/
theorem readNumber?_eq_some_iff {cs : List Char} {x : Number} :
    readNumber? cs = some x ↔
      x.isFinite = true ∧ ∃ n : Numeral, n.text = cs ∧ Rounds false n.value x := by
  constructor
  · intro h
    obtain ⟨h, hf⟩ := Option.filter_eq_some_iff.1 h
    obtain ⟨d, hd, rfl⟩ := Option.map_eq_some_iff.1 h
    obtain ⟨n, hn, rfl⟩ := Decimal.read?_eq_some_iff.1 hd
    exact ⟨hf, n, hn, n.decimal_value ▸ rounds_toNumber n.decimal false⟩
  · rintro ⟨hf, n, rfl, hx⟩
    have hn := rounds_toNumber n.decimal false
    rw [n.decimal_value] at hn
    rw [readNumber?, Decimal.read?_text, Option.map_some, hn.unique hx, Option.filter_some, if_pos hf]

/-- Numerals denote finite numbers without sign. -/
theorem finite_of_readNumber? {cs : List Char} {x : Number} (h : readNumber? cs = some x) :
    x.isFinite = true ∧ x.negative = false := by
  obtain ⟨hf, _, _, hx⟩ := readNumber?_eq_some_iff.1 h
  exact ⟨hf, hx.1⟩

/-- A numeral has no quote in it. -/
theorem quote_notMem_of_readNumber? {cs : List Char} {x : Number} (h : readNumber? cs = some x) :
    '"' ∉ cs := by
  obtain ⟨_, n, rfl, _⟩ := readNumber?_eq_some_iff.1 h
  exact fun hq => (Decimal.numeralChar_of_mem hq).ne_quote rfl

/-- **The text of a finite number without sign reads back.** -/
theorem readNumber?_text {x : Number} (hf : x.isFinite = true) (hs : x.negative = false) :
    readNumber? x.text.toList = some x := by
  obtain ⟨n, htext, hx, -⟩ := exists_text hf
  rw [hs] at htext hx
  exact readNumber?_eq_some_iff.2 ⟨hf, n, htext.symm, hx⟩

end Token

end FlatLisp
