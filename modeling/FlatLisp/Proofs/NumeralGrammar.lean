import FlatLisp.Proofs.Decimals
import FlatLisp.Proofs.Lexing

/-!
# The grammar of numerals

A numeral is `digits [. digits*] [(e|E) [+|-] digits]`. `Numeral` holds its parts, with the
digits that each part must have; `Numeral.text` is how they are written and `Numeral.value` what
they denote: the whole part and the fraction, times a power of ten.

* `Decimal.read?_text`: a numeral reads as a decimal of its value.
* `Decimal.read?_eq_some_iff`: **what reads as a decimal is a numeral**, and nothing else.
-/

namespace FlatLisp

namespace Numeral

/-- An exponent: `(e|E) [+|-] digits`. -/
structure Exponent where
  upper : Bool
  /-- The sign, if one is written: whether it is a minus. -/
  sign : Option Bool
  digits : List Char
  digits_ne : digits ≠ []
  isDigit : ∀ c ∈ digits, c.isDigit = true

/-- A sign as it is written, if it is. -/
def signText : Option Bool → List Char
  | none => []
  | some true => ['-']
  | some false => ['+']

namespace Exponent

def mark (x : Exponent) : Char := if x.upper then 'E' else 'e'

def text (x : Exponent) : List Char := x.mark :: (signText x.sign ++ x.digits)

def value (x : Exponent) : Int :=
  if x.sign = some true then -(Decimal.ofDigits x.digits : Int) else Decimal.ofDigits x.digits

end Exponent

def exponentText : Option Exponent → List Char
  | none => []
  | some x => x.text

def exponentValue : Option Exponent → Int
  | none => 0
  | some x => x.value

def fractionText : Option (List Char) → List Char
  | none => []
  | some ds => '.' :: ds

end Numeral

/-- A numeral: `digits [. digits*] [(e|E) [+|-] digits]`. -/
structure Numeral where
  whole : List Char
  /-- The digits behind the point, if there is one. -/
  fraction : Option (List Char)
  exponent : Option Numeral.Exponent
  whole_ne : whole ≠ []
  isDigit : ∀ c ∈ whole ++ fraction.getD [], c.isDigit = true

namespace Numeral

/-- The digits behind the point; none if there is no point. -/
def places (n : Numeral) : List Char := n.fraction.getD []

/-- The numeral as it is written. -/
def text (n : Numeral) : List Char := n.whole ++ (fractionText n.fraction ++ exponentText n.exponent)

/-- **The number that a numeral denotes.** -/
def value (n : Numeral) : ℚ :=
  (Decimal.ofDigits n.whole + Decimal.ofDigits n.places / 10 ^ n.places.length) *
    10 ^ exponentValue n.exponent

/-- The decimal with all digits of the numeral in its coefficient. -/
def decimal (n : Numeral) : Decimal :=
  ⟨Decimal.ofDigits (n.whole ++ n.places), exponentValue n.exponent - n.places.length⟩

end Numeral

namespace Decimal

/-! ## Digits -/

theorem isDigit_of_mem_digits {n : Nat} {c : Char} (h : c ∈ digits n) : c.isDigit = true :=
  Nat.isDigit_of_mem_toDigits (by decide) (by decide) h

theorem digits_ne_nil (n : Nat) : digits n ≠ [] := Nat.toDigits_ne_nil

theorem ofDigits_eq (cs : List Char) : ofDigits cs = Nat.ofDigitChars 10 cs 0 := rfl

theorem ofDigits_digits (n : Nat) : ofDigits (digits n) = n := Nat.ofDigitChars_ten_toDigits

theorem ofDigits_append (cs ds : List Char) :
    ofDigits (cs ++ ds) = ofDigits cs * 10 ^ ds.length + ofDigits ds := by
  rw [ofDigits_eq, ofDigits_eq, ofDigits_eq, Nat.ofDigitChars_append,
    Nat.ofDigitChars_eq_ofDigitChars_zero, Nat.mul_comm]

/-- Leading zeros change nothing. -/
theorem ofDigits_zeros_append (k : Nat) (cs : List Char) :
    ofDigits (List.replicate k '0' ++ cs) = ofDigits cs := by
  simp [ofDigits_eq, Nat.ofDigitChars_append]

theorem ofDigits_append_zeros (cs : List Char) (k : Nat) :
    ofDigits (cs ++ List.replicate k '0') = ofDigits cs * 10 ^ k := by
  simp [ofDigits_eq, Nat.ofDigitChars_append, Nat.mul_comm]

end Decimal

namespace Numeral

open Decimal

/-- The fraction counts behind the whole part. -/
theorem decimal_value (n : Numeral) : n.decimal.value = n.value := by
  unfold Decimal.value decimal value
  dsimp only
  rw [ofDigits_append, zpow_sub₀ (by norm_num), zpow_natCast]
  push_cast
  field_simp

end Numeral

namespace Decimal

open Numeral

/-! ## Exponents -/

theorem readSign_signText (sign : Option Bool) {ds : List Char} (hne : ds ≠ [])
    (hds : ∀ c ∈ ds, c.isDigit = true) :
    readSign (signText sign ++ ds) = (decide (sign = some true), ds) := by
  rcases sign with _ | _ | _
  · -- a digit is no sign
    obtain ⟨c, cs, rfl⟩ := List.exists_cons_of_ne_nil hne
    have hc := hds c (by simp)
    rw [signText, List.nil_append]
    unfold readSign
    split
    · exact absurd hc (by simp_all)
    · exact absurd hc (by simp_all)
    · rfl
  · rfl
  · rfl

theorem exists_sign (cs : List Char) :
    ∃ sign, signText sign ++ (readSign cs).2 = cs ∧ (readSign cs).1 = decide (sign = some true) := by
  unfold readSign
  split
  · exact ⟨some true, rfl, rfl⟩
  · exact ⟨some false, rfl, rfl⟩
  · exact ⟨none, rfl, rfl⟩

theorem readExponent?_text (x : Option Exponent) :
    readExponent? (exponentText x) = some (exponentValue x) := by
  cases x with
  | none => rfl
  | some x =>
    have hsign := readSign_signText x.sign x.digits_ne x.isDigit
    have hall : x.digits.all Char.isDigit = true := List.all_eq_true.2 x.isDigit
    have hmark : x.mark = 'e' ∨ x.mark = 'E' := by
      unfold Exponent.mark
      split <;> simp
    simp [exponentText, exponentValue, Exponent.text, readExponent?, hsign, hmark, x.digits_ne, hall,
      Exponent.value]

theorem exists_exponent {cs : List Char} {e : Int} (h : readExponent? cs = some e) :
    ∃ x, exponentText x = cs ∧ exponentValue x = e := by
  cases cs with
  | nil => exact ⟨none, rfl, Option.some.inj h⟩
  | cons mark cs =>
    obtain ⟨sign, hcs, hsign⟩ := exists_sign cs
    unfold readExponent? at h
    dsimp only at h
    split at h
    · next hform =>
      obtain ⟨hmark, hne, hall⟩ := hform
      refine ⟨some ⟨decide (mark = 'E'), sign, (readSign cs).2, hne, List.all_eq_true.1 hall⟩, ?_, ?_⟩
      · rcases hmark with rfl | rfl <;> simp [exponentText, Exponent.text, Exponent.mark, hcs]
      · rw [hsign] at h
        simpa [exponentValue, Exponent.value] using h
    · exact absurd h (by simp)

/-- An exponent starts with its mark. -/
theorem head_exponentText (x : Option Exponent) :
    ∀ c ∈ (exponentText x).head?, c.isDigit = false ∧ c ≠ '.' := by
  cases x with
  | none => simp [exponentText]
  | some x =>
    intro c hc
    obtain rfl : x.mark = c := Option.some.inj hc
    unfold Exponent.mark
    split <;> decide

/-! ## Numerals -/

section Reading

variable {whole fraction rest : List Char} {e : Int}

theorem read?_integer (hne : whole ≠ []) (hwhole : ∀ c ∈ whole, c.isDigit = true)
    (hrest : ∀ c ∈ rest.head?, c.isDigit = false ∧ c ≠ '.') (he : readExponent? rest = some e) :
    read? (whole ++ rest) = some ⟨ofDigits whole, e⟩ := by
  obtain ⟨htake, hdrop⟩ := span_append hwhole fun c hc => (hrest c hc).1
  have hpoint : readFraction rest = ([], rest) := by
    unfold readFraction
    split
    · exact absurd rfl (hrest '.' rfl).2
    · rfl
  simp [read?, htake, hdrop, hpoint, hne, he]

theorem read?_fraction (hne : whole ≠ []) (hdigit : ∀ c ∈ whole ++ fraction, c.isDigit = true)
    (hrest : ∀ c ∈ rest.head?, c.isDigit = false) (he : readExponent? rest = some e) :
    read? (whole ++ '.' :: (fraction ++ rest)) =
      some ⟨ofDigits (whole ++ fraction), e - fraction.length⟩ := by
  have hwhole : ∀ c ∈ whole, c.isDigit = true := fun c hc => hdigit c (List.mem_append_left _ hc)
  have hfraction : ∀ c ∈ fraction, c.isDigit = true := fun c hc =>
    hdigit c (List.mem_append_right _ hc)
  have hpoint : ∀ c ∈ ('.' :: (fraction ++ rest)).head?, c.isDigit = false := by simp
  obtain ⟨htake, hdrop⟩ := span_append hwhole hpoint
  obtain ⟨htake', hdrop'⟩ := span_append hfraction hrest
  simp [read?, readFraction, htake, hdrop, htake', hdrop', hne, he]

end Reading

/-- **A numeral reads as a decimal of its value.** -/
theorem read?_text (n : Numeral) : read? n.text = some n.decimal := by
  obtain ⟨whole, fraction, exponent, hne, hdigit⟩ := n
  have he := readExponent?_text exponent
  have hhead := head_exponentText exponent
  cases fraction with
  | none =>
    have h := read?_integer hne (fun c hc => hdigit c (List.mem_append_left _ hc)) hhead he
    simpa [Numeral.text, decimal, places, fractionText] using h
  | some fraction =>
    have h := read?_fraction hne hdigit (fun c hc => (hhead c hc).1) he
    simpa [Numeral.text, decimal, places, fractionText] using h

theorem exists_fraction (cs : List Char) :
    ∃ fraction : Option (List Char), fractionText fraction ++ (readFraction cs).2 = cs ∧
      (readFraction cs).1 = fraction.getD [] ∧ ∀ c ∈ fraction.getD [], c.isDigit = true := by
  unfold readFraction
  split
  · next cs =>
    refine ⟨some (cs.takeWhile Char.isDigit), ?_, rfl, fun c hc => List.mem_takeWhile_imp hc⟩
    rw [fractionText, List.cons_append, List.takeWhile_append_dropWhile]
  · exact ⟨none, rfl, rfl, by simp⟩

/-- **What reads as a decimal is a numeral.** -/
theorem read?_eq_some_iff {cs : List Char} {d : Decimal} :
    read? cs = some d ↔ ∃ n : Numeral, n.text = cs ∧ n.decimal = d := by
  constructor
  · intro h
    obtain ⟨fraction, hrest, hfraction, hdigit⟩ := exists_fraction (cs.dropWhile Char.isDigit)
    unfold read? at h
    dsimp only at h
    split at h
    · exact absurd h (by simp)
    · next hne =>
      obtain ⟨e, he, rfl⟩ := Option.map_eq_some_iff.1 h
      obtain ⟨exponent, htext, rfl⟩ := exists_exponent he
      have hwhole : ∀ c ∈ cs.takeWhile Char.isDigit, c.isDigit = true := fun c hc =>
        List.mem_takeWhile_imp hc
      refine ⟨⟨cs.takeWhile Char.isDigit, fraction, exponent, hne, fun c hc =>
        (List.mem_append.1 hc).elim (hwhole c) (hdigit c)⟩, ?_, ?_⟩
      · rw [Numeral.text, htext, hrest, List.takeWhile_append_dropWhile]
      · rw [decimal, places, hfraction]
  · rintro ⟨n, rfl, rfl⟩
    exact read?_text n

end Decimal

/-- A text is the numeral of at most one number. -/
theorem Numeral.value_eq_of_text {m n : Numeral} (h : m.text = n.text) : m.value = n.value := by
  have hm := Decimal.read?_text m
  rw [h, Decimal.read?_text, Option.some.injEq] at hm
  rw [← m.decimal_value, ← n.decimal_value, hm]

end FlatLisp
