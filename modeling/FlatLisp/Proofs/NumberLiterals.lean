import FlatLisp.Proofs.Numerals

/-!
# Numbers in program text

A run that starts with a digit is a number if all of it is a numeral and the nearest double is
finite; no part of it is taken by itself (`numeral_token`). The text of a number is such a
numeral behind its sign, with as few digits as a decimal that rounds to the number can have
(`text_shortest`), so the lexer reads it back.

Nothing is said about how the rounding is found: both statements are about the exact value of
the written decimal (`Numeral.value`) and the double nearest to it (`Number.Rounds`).
-/

namespace FlatLisp

open Number

/-! ## Literals -/

/-- A run that starts with a digit is one lexeme, a number or broken. -/
theorem tokenize_numeral {r : String} (hrun : Run r.toList)
    (hdigit : Token.isNumeral r.toList = true) :
    Lexeme.cut 1 r.toList = .ok [(1, .word r)] ∧
      tokenize r = match Token.readNumber? r.toList with
        | some x => .ok [⟨.number x, r, 1⟩]
        | none => .error ⟨1, .badNumeral r⟩ := by
  have hquote : r.toList.head? ≠ some '"' := fun hq => by
    rw [Token.isNumeral, hq] at hdigit
    exact absurd hdigit (by decide)
  have hcut : Lexeme.cut 1 r.toList = .ok [(1, .word r)] := by
    obtain ⟨c, cs, hcs⟩ := List.exists_cons_of_ne_nil hrun.1
    have hspells := Lexeme.Spells.word _ hrun hquote
    rw [String.ofList_toList] at hspells
    obtain ⟨c', cs', hcs', hc⟩ := hspells.cons
    obtain ⟨rfl, rfl⟩ := List.cons.inj (hcs'.symm.trans hcs)
    have hnext : Lexeme.next c' cs' = .ok (.word r, []) :=
      (Lexeme.next_eq_ok_iff hc).2 ⟨_, hspells, by simp [hcs], fun _ => .nil⟩
    rw [hcs, Lexeme.cut_lexeme hc hnext, Lexeme.cut]
    rfl
  refine ⟨hcut, ?_⟩
  simp only [tokenize, hcut, Token.ofLexemes, Token.ofLexeme, Token.ofWord, hdigit, if_true]
  cases Token.readNumber? r.toList <;> rfl

/-- A numeral has exactly one nearest double. -/
theorem Numeral.rounds_iff {n : Numeral} {negative : Bool} {x : Number} :
    Rounds negative n.value x ↔ x = n.decimal.toNumber negative := by
  have hn := rounds_toNumber n.decimal negative
  rw [n.decimal_value] at hn
  exact ⟨fun hx => hx.unique hn, fun hx => hx ▸ hn⟩

/-- **A text without delimiters that starts with a digit is the double nearest to its numeral**,
if it is a numeral and that double is finite. In every other case it is broken as a whole. -/
theorem numeral_token {r : String} (hdigit : ∃ c ∈ r.toList.head?, c.isDigit = true)
    (hrun : ∀ c ∈ r.toList, isDelimiter c = false) :
    (∀ n : Numeral, n.text = r.toList → ∃ x, (∀ y, Rounds false n.value y ↔ y = x) ∧
      tokenize r = if x.isFinite then .ok [⟨.number x, r, 1⟩] else .error ⟨1, .badNumeral r⟩) ∧
    ((¬∃ n : Numeral, n.text = r.toList) → tokenize r = .error ⟨1, .badNumeral r⟩) ∧
    Lexeme.cut 1 r.toList = .ok [(1, .word r)] := by
  obtain ⟨c, hc, hdigit⟩ := hdigit
  have hne : r.toList ≠ [] := by
    rintro hnil
    simp [hnil] at hc
  have hnumeral : Token.isNumeral r.toList = true := by
    rw [Token.isNumeral, Option.mem_def.1 hc]
    exact hdigit
  obtain ⟨hcut, htokens⟩ := tokenize_numeral ⟨hne, hrun⟩ hnumeral
  rw [htokens]
  refine ⟨fun n hn => ?_, fun hnone => ?_, hcut⟩
  · refine ⟨n.decimal.toNumber false, fun y => Numeral.rounds_iff, ?_⟩
    split_ifs with hf
    · rw [Token.readNumber?_eq_some_iff.2 ⟨hf, n, hn, Numeral.rounds_iff.2 rfl⟩]
    · -- a number that is read would be this one
      have hnone : Token.readNumber? r.toList = none := by
        refine Option.eq_none_iff_forall_ne_some.2 fun y hread => hf ?_
        obtain ⟨hy, m, hm, hround⟩ := Token.readNumber?_eq_some_iff.1 hread
        rw [Numeral.value_eq_of_text (hm.trans hn.symm)] at hround
        exact Numeral.rounds_iff.1 hround ▸ hy
      rw [hnone]
  · have hread : Token.readNumber? r.toList = none := by
      refine Option.eq_none_iff_forall_ne_some.2 fun y hread => hnone ?_
      obtain ⟨-, m, hm, -⟩ := Token.readNumber?_eq_some_iff.1 hread
      exact ⟨m, hm⟩
    rw [hread]

/-- A quarter, a numeral that is too large, and a word that is no numeral. -/
theorem numeral_token_quarter :
    tokenize "2.5e-1" = .ok [⟨.number ⟨0x3FD0000000000000⟩, "2.5e-1", 1⟩] ∧
      tokenize "9E308" = .error ⟨1, .badNumeral "9E308"⟩ ∧
      tokenize "1.e" = .error ⟨1, .badNumeral "1.e"⟩ := by
  refine ⟨?_, ?_, ?_⟩
  · obtain ⟨hread, -⟩ := numeral_token (r := "2.5e-1") ⟨'2', rfl, rfl⟩
      (by simp [isDelimiter, isSeparator])
    let n : Numeral :=
      ⟨['2'], some ['5'], some ⟨false, some true, ['1'], by decide, by simp⟩, by decide, by simp⟩
    obtain ⟨x, hx, htokens⟩ := hread n rfl
    rw [htokens, ← (hx _).1 (Numeral.rounds_iff.2 rfl)]
    decide +kernel
  · obtain ⟨hread, -⟩ := numeral_token (r := "9E308") ⟨'9', rfl, rfl⟩
      (by simp [isDelimiter, isSeparator])
    let n : Numeral :=
      ⟨['9'], none, some ⟨true, none, ['3', '0', '8'], by decide, by simp⟩, by decide, by simp⟩
    obtain ⟨x, hx, htokens⟩ := hread n rfl
    rw [htokens, ← (hx _).1 (Numeral.rounds_iff.2 rfl)]
    decide +kernel
  · refine (numeral_token (r := "1.e") ⟨'1', rfl, rfl⟩
      (by simp [isDelimiter, isSeparator])).2.1 ?_
    rintro ⟨n, hn⟩
    have hnone : Decimal.read? "1.e".toList = none := by decide +kernel
    rw [← hn, Decimal.read?_text] at hnone
    exact absurd hnone (by simp)

/-! ## Texts of numbers -/

/-- **`d` is a shortest decimal of `x`**: it rounds to `x`, and no decimal with fewer digits
does. -/
structure Number.IsShortest (x : Number) (d : Decimal) : Prop where
  rounds : Rounds x.negative d.value x
  digits_le : ∀ e : Decimal, Rounds x.negative e.value x →
    (Decimal.digits d.coeff).length ≤ (Decimal.digits e.coeff).length

/-- **`n` writes `d`**, which is `c.ccc * 10 ^ d.leading`: in exponent form below `-4` and from `6`
on, else in positional form. The other form would denote the same. -/
structure Numeral.Writes (n : Numeral) (d : Decimal) : Prop where
  value : n.value = d.value
  low : 10 ^ d.leading ≤ d.value
  high : d.value < 10 ^ (d.leading + 1)
  scientific : n.Scientific ↔ d.leading < -4 ∨ 6 ≤ d.leading
  positional : n.Positional ↔ ¬(d.leading < -4 ∨ 6 ≤ d.leading)
  layouts : ∃ a b : Numeral, a.text = d.scientific ∧ a.Scientific ∧ b.text = d.positional ∧
    b.Positional ∧ a.value = b.value

theorem Number.isShortest_shortest {x : Number} (hf : x.isFinite = true) (hne : x.rank ≠ 0) :
    x.IsShortest (shortest x.rank) := by
  have hpos := Nat.pos_of_ne_zero hne
  have hfin : x.rank < infinityRank := of_decide_eq_true hf
  exact ⟨⟨rfl, shortest_nearest hpos hfin⟩, fun _ he => shortest_digits_le hpos hfin he.2⟩

/-- A numeral in the form of `Decimal.layout` writes its decimal. -/
theorem Numeral.writes_of_layout {n : Numeral} {d : Decimal} (hpos : 0 < d.coeff)
    (hvalue : n.value = d.value)
    (hform : if d.leading < -4 ∨ 6 ≤ d.leading then n.Scientific else n.Positional) : n.Writes d := by
  obtain ⟨a, hatext, havalue, ha⟩ := d.exists_scientific
  obtain ⟨b, hbtext, hbvalue, hb⟩ := d.exists_positional
  refine ⟨hvalue, Decimal.pow_le_value hpos, d.value_lt_pow, ?_, ?_,
    a, b, hatext, ha, hbtext, hb, havalue.trans hbvalue.symm⟩
  · split_ifs at hform with hlead
    · exact ⟨fun _ => hlead, fun _ => hform⟩
    · exact ⟨fun h => absurd hform h.not_positional, fun h => absurd h hlead⟩
  · split_ifs at hform with hlead
    · exact ⟨fun h => absurd h hform.not_positional, fun h => absurd hlead h⟩
    · exact ⟨fun _ => hlead, fun _ => hform⟩

/-- **The text of a finite number loses nothing**: it is the sign of the number and a numeral that
rounds to it and to no other number. The numeral of another number than zero writes a shortest
decimal. Without a sign the lexer reads the number back. -/
theorem text_shortest {x : Number} (hf : x.isFinite = true) :
    (∃ n : Numeral, x.text.toList = (if x.negative then ['-'] else []) ++ n.text ∧
      (∀ y, Rounds x.negative n.value y ↔ y = x) ∧
      (x.rank ≠ 0 → ∃ d, x.IsShortest d ∧ n.Writes d)) ∧
    (x.negative = false → tokenize x.text = .ok [⟨.number x, x.text, 1⟩]) := by
  constructor
  · obtain ⟨n, htext, hround, hform⟩ := exists_text hf
    refine ⟨n, htext, fun y => ⟨fun hy => hy.unique hround, fun hy => hy ▸ hround⟩, fun hne => ?_⟩
    obtain ⟨hvalue, hform⟩ := hform hne
    have hshort := isShortest_shortest hf hne
    have hcoeff := Decimal.coeff_pos_of_nearest (Nat.pos_of_ne_zero hne) hshort.rounds.2
    exact ⟨shortest x.rank, hshort, Numeral.writes_of_layout hcoeff hvalue hform⟩
  · intro hs
    have hread := Token.readNumber?_text hf hs
    obtain ⟨-, n, hn, -⟩ := Token.readNumber?_eq_some_iff.1 hread
    obtain ⟨hrun, hdigit⟩ := Decimal.run_text n
    rw [hn] at hrun hdigit
    rw [(tokenize_numeral hrun hdigit).2, hread]

/-- The text of the greatest number below zero. -/
theorem text_shortest_subnormal :
    (⟨0x8000000000000001⟩ : Number).isFinite = true ∧
      ∃ n : Numeral, (⟨0x8000000000000001⟩ : Number).text.toList = '-' :: n.text ∧
        ∀ y, Rounds true n.value y ↔ y = ⟨0x8000000000000001⟩ := by
  have hfinite : (⟨0x8000000000000001⟩ : Number).isFinite = true := by decide +kernel
  obtain ⟨⟨n, htext, hround, -⟩, -⟩ := text_shortest hfinite
  have hsign : (⟨0x8000000000000001⟩ : Number).negative = true := by decide +kernel
  rw [hsign] at htext hround
  exact ⟨hfinite, n, htext, hround⟩

end FlatLisp
