import FlatLisp.Proofs.Division

/-!
# What a string literal denotes

A text is the inside of a literal in one way at most, since a piece is not the start of another
one (`Piece.append_inj`). What is not made of pieces up to a quote breaks somewhere: behind some
pieces there is the end of the line, or a backslash before what is no escape (`Breaks`). The
fault is that of the place, and tells what stands there.

* `pieces_unique`: pieces and the quote behind them are determined by their text.
* `readEscape_eq_error_iff`: what is refused as an escape, and why.
* `decode_eq_error_iff`: **a literal is refused exactly when it breaks behind some pieces**, or
  when the bytes of its pieces are no UTF-8.
* `literal_exact`: **pieces between quotes denote their bytes**, other literals are refused
  wherever they stand.
-/

namespace FlatLisp

namespace Quoted

variable {p q : Piece} {c : Char} {cs rest rest' : List Char}

/-! ## Pieces from their text -/

theorem Digits.ext {base count : Nat} {ds es : Digits base count} (h : ds.chars = es.chars) :
    ds = es := by
  cases ds
  cases es
  simpa using h

namespace Piece

/-- **A piece is determined by its text.** The length tells most kinds of pieces apart; of those
with four characters, only an octal one starts with a digit. -/
theorem text_injective : Function.Injective text := by
  intro p q h
  have hlen := congrArg List.length h
  cases p with
  | plain c _ =>
    cases q with
    | plain d _ =>
      obtain rfl : c = d := by simpa [text] using h
      rfl
    | scalar wide es _ => cases wide <;> simp [text, Digits.length_eq] at hlen
    | _ => simp [text, Digits.length_eq] at hlen
  | letter l c hc =>
    cases q with
    | letter l' d hd =>
      obtain rfl : l = l' := by simpa [text] using h
      have hcd := (lookup_letters_eq_some_iff.2 hc).symm.trans (lookup_letters_eq_some_iff.2 hd)
      obtain rfl : c = d := Option.some.inj hcd
      rfl
    | scalar wide es _ => cases wide <;> simp [text, Digits.length_eq] at hlen
    | _ => simp [text, Digits.length_eq] at hlen
  | hexByte ds =>
    cases q with
    | hexByte es =>
      obtain rfl : ds = es := Digits.ext (by simpa [text] using h)
      rfl
    | octalByte es _ =>
      have hx : 'x' ∈ es.chars := by
        have : 'x' :: ds.chars = es.chars := by simpa [text] using h
        simp [← this]
      exact absurd (es.isDigit 'x' hx) (by decide)
    | scalar wide es _ => cases wide <;> simp [text, Digits.length_eq] at hlen
    | _ => simp [text, Digits.length_eq] at hlen
  | octalByte ds _ =>
    cases q with
    | octalByte es _ =>
      obtain rfl : ds = es := Digits.ext (by simpa [text] using h)
      rfl
    | hexByte es =>
      have hx : 'x' ∈ ds.chars := by
        have : ds.chars = 'x' :: es.chars := by simpa [text] using h
        simp [this]
      exact absurd (ds.isDigit 'x' hx) (by decide)
    | scalar wide es _ => cases wide <;> simp [text, Digits.length_eq] at hlen
    | _ => simp [text, Digits.length_eq] at hlen
  | scalar wide ds _ =>
    cases q with
    | scalar wide' es _ =>
      obtain rfl : wide = wide' := by
        revert hlen
        cases wide <;> cases wide' <;> simp [text, Digits.length_eq]
      obtain rfl : ds = es := Digits.ext (by simpa [text] using h)
      rfl
    | _ => cases wide <;> simp [text, Digits.length_eq] at hlen

/-- Only an escape starts with a backslash. -/
theorem eq_plain_of_head (h : p.text ++ rest = c :: cs)
    (hc : c ≠ '\\') : ∃ hc, p = .plain c hc := by
  rcases p.text_cases with ⟨d, hd, rfl⟩ | ⟨d, ds, htext, -⟩
  · obtain ⟨rfl, -⟩ := List.cons.inj h
    exact ⟨hd, rfl⟩
  · rw [htext] at h
    obtain ⟨rfl, -⟩ := List.cons.inj h
    exact absurd rfl hc

/-- **No piece is the start of another one.** -/
theorem append_inj (h : p.text ++ rest = q.text ++ rest') :
    p = q ∧ rest = rest' := by
  rcases p.text_cases with ⟨c, hc, rfl⟩ | ⟨c, cs, hcs, -⟩
  · obtain ⟨hc, rfl⟩ := eq_plain_of_head h.symm hc.2.1
    exact ⟨rfl, List.append_cancel_left h⟩
  · -- what is read as an escape is one piece, and one rest
    have hp : p.text ++ rest = '\\' :: c :: (cs ++ rest) := by rw [hcs]; rfl
    have hread := readEscape_eq_ok_iff.2 ⟨p, hp, rfl⟩
    have hread' := readEscape_eq_ok_iff.2 ⟨q, h.symm.trans hp, rfl⟩
    obtain ⟨-, rfl⟩ := Prod.mk.inj (Except.ok.inj (hread.symm.trans hread'))
    exact ⟨text_injective (List.append_cancel_right h), rfl⟩

theorem head_ne_quote : p.text ++ rest ≠ '"' :: cs := by
  intro h
  obtain ⟨hc, -⟩ := eq_plain_of_head h (by decide)
  exact hc.1 rfl

end Piece

/-- **The inside of a literal is made of pieces in one way.** -/
theorem pieces_unique {ps qs : List Piece}
    (h : ps.flatMap Piece.text ++ '"' :: rest = qs.flatMap Piece.text ++ '"' :: rest') :
    ps = qs ∧ rest = rest' := by
  induction ps generalizing qs with
  | nil =>
    cases qs with
    | nil => exact ⟨rfl, List.cons.inj h |>.2⟩
    | cons q qs =>
      rw [List.flatMap_cons, List.append_assoc] at h
      exact absurd h.symm Piece.head_ne_quote
  | cons p ps ih =>
    rw [List.flatMap_cons, List.append_assoc] at h
    cases qs with
    | nil => exact absurd h Piece.head_ne_quote
    | cons q qs =>
      rw [List.flatMap_cons, List.append_assoc] at h
      obtain ⟨rfl, hrest⟩ := Piece.append_inj h
      obtain ⟨rfl, rfl⟩ := ih hrest
      exact ⟨rfl, rfl⟩

/-! ## What is no escape -/

/-- How an escape with digits starts behind its backslash, the character that a message shows
there, and the base and number of the digits. -/
inductive Opening : List Char → Char → Nat → Nat → Prop
  | hexByte : Opening ['x'] 'x' 16 2
  | octalByte : Opening [] '\\' 8 3
  | scalar : Opening ['u'] 'u' 16 4
  | wideScalar : Opening ['U'] 'U' 16 8

/-- What stands behind a backslash and is no escape, and its fault. -/
inductive BadEscape : List Char → Fault → Prop
  /-- No escape starts like that. -/
  | unknown (c : Char) (rest : List Char) (hl : letters.lookup c = none)
    (hd : ¬ ('0' ≤ c ∧ c ≤ '7')) (hx : c ∉ ['x', 'u', 'U']) : BadEscape (c :: rest) (.unknown c)
  /-- There are only `k` digits. An octal escape has at least one. -/
  | missing {opening : List Char} {shown : Char} {base count k : Nat}
    (h : Opening opening shown base count) (ds : Digits base k) (rest : List Char) (hk : k < count)
    (hrest : rest.head?.bind (digit? base) = none) (hne : opening ++ ds.chars ≠ []) :
    BadEscape (opening ++ (ds.chars ++ rest)) (.malformed (String.ofList (shown :: ds.chars)))
  | octalTooLarge (ds : Digits 8 3) (rest : List Char) (h : 255 < ds.value) :
    BadEscape (ds.chars ++ rest) (.octalTooLarge ds.value)
  | notScalar (wide : Bool) (ds : Digits 16 (if wide then 8 else 4)) (rest : List Char)
    (h : ¬ ds.value.isValidChar) :
    BadEscape ((if wide then 'U' else 'u') :: (ds.chars ++ rest))
      (.notScalar (if wide then 'U' else 'u') ds.value)

/-- The digits at the front of a text. -/
theorem exists_digits (base : Nat) (cs : List Char) :
    ∃ (k : Nat) (ds : Digits base k) (rest : List Char), cs = ds.chars ++ rest ∧
      rest.head?.bind (digit? base) = none := by
  induction cs with
  | nil => exact ⟨0, ⟨[], rfl, by simp⟩, [], rfl, rfl⟩
  | cons c cs ih =>
    cases hc : digit? base c with
    | none => exact ⟨0, ⟨[], rfl, by simp⟩, c :: cs, rfl, hc⟩
    | some d =>
      obtain ⟨k, ds, rest, rfl, hrest⟩ := ih
      refine ⟨k + 1, ⟨c :: ds.chars, by simp [ds.length_eq], ?_⟩, rest, rfl, hrest⟩
      intro e he
      rcases List.mem_cons.1 he with rfl | he
      · simp [hc]
      · exact ds.isDigit e he

/-- **Digits are refused exactly when there are too few of them.** -/
theorem readDigits_eq_error_iff {base count : Nat} {shown : Char} {cs : List Char} {fault : Fault} :
    readDigits base count shown cs = .error fault ↔
      ∃ (k : Nat) (ds : Digits base k) (rest : List Char), k < count ∧ cs = ds.chars ++ rest ∧
        rest.head?.bind (digit? base) = none ∧ fault = .malformed (String.ofList (shown :: ds.chars)) := by
  constructor
  · intro h
    obtain ⟨k, ds, rest, rfl, hrest⟩ := exists_digits base cs
    have hk : k < count := by
      by_contra hk
      -- the first digits would be read
      have hlen : (ds.chars.take count).length = count := by simp [ds.length_eq]; omega
      have hcs : ds.chars.take count ++ (ds.chars.drop count ++ rest) = ds.chars ++ rest := by
        rw [← List.append_assoc, List.take_append_drop]
      have hread : readDigits base count shown (ds.chars ++ rest) = .ok _ := readDigits_eq_ok_iff.2
        ⟨⟨ds.chars.take count, hlen, fun c hc => ds.isDigit c (List.mem_of_mem_take hc)⟩, hcs, rfl⟩
      exact absurd (hread.symm.trans h) (by simp)
    rw [readDigits_missing ds hrest hk] at h
    exact ⟨k, ds, rest, hk, rfl, hrest, (Except.error.inj h).symm⟩
  · rintro ⟨k, ds, rest, hk, rfl, hrest, rfl⟩
    exact readDigits_missing ds hrest hk

theorem of_bind_error {ε α β : Type} {m : Except ε α} {go : α → Except ε β} {e : ε}
    (h : m >>= go = .error e) : m = .error e ∨ ∃ a, m = .ok a ∧ go a = .error e := by
  cases m with
  | error e' => exact .inl (congrArg Except.error (Except.error.inj h))
  | ok a => exact .inr ⟨a, rfl, h⟩

theorem bind_error {ε α β : Type} {m : Except ε α} {go : α → Except ε β} {e : ε}
    (h : m = .error e) : m >>= go = .error e := by
  rw [h]
  rfl

variable {w : Bool} {fault : Fault}

theorem readScalar_eq_error_iff :
    readScalar (if w then 'U' else 'u') (if w then 8 else 4) cs = .error fault ↔
      readDigits 16 (if w then 8 else 4) (if w then 'U' else 'u') cs = .error fault ∨
        ∃ (ds : Digits 16 (if w then 8 else 4)) (rest : List Char), cs = ds.chars ++ rest ∧
          ¬ ds.value.isValidChar ∧ fault = .notScalar (if w then 'U' else 'u') ds.value := by
  unfold readScalar
  constructor
  · intro h
    rcases of_bind_error h with h | ⟨⟨v, rest⟩, hread, h⟩
    · exact .inl h
    · obtain ⟨ds, rfl, rfl⟩ := readDigits_eq_ok_iff.1 hread
      simp only at h
      split at h
      · exact absurd h (by simp)
      · next hv => exact .inr ⟨ds, rest, rfl, hv, (Except.error.inj h).symm⟩
  · rintro (h | ⟨ds, rest, rfl, hv, rfl⟩)
    · exact bind_error h
    · rw [readDigits_eq_ok_iff.2 ⟨ds, rfl, rfl⟩]
      simp only [bind, Except.bind, if_neg hv]

theorem isSome_digit_octal (h : '0' ≤ c ∧ c ≤ '7') : (digit? 8 c).isSome := by
  have hle := h
  simp only [Char.le_iff_toNat] at hle
  have h0 : '0'.toNat = 48 := rfl
  have h7 : '7'.toNat = 55 := rfl
  have h9 : '9'.toNat = 57 := rfl
  have hdecimal : '0' ≤ c ∧ c ≤ '9' := by
    simp only [Char.le_iff_toNat]
    omega
  have hlt : c.toNat - '0'.toNat < 8 := by omega
  simp only [digit?, if_pos hdecimal, if_pos hlt, Option.isSome_some]

/-- An octal escape, which has its first digit right behind the backslash. -/
theorem readEscape_octal (h : '0' ≤ c ∧ c ≤ '7') :
    readEscape c cs = readDigits 8 3 '\\' (c :: cs) >>= fun (value, rest) =>
      if value ≤ 255 then .ok ([UInt8.ofNat value], rest) else .error (.octalTooLarge value) := by
  have hx : c ≠ 'x' := by
    rintro rfl
    revert h
    decide
  simp only [readEscape, lookup_letters_octal h, hx, h, and_self, if_true, if_false]

theorem readEscape_scalar :
    readEscape (if w then 'U' else 'u') cs =
      readScalar (if w then 'U' else 'u') (if w then 8 else 4) cs := by
  cases w <;> rfl

/-- What is no escape is refused. -/
theorem BadEscape.readEscape (h : BadEscape (c :: cs) fault) : readEscape c cs = .error fault := by
  generalize htext : c :: cs = text at h
  cases h with
  | unknown c' rest hl hd hx =>
    obtain ⟨rfl, rfl⟩ := List.cons.inj htext
    have hx' : c ≠ 'x' ∧ c ≠ 'u' ∧ c ≠ 'U' := by simpa using hx
    simp only [Quoted.readEscape, hl, hx'.1, hx'.2.1, hx'.2.2, hd, if_false]
  | missing hopen ds rest hk hrest hne =>
    have hread : ∀ shown count, _ < count → readDigits _ count shown (ds.chars ++ rest) = _ :=
      fun shown count hk => readDigits_missing ds hrest hk
    cases hopen with
    | hexByte =>
      obtain ⟨rfl, rfl⟩ := List.cons.inj htext
      exact bind_error (hread _ _ hk)
    | octalByte =>
      have hc : '0' ≤ c ∧ c ≤ '7' := by
        obtain ⟨d, ds', hds⟩ := List.exists_cons_of_ne_nil hne
        rw [List.nil_append] at hds htext
        rw [hds] at htext
        obtain ⟨rfl, -⟩ := List.cons.inj htext
        exact digit_octal (ds.isDigit c (by simp [hds]))
      rw [readEscape_octal hc, htext]
      exact bind_error (hread _ _ hk)
    | scalar =>
      obtain ⟨rfl, rfl⟩ := List.cons.inj htext
      exact bind_error (hread _ _ hk)
    | wideScalar =>
      obtain ⟨rfl, rfl⟩ := List.cons.inj htext
      exact bind_error (hread _ _ hk)
  | octalTooLarge ds rest h =>
    have hc : '0' ≤ c ∧ c ≤ '7' := by
      obtain ⟨d, ds', hds⟩ := List.exists_cons_of_length_eq_add_one ds.length_eq
      rw [hds] at htext
      obtain ⟨rfl, -⟩ := List.cons.inj htext
      exact digit_octal (ds.isDigit c (by simp [hds]))
    rw [readEscape_octal hc, htext, readDigits_eq_ok_iff.2 ⟨ds, rfl, rfl⟩]
    simp only [bind, Except.bind, if_neg (not_le.2 h)]
  | notScalar wide ds rest h =>
    obtain ⟨rfl, rfl⟩ := List.cons.inj htext
    rw [readEscape_scalar]
    exact readScalar_eq_error_iff.2 (.inr ⟨ds, rest, rfl, h, rfl⟩)

/-- **An escape is refused exactly when it is none**, with the fault of what stands there. -/
theorem readEscape_eq_error_iff : readEscape c cs = .error fault ↔ BadEscape (c :: cs) fault := by
  refine ⟨fun h => ?_, BadEscape.readEscape⟩
  unfold readEscape at h
  -- in the order in which the reader tells escapes apart
  split at h
  · exact absurd h (by simp)
  next hl =>
  split_ifs at h with hx ho hu hU
  · subst hx
    rcases of_bind_error h with h | ⟨_, _, h⟩
    · obtain ⟨k, ds, rest, hk, rfl, hrest, rfl⟩ := readDigits_eq_error_iff.1 h
      exact .missing .hexByte ds rest hk hrest (by simp)
    · exact absurd h (by simp)
  · rcases of_bind_error h with h | ⟨⟨v, rest⟩, hread, h⟩
    · obtain ⟨k, ds, rest, hk, hcs, hrest, rfl⟩ := readDigits_eq_error_iff.1 h
      have hne : ds.chars ≠ [] := by
        intro hnil
        rw [hnil, List.nil_append] at hcs
        have hdigit := isSome_digit_octal ho
        rw [← hcs, List.head?_cons, Option.bind_some] at hrest
        exact absurd hdigit (by simp [hrest])
      rw [hcs]
      exact .missing .octalByte ds rest hk hrest (by simpa using hne)
    · obtain ⟨ds, hcs, rfl⟩ := readDigits_eq_ok_iff.1 hread
      simp only at h
      split at h
      · exact absurd h (by simp)
      · next hv =>
        obtain rfl := Except.error.inj h
        rw [← hcs]
        exact .octalTooLarge ds rest (by omega)
  · subst hu
    rcases (readScalar_eq_error_iff (w := false)).1 h with h | ⟨ds, rest, rfl, hv, rfl⟩
    · obtain ⟨k, ds, rest, hk, rfl, hrest, rfl⟩ := readDigits_eq_error_iff.1 h
      exact .missing .scalar ds rest hk hrest (by simp)
    · exact .notScalar false ds rest hv
  · subst hU
    rcases (readScalar_eq_error_iff (w := true)).1 h with h | ⟨ds, rest, rfl, hv, rfl⟩
    · obtain ⟨k, ds, rest, hk, rfl, hrest, rfl⟩ := readDigits_eq_error_iff.1 h
      exact .missing .wideScalar ds rest hk hrest (by simp)
    · exact .notScalar true ds rest hv
  · obtain rfl := Except.error.inj h
    exact .unknown c cs hl ho (by simp [hx, hu, hU])

/-! ## What is no literal -/

/-- The text is at the end of its line. -/
def AtLineEnd (cs : List Char) : Prop := ∀ c ∈ cs.head?, c = '\n'

/-- A literal breaks here, behind pieces with these bytes: no piece comes and no quote, or the quote
comes and the bytes are no text. -/
inductive Breaks (bytes : ByteArray) : List Char → Fault → Prop
  | notUtf8 (rest : List Char) (h : ¬ bytes.IsValidUTF8) : Breaks bytes ('"' :: rest) .notUtf8
  | line (cs : List Char) (h : AtLineEnd cs) : Breaks bytes cs (unterminated bytes)
  | escapedLine (cs : List Char) (h : AtLineEnd cs) : Breaks bytes ('\\' :: cs) (unterminated bytes)
  | escape (cs : List Char) (fault : Fault) (hc : ¬ AtLineEnd cs) (h : BadEscape cs fault) :
    Breaks bytes ('\\' :: cs) fault

theorem atLineEnd_cases {cs : List Char} (h : AtLineEnd cs) : cs = [] ∨ ∃ rest, cs = '\n' :: rest := by
  cases cs with
  | nil => exact .inl rfl
  | cons c cs =>
    obtain rfl := h c rfl
    exact .inr ⟨cs, rfl⟩

theorem close_eq_error_iff {bytes : ByteArray} :
    close bytes = .error fault ↔ ¬ bytes.IsValidUTF8 ∧ fault = .notUtf8 := by
  unfold close String.fromUTF8?
  split_ifs with h
  · simp [h]
  · simp [h, eq_comm]

/-- **Where a literal breaks it is refused.** -/
theorem Breaks.decodeFrom {bytes : ByteArray} (h : Breaks bytes cs fault) :
    decodeFrom bytes cs = .error fault := by
  cases h with
  | notUtf8 rest h =>
    rw [decodeFrom.eq_2, close_eq_error_iff.2 ⟨h, rfl⟩]
    rfl
  | line _ h =>
    rcases atLineEnd_cases h with rfl | ⟨rest, rfl⟩
    · rw [decodeFrom.eq_1]
    · rw [decodeFrom.eq_3]
  | escapedLine cs h =>
    rcases atLineEnd_cases h with rfl | ⟨rest, rfl⟩
    · rw [decodeFrom.eq_4]
    · rw [decodeFrom.eq_5]
  | escape cs _ hc h =>
    cases cs with
    | nil => exact absurd (by simp [AtLineEnd]) hc
    | cons c cs =>
      have hc : c ≠ '\n' := by
        rintro rfl
        exact hc (by simp [AtLineEnd])
      have hread := h.readEscape
      rw [decodeFrom.eq_6 _ _ _ hc]
      split
      · next h' => exact absurd (hread.symm.trans h') (by simp)
      · next h' => rw [Except.error.inj (h'.symm.trans hread)]

theorem breaks_of_decodeFrom {bytes : ByteArray} (h : decodeFrom bytes cs = .error fault) :
    ∃ (ps : List Piece) (bad : List Char), cs = ps.flatMap Piece.text ++ bad ∧
      Breaks (bytes ++ (ps.flatMap Piece.bytes).toByteArray) bad fault := by
  have hhere : ∀ {bytes cs}, Breaks bytes cs fault →
      ∃ (ps : List Piece) (bad : List Char), cs = ps.flatMap Piece.text ++ bad ∧
        Breaks (bytes ++ (ps.flatMap Piece.bytes).toByteArray) bad fault := fun {bytes cs} h =>
    ⟨[], cs, rfl, by simpa using h⟩
  have hbehind : ∀ {bytes rest} (p : Piece), (∃ (ps : List Piece) (bad : List Char),
        rest = ps.flatMap Piece.text ++ bad ∧
          Breaks (bytes ++ p.bytes.toByteArray ++ (ps.flatMap Piece.bytes).toByteArray) bad fault) →
      ∃ (ps : List Piece) (bad : List Char), p.text ++ rest = ps.flatMap Piece.text ++ bad ∧
        Breaks (bytes ++ (ps.flatMap Piece.bytes).toByteArray) bad fault := by
    rintro bytes _ p ⟨ps, bad, rfl, h⟩
    refine ⟨p :: ps, bad, by rw [List.flatMap_cons, List.append_assoc], ?_⟩
    rwa [List.flatMap_cons, List.toByteArray_append, ← ByteArray.append_assoc]
  -- along the reader: it breaks here, or it reads a piece
  fun_induction decodeFrom bytes cs with
  | case2 bytes r =>
    cases hclose : close bytes with
    | ok t => simp [hclose, Except.map] at h
    | error e =>
      rw [hclose] at h
      obtain rfl := Except.error.inj h
      obtain ⟨hvalid, rfl⟩ := close_eq_error_iff.1 hclose
      exact hhere (.notUtf8 r hvalid)
  | case4 bytes =>
    obtain rfl := Except.error.inj h
    exact hhere (.escapedLine _ (by simp [AtLineEnd]))
  | case5 bytes r =>
    obtain rfl := Except.error.inj h
    exact hhere (.escapedLine _ (by simp [AtLineEnd]))
  | case6 bytes c cs _ bs r hread ih =>
    obtain ⟨p, hp, rfl⟩ := readEscape_eq_ok_iff.1 hread
    rw [← hp]
    exact hbehind p (ih h)
  | case7 bytes c cs hc e hread =>
    obtain rfl := Except.error.inj h
    exact hhere (.escape _ _ (by simpa [AtLineEnd] using hc) (readEscape_eq_error_iff.1 hread))
  | case8 bytes c cs hq hn hb₁ hb₂ hb₃ ih =>
    have hb : c ≠ '\\' := by
      rintro rfl
      cases cs with
      | nil => exact hb₁ rfl rfl
      | cons c cs => exact hb₃ c cs rfl rfl
    exact hbehind (.plain c ⟨hq, hb, hn⟩) (ih h)
  | _ =>
    obtain rfl := Except.error.inj h
    exact hhere (.line _ (by simp [AtLineEnd]))

/-- **A literal is refused exactly when it breaks behind some pieces**, with the fault of the
place. -/
theorem decode_eq_error_iff : decode cs = .error fault ↔
    ∃ (ps : List Piece) (bad : List Char), cs = ps.flatMap Piece.text ++ bad ∧
      Breaks (ps.flatMap Piece.bytes).toByteArray bad fault := by
  constructor
  · intro h
    obtain ⟨ps, bad, hcs, hbad⟩ := breaks_of_decodeFrom h
    exact ⟨ps, bad, hcs, by simpa using hbad⟩
  · rintro ⟨ps, bad, rfl, hbad⟩
    rw [decode, decodeFrom_pieces, ByteArray.empty_append]
    exact hbad.decodeFrom

/-- A literal made of pieces. -/
def literal (ps : List Piece) : List Char := '"' :: ps.flatMap Piece.text ++ ['"']

/-- The bytes that a literal stands for. -/
def denoted (ps : List Piece) : ByteArray := (ps.flatMap Piece.bytes).toByteArray

theorem literal_injective : Function.Injective literal := by
  intro ps qs h
  have h : ps.flatMap Piece.text ++ '"' :: [] = qs.flatMap Piece.text ++ '"' :: [] := (List.cons.inj h).2
  exact (pieces_unique h).1

/-- The escapes that stand for a single byte. -/
def Piece.IsByte : Piece → Prop
  | .letter _ _ _ | .hexByte _ | .octalByte _ _ => True
  | .plain _ _ | .scalar _ _ _ => False

theorem Piece.IsByte.length_bytes {p : Piece} (h : p.IsByte) : p.bytes.length = 1 := by
  cases p with
  | plain c hc => exact h.elim
  | letter l c hc =>
    have hascii : ∀ p ∈ letters, p.2.toNat < 128 := by decide
    rw [bytes, utf8EncodeChar_ascii (hascii _ hc)]
    rfl
  | hexByte ds => rfl
  | octalByte ds hv => rfl
  | scalar wide ds hv => exact h.elim

end Quoted

/-! ## Literals in their places -/

namespace Lexeme

/-- Reading `before ++ rest` the lexer comes to `rest`: in front of it are separators and whole
lexemes, of which none is only the start of a run. -/
inductive ComesTo : List Char → List Char → Prop
  | here (rest : List Char) : ComesTo [] rest
  | separator {c : Char} {before rest : List Char} (hc : isSeparator c = true)
    (h : ComesTo before rest) : ComesTo (c :: before) rest
  | lexeme {w before rest : List Char} {l : Lexeme} (hw : Spells w l)
    (hb : l.IsWord → Boundary (before ++ rest)) (h : ComesTo before rest) :
    ComesTo (w ++ before) rest

/-- **The lexer cuts what is in front**, and then the rest on its line. -/
theorem ComesTo.cut {before rest : List Char} (h : ComesTo before rest) (line : Nat) :
    ∃ ls, cut line (before ++ rest) =
      (Lexeme.cut (line + before.count '\n') rest).map (ls ++ ·) := by
  induction h generalizing line with
  | here rest =>
    refine ⟨[], ?_⟩
    cases hcut : Lexeme.cut line rest <;> simp [hcut, Except.map]
  | @separator c before rest hc _ ih =>
    obtain ⟨ls, hls⟩ := ih (line + [c].count '\n')
    refine ⟨ls, ?_⟩
    rw [List.cons_append, cut_separator hc, hls, Nat.add_assoc, ← List.count_append,
      List.singleton_append]
  | @lexeme w before rest l hw hb _ ih =>
    obtain ⟨ls, hls⟩ := ih line
    obtain ⟨c, w, rfl, hc⟩ := hw.cons
    have hnext : next c (w ++ (before ++ rest)) = .ok (l, before ++ rest) :=
      (next_eq_ok_iff hc).2 ⟨c :: w, hw, rfl, hb⟩
    refine ⟨(line, l) :: ls, ?_⟩
    rw [List.append_assoc, List.cons_append, cut_lexeme hc hnext, hls, List.count_append,
      hw.count_newline, Nat.zero_add]
    cases Lexeme.cut (line + before.count '\n') rest <;> rfl

/-- A literal that is refused ends the lexing, with its fault and its line. -/
theorem ComesTo.tokenize_eq_error {before cs : List Char} {fault : Quoted.Fault}
    (h : ComesTo before ('"' :: cs)) (hfault : Quoted.decode cs = .error fault) :
    tokenize (String.ofList (before ++ '"' :: cs)) =
      .error ⟨1 + before.count '\n', .badString fault⟩ := by
  obtain ⟨ls, hls⟩ := h.cut 1
  have hnext : next '"' cs = .error fault := by
    simp [next, hfault, Except.map]
  have hcut : Lexeme.cut (1 + before.count '\n') ('"' :: cs) = .error ⟨_, .badString fault⟩ :=
    cut_fault (by decide) hnext
  simp only [tokenize, String.toList_ofList, hls, hcut, Except.map]

end Lexeme

namespace Division

theorem ValidParts.spelled {ps : List Part} (h : ValidParts ps) :
    ∀ p ∈ ps, TokenKind.Spelled p.text p.kind := by
  induction ps with
  | nil => simp
  | cons p ps ih =>
    intro q hq
    rcases List.mem_cons.1 hq with rfl | hq
    · exact h.1
    · exact ih h.2.2.2 q hq

end Division

open Quoted

/-- **Pieces between quotes are read as the text of their bytes**, and as no text if their bytes
are no UTF-8. Every literal that is read is made of pieces in one way. Where the lexer comes to a
quote, pieces with a text stand there up to a quote, or else there is a fault on this line, since
behind some pieces something stands that is no piece. -/
theorem literal_exact :
    (∀ ps : List Piece,
      ((denoted ps).IsValidUTF8 → ∃ s : String, s.toByteArray = denoted ps ∧
        tokenize (String.ofList (literal ps)) = .ok [⟨.string s, s, 1⟩]) ∧
      (¬ (denoted ps).IsValidUTF8 →
        tokenize (String.ofList (literal ps)) = .error ⟨1, .badString .notUtf8⟩)) ∧
    (∀ p : Piece, p.IsByte → p.bytes.length = 1) ∧
    (∀ (source : String) (ts : List Token), tokenize source = .ok ts →
      ∃ d : Division, d.Valid ∧ d.text = source.toList ∧ d.tokens = ts ∧
        ∀ p ∈ d.parts, ∀ s, p.kind = .string s →
          ∃! ps : List Piece, p.text = literal ps ∧ s.toByteArray = denoted ps) ∧
    ∀ before cs : List Char, Lexeme.ComesTo before ('"' :: cs) →
      (∃ (ps : List Piece) (rest : List Char) (s : String),
        cs = ps.flatMap Piece.text ++ '"' :: rest ∧ s.toByteArray = denoted ps ∧
        Lexeme.next '"' cs = .ok (.string s, rest)) ∨
      ∃ (ps : List Piece) (bad : List Char) (fault : Fault), cs = ps.flatMap Piece.text ++ bad ∧
        Breaks (denoted ps) bad fault ∧ tokenize (String.ofList (before ++ '"' :: cs)) =
          .error ⟨1 + before.count '\n', .badString fault⟩ := by
  refine ⟨fun ps => ⟨fun hvalid => ?_, fun hvalid => ?_⟩, fun p h => h.length_bytes,
    fun source ts hts => ?_, fun before cs hplace => ?_⟩
  · have hs : (String.ofByteArray (denoted ps) hvalid).toByteArray = denoted ps := rfl
    generalize String.ofByteArray (denoted ps) hvalid = s at hs
    have hnext : Lexeme.next '"' (ps.flatMap Piece.text ++ ['"']) = .ok (.string s, []) :=
      (Lexeme.next_eq_ok_iff (by decide)).2 ⟨_, .string ps s hs, by simp, False.elim⟩
    refine ⟨s, hs, ?_⟩
    rw [tokenize_eq_scan, String.toList_ofList, literal, List.cons_append,
      scan_lexeme (by decide) hnext rfl, scan_nil]
    rfl
  · have hdecode : decode (ps.flatMap Piece.text ++ ['"']) = .error .notUtf8 :=
      decode_eq_error_iff.2 ⟨ps, ['"'], rfl, .notUtf8 [] hvalid⟩
    exact (Lexeme.ComesTo.here _).tokenize_eq_error hdecode
  · obtain ⟨d, hd, htext, htokens⟩ := Division.exists_division hts
    refine ⟨d, hd, htext, htokens, fun p hp s hs => ?_⟩
    have hspelled := hd.2.spelled p hp
    rw [hs] at hspelled
    generalize p.text = w at hspelled
    cases hspelled with
    | string ps s h => exact ⟨ps, ⟨rfl, h⟩, fun _ hqs => literal_injective hqs.1.symm⟩
  · cases hdecode : decode cs with
    | ok p =>
      obtain ⟨s, rest⟩ := p
      obtain ⟨ps, hcs, hs⟩ := decode_eq_ok_iff.1 hdecode
      refine .inl ⟨ps, rest, s, hcs, hs, ?_⟩
      simp [Lexeme.next, hdecode, Except.map]
    | error fault =>
      obtain ⟨ps, bad, hcs, hbad⟩ := decode_eq_error_iff.1 hdecode
      exact .inr ⟨ps, bad, fault, hcs, hbad, hplace.tokenize_eq_error hdecode⟩

/-- Two bytes that form one character, the first of them alone, and a letter that stands for
nothing in a place behind a parenthesis. -/
theorem literal_exact_accent :
    (∃ s : String, s.toByteArray = "é".toByteArray ∧
      tokenize "\"\\xC3\\xA9\"" = .ok [⟨.string s, s, 1⟩]) ∧
    tokenize "\"\\xC3\"" = .error ⟨1, .badString .notUtf8⟩ ∧
    ∃ fault, tokenize "(\"\\q\")" = .error ⟨1, .badString fault⟩ := by
  have hplace : Lexeme.ComesTo ['('] ['"', '\\', 'q', '"', ')'] :=
    .lexeme .leftParen False.elim (.here _)
  obtain ⟨hread, -, -, hplaces⟩ := literal_exact
  refine ⟨?_, ?_, ?_⟩
  · exact (hread [.hexByte ⟨['C', '3'], rfl, by simp [digit?]⟩,
      .hexByte ⟨['A', '9'], rfl, by simp [digit?]⟩]).1 (by decide)
  · exact (hread [.hexByte ⟨['C', '3'], rfl, by simp [digit?]⟩]).2 (by decide)
  · rcases hplaces _ _ hplace with ⟨ps, rest, s, -, -, hnext⟩ | ⟨_, _, fault, -, -, h⟩
    · have hbad : decode ['\\', 'q', '"', ')'] = .error (.unknown 'q') :=
        decode_eq_error_iff.2 ⟨[], _, rfl, .escape _ _ (by simp [AtLineEnd])
          (.unknown 'q' _ rfl (by decide) (by decide))⟩
      simp [Lexeme.next, hbad, Except.map] at hnext
    · exact ⟨fault, h⟩

end FlatLisp
