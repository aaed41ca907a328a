import FlatLisp.Text.Quoted
import Mathlib.Data.List.TakeWhile

/-!
# What a string literal is made of

The inside of a literal is a row of pieces: plain characters and escapes (`Quoted.Piece`).
Each has a text and stands for some bytes.

* `readEscape_eq_ok_iff`: an escape is read exactly when it is the text of a piece.
* `decode_eq_ok_iff`: **a literal is read exactly when pieces and a quote stand there**; the
  bytes of its text are those of the pieces.
* `encode_pieces`: what is written inside a literal is made of pieces, which have the bytes
  of the text.
-/

namespace FlatLisp.Quoted

/-! ## Pieces -/

/-- Digits of a base, in a given number. -/
structure Digits (base count : Nat) where
  chars : List Char
  length_eq : chars.length = count
  isDigit : ∀ c ∈ chars, (digit? base c).isSome

/-- The number that digits denote. -/
def Digits.value {base count : Nat} (ds : Digits base count) : Nat :=
  ds.chars.foldl (fun n c => base * n + (digit? base c).getD 0) 0

/-- A piece of the inside of a literal. -/
inductive Piece where
  | plain (c : Char) (h : c ≠ '"' ∧ c ≠ '\\' ∧ c ≠ '\n')
  | letter (l c : Char) (h : (l, c) ∈ letters)
  | hexByte (ds : Digits 16 2)
  | octalByte (ds : Digits 8 3) (h : ds.value ≤ 255)
  | scalar (wide : Bool) (ds : Digits 16 (if wide then 8 else 4)) (h : ds.value.isValidChar)

namespace Piece

/-- A piece as it stands in the program. -/
def text : Piece → List Char
  | .plain c _ => [c]
  | .letter l _ _ => ['\\', l]
  | .hexByte ds => '\\' :: 'x' :: ds.chars
  | .octalByte ds _ => '\\' :: ds.chars
  | .scalar wide ds _ => '\\' :: (if wide then 'U' else 'u') :: ds.chars

/-- The bytes that a piece stands for. -/
def bytes : Piece → List UInt8
  | .plain c _ => String.utf8EncodeChar c
  | .letter _ c _ => String.utf8EncodeChar c
  | .hexByte ds => [UInt8.ofNat ds.value]
  | .octalByte ds _ => [UInt8.ofNat ds.value]
  | .scalar _ ds _ => String.utf8EncodeChar (Char.ofNat ds.value)

end Piece

/-! ## Reading an escape -/

theorem of_bind {ε α β : Type} {m : Except ε α} {go : α → Except ε β} {b : β}
    (h : m >>= go = .ok b) : ∃ a, m = .ok a ∧ go a = .ok b := by
  cases m with
  | error e => exact absurd h (by simp [bind, Except.bind])
  | ok a => exact ⟨a, rfl, h⟩

theorem readDigits_eq_ok_iff {base count v : Nat} {shown : Char} {cs rest : List Char} :
    readDigits base count shown cs = .ok (v, rest) ↔
      ∃ ds : Digits base count, ds.chars ++ rest = cs ∧ ds.value = v := by
  unfold readDigits
  set isDigit : Char → Bool := fun c => (digit? base c).isSome
  simp only
  constructor
  · intro h
    split at h
    · next hlen =>
      simp only [Except.ok.injEq, Prod.mk.injEq] at h
      obtain ⟨rfl, rfl⟩ := h
      have htake : (cs.take count).takeWhile isDigit = cs.take count := by
        apply (List.takeWhile_prefix _).eq_of_length_le
        rw [hlen]; exact List.length_take_le _ _
      refine ⟨⟨_, hlen, fun c hc => List.mem_takeWhile_imp (p := isDigit) hc⟩, ?_, rfl⟩
      simp only [htake, List.take_append_drop]
    · exact absurd h (by simp)
  · rintro ⟨⟨ds, hlen, hds⟩, rfl, rfl⟩
    have htake : ((ds ++ rest).take count).takeWhile isDigit = ds := by
      rw [List.take_left' hlen]
      exact List.takeWhile_eq_self_iff.2 hds
    rw [htake, if_pos hlen, List.drop_left' hlen]
    rfl

/-- The digits break off before there are enough of them. -/
theorem readDigits_missing {base k count : Nat} {shown : Char} {more : List Char} (ds : Digits base k)
    (hmore : (more.head?).bind (digit? base) = none) (hcount : k < count) :
    readDigits base count shown (ds.chars ++ more) =
      .error (.malformed (String.ofList (shown :: ds.chars))) := by
  obtain ⟨done, rfl, hdone⟩ := ds
  have hstop : (more.take (count - done.length)).takeWhile (fun c => (digit? base c).isSome) = [] := by
    cases more with
    | nil => simp
    | cons c more =>
      obtain ⟨n, hn⟩ : ∃ n, count - done.length = n + 1 := ⟨count - done.length - 1, by omega⟩
      have hc : digit? base c = none := by simpa using hmore
      simp [hn, hc]
  have hfound : ((done ++ more).take count).takeWhile (fun c => (digit? base c).isSome) = done := by
    rw [List.take_append, List.take_of_length_le hcount.le, List.takeWhile_append_of_pos hdone, hstop,
      List.append_nil]
  unfold readDigits
  simp only [hfound]
  rw [if_neg hcount.ne]

theorem lookup_letters_eq_some_iff {l c : Char} : letters.lookup l = some c ↔ (l, c) ∈ letters := by
  constructor
  · intro h
    obtain ⟨before, after, h, -⟩ := List.lookup_eq_some_iff.1 h
    rw [h]; simp
  · have : ∀ p ∈ letters, letters.lookup p.1 = some p.2 := by decide
    exact this (l, c)

/-- The first character of an octal escape is no escape letter. -/
theorem lookup_letters_octal {c : Char} (h : '0' ≤ c ∧ c ≤ '7') : letters.lookup c = none := by
  rw [List.lookup_eq_none_iff]
  have : ∀ p ∈ letters, ¬ ('0' ≤ p.1 ∧ p.1 ≤ '7') := by decide
  intro p hp
  by_contra hc
  simp only [bne_iff_ne, ne_eq, not_not] at hc
  exact this p hp (hc ▸ h)

theorem Char.le_iff_toNat (a b : Char) : a ≤ b ↔ a.toNat ≤ b.toNat := by
  rw [Char.le_def, UInt32.le_iff_toNat_le]; rfl

theorem digit_octal {c : Char} (h : (digit? 8 c).isSome) : '0' ≤ c ∧ c ≤ '7' := by
  unfold digit? at h
  simp only [Char.le_iff_toNat, Option.isSome_ite] at *
  have h0 : '0'.toNat = 48 := rfl
  have h7 : '7'.toNat = 55 := rfl
  have h9 : '9'.toNat = 57 := rfl
  have ha : 'a'.toNat = 97 := rfl
  have hA : 'A'.toNat = 65 := rfl
  split_ifs at h <;> omega

theorem readScalar_eq_ok_iff {w : Bool} {bs : List UInt8} {cs rest : List Char} :
    readScalar (if w then 'U' else 'u') (if w then 8 else 4) cs = .ok (bs, rest) ↔
      ∃ (ds : Digits 16 (if w then 8 else 4)) (h : ds.value.isValidChar),
        ds.chars ++ rest = cs ∧ (Piece.scalar w ds h).bytes = bs := by
  unfold readScalar
  constructor
  · intro h
    obtain ⟨⟨v, r⟩, hr, h⟩ := of_bind h
    obtain ⟨ds, hcs, rfl⟩ := readDigits_eq_ok_iff.1 hr
    simp only at h
    split at h
    · next hv =>
      simp only [Except.ok.injEq, Prod.mk.injEq] at h
      exact ⟨ds, hv, h.2 ▸ hcs, h.1⟩
    · exact absurd h (by simp)
  · rintro ⟨ds, hv, hcs, hbs⟩
    rw [readDigits_eq_ok_iff.2 ⟨ds, hcs, rfl⟩]
    simp only [bind, Except.bind, hv, if_true]
    rw [← hbs]; rfl

/-- **An escape is read exactly when it is the text of a piece.** -/
theorem readEscape_eq_ok_iff {c : Char} {bs : List UInt8} {cs rest : List Char} :
    readEscape c cs = .ok (bs, rest) ↔
      ∃ p : Piece, p.text ++ rest = '\\' :: c :: cs ∧ p.bytes = bs := by
  constructor
  · intro h
    unfold readEscape at h
    -- in the order in which the reader tells escapes apart
    split at h
    · next m hm =>
      simp only [Except.ok.injEq, Prod.mk.injEq] at h
      exact ⟨.letter c m (lookup_letters_eq_some_iff.1 hm), by simp [Piece.text, h.2], h.1⟩
    split_ifs at h with hx ho hu hU
    · obtain ⟨⟨v, r⟩, hr, h⟩ := of_bind h
      obtain ⟨ds, hcs, rfl⟩ := readDigits_eq_ok_iff.1 hr
      simp only [Except.ok.injEq, Prod.mk.injEq] at h
      exact ⟨.hexByte ds, by simp [Piece.text, ← h.2, hcs, hx], h.1⟩
    · obtain ⟨⟨v, r⟩, hr, h⟩ := of_bind h
      obtain ⟨ds, hcs, rfl⟩ := readDigits_eq_ok_iff.1 hr
      simp only at h
      split at h
      · next hv =>
        simp only [Except.ok.injEq, Prod.mk.injEq] at h
        exact ⟨.octalByte ds hv, by simp [Piece.text, ← h.2, hcs], h.1⟩
      · exact absurd h (by simp)
    · obtain ⟨ds, hv, hcs, hbs⟩ := readScalar_eq_ok_iff (w := false).1 h
      exact ⟨.scalar false ds hv, by simp [Piece.text, hcs, hu], hbs⟩
    · obtain ⟨ds, hv, hcs, hbs⟩ := readScalar_eq_ok_iff (w := true).1 h
      exact ⟨.scalar true ds hv, by simp [Piece.text, hcs, hU], hbs⟩
  · rintro ⟨p, hp, hbs⟩
    unfold readEscape
    cases p with
    | plain d hd => exact absurd (List.cons.inj hp).1 hd.2.1
    | letter l m hm =>
      obtain ⟨rfl, rfl⟩ : l = c ∧ rest = cs := by simpa [Piece.text] using hp
      rw [lookup_letters_eq_some_iff.2 hm, ← hbs]
      rfl
    | hexByte ds =>
      obtain ⟨rfl, rfl⟩ : 'x' = c ∧ ds.chars ++ rest = cs := by simpa [Piece.text] using hp
      rw [readDigits_eq_ok_iff.2 ⟨ds, rfl, rfl⟩, ← hbs]
      rfl
    | octalByte ds hv =>
      have hcs : ds.chars ++ rest = c :: cs := by simpa [Piece.text] using hp
      have hc : '0' ≤ c ∧ c ≤ '7' := by
        obtain ⟨chars, hlen, hds⟩ := ds
        cases chars with
        | nil => simp at hlen
        | cons d ds' =>
          obtain ⟨rfl, -⟩ := List.cons.inj hcs
          exact digit_octal (hds _ (by simp))
      have hx : c ≠ 'x' := by rintro rfl; revert hc; decide
      simp only [lookup_letters_octal hc, hx, hc, and_self, if_true, if_false]
      rw [readDigits_eq_ok_iff.2 ⟨ds, hcs, rfl⟩, ← hbs]
      simp only [bind, Except.bind, hv, if_true]
      rfl
    | scalar w ds hv =>
      obtain ⟨rfl, hcs⟩ : (if w then 'U' else 'u') = c ∧ ds.chars ++ rest = cs := by
        simpa [Piece.text] using hp
      have := readScalar_eq_ok_iff.2 ⟨ds, hv, hcs, hbs⟩
      cases w <;> exact this

/-! ## Reading a literal -/

theorem close_eq_ok_iff {bytes : ByteArray} {s : String} :
    close bytes = .ok s ↔ s.toByteArray = bytes := by
  unfold close String.fromUTF8?
  constructor
  · intro h
    split at h
    · next t ht =>
      split at ht
      · obtain rfl := Except.ok.inj h
        rw [← Option.some.inj ht]; rfl
      · exact absurd ht (by simp)
    · exact absurd h (by simp)
  · rintro rfl
    rw [dif_pos s.isValidUTF8]
    rfl

theorem decodeFrom_escape {bytes : ByteArray} {c : Char} {bs : List UInt8} {cs rest : List Char}
    (h : readEscape c cs = .ok (bs, rest)) :
    decodeFrom bytes ('\\' :: c :: cs) = decodeFrom (bytes ++ bs.toByteArray) rest := by
  have hc : c ≠ '\n' := by
    rintro rfl
    have : readEscape '\n' cs = .error (.unknown '\n') := rfl
    rw [this] at h
    exact absurd h (by simp)
  rw [decodeFrom.eq_6 _ _ _ hc]
  split
  · next h' =>
    obtain ⟨rfl, rfl⟩ := Prod.mk.inj (Except.ok.inj (h.symm.trans h'))
    rfl
  · next h' => exact absurd (h.symm.trans h') (by simp)

/-- A character that means itself inside a literal. -/
def IsPlain (c : Char) : Prop := c ≠ '"' ∧ c ≠ '\\' ∧ c ≠ '\n'

theorem isPlain_of_digit {base : Nat} {c : Char} (h : (digit? base c).isSome) : IsPlain c := by
  refine ⟨?_, ?_, ?_⟩ <;> rintro rfl <;> simp [digit?] at h

/-- A piece is a character that means itself, or an escape: behind its letter only such
characters come. -/
theorem Piece.text_cases (p : Piece) :
    (∃ c h, p = .plain c h) ∨ ∃ c cs, p.text = '\\' :: c :: cs ∧ c ≠ '\n' ∧ ∀ d ∈ cs, IsPlain d := by
  have hplain : ∀ {base count : Nat} (ds : Digits base count), ∀ d ∈ ds.chars, IsPlain d :=
    fun ds d hd => isPlain_of_digit (ds.isDigit d hd)
  cases p with
  | plain c h => exact .inl ⟨c, h, rfl⟩
  | letter l c h =>
    have hl : ∀ p ∈ letters, p.1 ≠ '\n' := by decide
    exact .inr ⟨l, [], rfl, hl _ h, by simp⟩
  | hexByte ds => exact .inr ⟨'x', ds.chars, rfl, by decide, hplain ds⟩
  | octalByte ds h =>
    have hds := hplain ds
    obtain ⟨c, cs, hcs⟩ := List.exists_cons_of_length_eq_add_one ds.length_eq
    rw [hcs] at hds
    refine .inr ⟨c, cs, ?_, (hds c (by simp)).2.2, fun d hd => hds d (List.mem_cons_of_mem c hd)⟩
    rw [Piece.text, hcs]
  | scalar wide ds h =>
    refine .inr ⟨if wide then 'U' else 'u', ds.chars, rfl, ?_, hplain ds⟩
    cases wide <;> decide

/-- A piece stands on one line. -/
theorem Piece.newline_notMem_text (p : Piece) : '\n' ∉ p.text := by
  rcases p.text_cases with ⟨c, h, rfl⟩ | ⟨c, cs, htext, hc, hcs⟩
  · simpa [Piece.text] using h.2.2.symm
  · intro hmem
    rw [htext] at hmem
    have hmem : '\n' = c ∨ '\n' ∈ cs := by simpa using hmem
    rcases hmem with rfl | hmem
    · exact hc rfl
    · exact (hcs _ hmem).2.2 rfl

/-- A piece is read by itself, whatever follows it. -/
theorem decodeFrom_piece (bytes : ByteArray) (p : Piece) (rest : List Char) :
    decodeFrom bytes (p.text ++ rest) = decodeFrom (bytes ++ p.bytes.toByteArray) rest := by
  rcases p.text_cases with ⟨c, ⟨hq, hb, hn⟩, rfl⟩ | ⟨c, cs, hcs, -⟩
  · exact decodeFrom.eq_7 _ _ _ hq hn (fun h _ => hb h) (fun _ h _ => hb h) (fun _ _ h _ => hb h)
  · rw [hcs]
    exact decodeFrom_escape (readEscape_eq_ok_iff.2 ⟨p, by simp [hcs], rfl⟩)

theorem decodeFrom_pieces (bytes : ByteArray) (ps : List Piece) (rest : List Char) :
    decodeFrom bytes (ps.flatMap Piece.text ++ rest) =
      decodeFrom (bytes ++ (ps.flatMap Piece.bytes).toByteArray) rest := by
  induction ps generalizing bytes with
  | nil => simp
  | cons p ps ih =>
    rw [List.flatMap_cons, List.append_assoc, decodeFrom_piece, ih, List.flatMap_cons,
      List.toByteArray_append, ByteArray.append_assoc]

theorem pieces_of_decodeFrom {bytes : ByteArray} {cs rest : List Char} {s : String}
    (h : decodeFrom bytes cs = .ok (s, rest)) :
    ∃ ps : List Piece, cs = ps.flatMap Piece.text ++ '"' :: rest ∧
      s.toByteArray = bytes ++ (ps.flatMap Piece.bytes).toByteArray := by
  -- along the reader: a literal ends, or it starts with a piece
  fun_induction decodeFrom bytes cs with
  | case2 bytes r =>
    cases hc : close bytes with
    | error e => simp [hc, Except.map] at h
    | ok t =>
      simp only [hc, Except.map, Except.ok.injEq, Prod.mk.injEq] at h
      obtain ⟨rfl, rfl⟩ := h
      exact ⟨[], rfl, by simpa using close_eq_ok_iff.1 hc⟩
  | case6 bytes c cs _ bs r hr ih =>
    obtain ⟨p, hp, rfl⟩ := readEscape_eq_ok_iff.1 hr
    obtain ⟨ps, rfl, hs⟩ := ih h
    refine ⟨p :: ps, by rw [List.flatMap_cons, List.append_assoc, hp], ?_⟩
    rw [hs, List.flatMap_cons, List.toByteArray_append, ByteArray.append_assoc]
  | case8 bytes c cs hq hn hb₁ hb₂ hb₃ ih =>
    have hb : c ≠ '\\' := by
      rintro rfl
      cases cs with
      | nil => exact hb₁ rfl rfl
      | cons c cs => exact hb₃ c cs rfl rfl
    obtain ⟨ps, rfl, hs⟩ := ih h
    refine ⟨.plain c ⟨hq, hb, hn⟩ :: ps, rfl, ?_⟩
    rw [hs, List.flatMap_cons, List.toByteArray_append, ByteArray.append_assoc]
    rfl
  | _ => simp at h

/-- **A literal is read exactly when pieces and a quote stand there**, whose bytes are those
of its text. -/
theorem decode_eq_ok_iff {cs rest : List Char} {s : String} :
    decode cs = .ok (s, rest) ↔
      ∃ ps : List Piece, cs = ps.flatMap Piece.text ++ '"' :: rest ∧
        s.toByteArray = (ps.flatMap Piece.bytes).toByteArray := by
  constructor
  · intro h
    obtain ⟨ps, hcs, hs⟩ := pieces_of_decodeFrom h
    exact ⟨ps, hcs, by simpa using hs⟩
  · rintro ⟨ps, rfl, hs⟩
    rw [decode, decodeFrom_pieces, ByteArray.empty_append, decodeFrom.eq_2,
      close_eq_ok_iff.2 hs]
    rfl

/-! ## Writing -/

theorem digit_digitChar {k : Nat} (h : k < 16) : digit? 16 (Nat.digitChar k) = some k := by
  have : ∀ k < 16, digit? 16 (Nat.digitChar k) = some k := by decide
  exact this k h

theorem utf8EncodeChar_ascii {c : Char} (h : c.toNat < 128) :
    String.utf8EncodeChar c = [UInt8.ofNat c.toNat] :=
  if_pos (Nat.le_of_lt_succ h)

/-- A character is written as one piece, which stands for it. -/
theorem encodeChar_piece (c : Char) :
    ∃ p : Piece, encodeChar c = p.text ∧ p.bytes = String.utf8EncodeChar c := by
  unfold encodeChar
  split
  · next l d hl =>
    have hd : d = c := by simpa using List.find?_some hl
    exact ⟨.letter l c (hd ▸ List.mem_of_find?_eq_some hl), rfl, rfl⟩
  · next hl =>
    have hno : ∀ p ∈ letters, p.2 ≠ c := by simpa using hl
    split
    · next hc =>
      have hlt : c.toNat < 128 := by omega
      refine ⟨.hexByte ⟨[Nat.digitChar (c.toNat / 16), Nat.digitChar (c.toNat % 16)], rfl, ?_⟩,
        rfl, ?_⟩
      · simp [digit_digitChar (show c.toNat / 16 < 16 by omega),
          digit_digitChar (show c.toNat % 16 < 16 by omega)]
      · simp [Piece.bytes, Digits.value, digit_digitChar (show c.toNat / 16 < 16 by omega),
          digit_digitChar (show c.toNat % 16 < 16 by omega), Nat.div_add_mod,
          utf8EncodeChar_ascii hlt]
    · exact ⟨.plain c ⟨(hno ('"', '"') (by decide)).symm, (hno ('\\', '\\') (by decide)).symm,
        (hno ('n', '\n') (by decide)).symm⟩, rfl, rfl⟩

/-- **What is written inside a literal is made of pieces**, with the bytes of the text. -/
theorem encode_pieces (s : String) :
    ∃ ps : List Piece, (encode s).toList = ps.flatMap Piece.text ∧
      s.toByteArray = (ps.flatMap Piece.bytes).toByteArray := by
  have key : ∀ cs : List Char, ∃ ps : List Piece, cs.flatMap encodeChar = ps.flatMap Piece.text ∧
      cs.flatMap String.utf8EncodeChar = ps.flatMap Piece.bytes := by
    intro cs
    induction cs with
    | nil => exact ⟨[], rfl, rfl⟩
    | cons c cs ih =>
      obtain ⟨p, hp, hb⟩ := encodeChar_piece c
      obtain ⟨ps, hps, hbs⟩ := ih
      exact ⟨p :: ps, by simp only [List.flatMap_cons, hp, hps], by
        simp only [List.flatMap_cons, hb, hbs]⟩
  obtain ⟨ps, hps, hbs⟩ := key s.toList
  exact ⟨ps, by rw [encode, String.toList_ofList, hps], by
    rw [← hbs, ← String.utf8Encode_toList]; rfl⟩

/-- What is written as a literal reads back. -/
theorem decode_encode (s : String) (rest : List Char) :
    decode ((encode s).toList ++ '"' :: rest) = .ok (s, rest) := by
  obtain ⟨ps, hps, hs⟩ := encode_pieces s
  exact decode_eq_ok_iff.2 ⟨ps, by rw [hps], hs⟩

end FlatLisp.Quoted
