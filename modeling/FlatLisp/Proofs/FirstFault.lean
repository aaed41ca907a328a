import FlatLisp.Proofs.StringLiterals

/-!
# Where lexing fails

A text is lexed in two passes. The first one cuts it, and fails at the first literal that is
malformed; it does not look into numerals. The second one reads the numerals from the left, and
comes to its turn only if all literals are whole. So a malformed literal is reported in spite of a
broken numeral in front of it, and the line is that of the opening quote, or of the numeral.

* `exists_malformed`: **the first pass fails at a malformed literal.**
* `exists_nonNumber`: **the second pass fails at the leftmost broken numeral.**
* `Quoted.Malformed.newline`: a malformed literal ends with its line, so what comes behind the line
  does not matter.
* `reports_first_fault`: the fault and the line of every lexing error.
-/

namespace FlatLisp

/-! ## Malformed literals -/

namespace Quoted

/-- What stands behind an opening quote is no literal: behind some pieces its line ends, or a
backslash stands before what is no escape, or it is closed and its bytes are no UTF-8. -/
def Malformed (cs : List Char) (fault : Fault) : Prop :=
  ∃ (ps : List Piece) (bad : List Char), cs = ps.flatMap Piece.text ++ bad ∧
    Breaks (denoted ps) bad fault

variable {cs : List Char} {fault : Fault}

theorem decode_eq_error_iff_malformed : decode cs = .error fault ↔ Malformed cs fault :=
  decode_eq_error_iff

theorem AtLineEnd.newline (h : AtLineEnd cs) (tail : List Char) : AtLineEnd (cs ++ '\n' :: tail) := by
  rcases atLineEnd_cases h with rfl | ⟨rest, rfl⟩ <;> simp [AtLineEnd]

/-- What is no escape does not become one behind the end of the line. -/
theorem BadEscape.newline (h : BadEscape cs fault) (tail : List Char) :
    BadEscape (cs ++ '\n' :: tail) fault := by
  cases h with
  | unknown c rest hl hd hx => exact .unknown c _ hl hd hx
  | @missing _ _ base _ _ hopen ds rest hk hrest hne =>
    -- a line end is no digit
    have hhead : (rest ++ '\n' :: tail).head?.bind (digit? base) = none := by
      cases rest with
      | nil => simp [digit?]
      | cons c rest => exact hrest
    simpa using BadEscape.missing hopen ds (rest ++ '\n' :: tail) hk hhead hne
  | octalTooLarge ds rest hv => simpa using BadEscape.octalTooLarge ds (rest ++ '\n' :: tail) hv
  | notScalar wide ds rest hv => simpa using BadEscape.notScalar wide ds (rest ++ '\n' :: tail) hv

theorem Breaks.newline {bytes : ByteArray} (h : Breaks bytes cs fault) (tail : List Char) :
    Breaks bytes (cs ++ '\n' :: tail) fault := by
  cases h with
  | notUtf8 rest hvalid => exact .notUtf8 _ hvalid
  | line _ hend => exact .line _ (hend.newline tail)
  | escapedLine cs hend => exact .escapedLine _ (hend.newline tail)
  | escape cs _ hc hbad =>
    refine .escape _ _ (fun hend => hc ?_) (hbad.newline tail)
    cases cs with
    | nil => simp [AtLineEnd]
    | cons c cs => exact hend

/-- **A malformed literal ends with its line**: more lines keep it as it is. -/
theorem Malformed.newline (h : Malformed cs fault) (tail : List Char) :
    Malformed (cs ++ '\n' :: tail) fault := by
  obtain ⟨ps, bad, rfl, hbad⟩ := h
  exact ⟨ps, bad ++ '\n' :: tail, by rw [List.append_assoc], hbad.newline tail⟩

end Quoted

/-! ## The places of faults -/

/-- The first malformed literal of a text. The lexer comes to its quote over separators and whole
lexemes; a run among these that starts with a digit need not be a number. -/
structure FirstMalformed (text before cs : List Char) (fault : Quoted.Fault) : Prop where
  text_eq : text = before ++ '"' :: cs
  comes : Lexeme.ComesTo before ('"' :: cs)
  malformed : Quoted.Malformed cs fault

/-- The leftmost run of a text that starts with a digit and is no number. -/
structure FirstNonNumber (text before w rest : List Char) : Prop where
  text_eq : text = before ++ (w ++ rest)
  comes : Lexeme.ComesTo before (w ++ rest)
  run : Run w
  boundary : Boundary rest
  digit : Token.isNumeral w = true
  not_number : ∀ x, ¬ TokenKind.Spelled w (.number x)
  /-- In front of it are tokens, and so all numbers there are whole. -/
  leftmost : ∃ d : Division, d.Valid ∧ d.text = before

theorem Boundary.of_append {cs ds : List Char} (h : Boundary (cs ++ ds)) : Boundary cs := by
  cases cs with
  | nil => exact .nil
  | cons c cs => exact h

/-- A run that starts with a digit is a number, or broken. -/
theorem Token.ofLexeme_numeral {w : List Char} (hd : isNumeral w = true) (line : Nat) :
    ofLexeme line (.word (String.ofList w)) = match readNumber? w with
      | some x => .ok ⟨.number x, String.ofList w, line⟩
      | none => .error ⟨line, .badNumeral (String.ofList w)⟩ := by
  simp only [ofLexeme, ofWord, String.toList_ofList, hd, if_true]
  cases readNumber? w <;> rfl

/-- Only runs that start with a digit are refused by the second pass. -/
theorem Token.broken_of_ofLexeme {w : List Char} {l : Lexeme} {line : Nat} {e : LexError}
    (hw : Lexeme.Spells w l) (h : ofLexeme line l = .error e) :
    l = .word (String.ofList w) ∧ Run w ∧ isNumeral w = true ∧ readNumber? w = none ∧
      e = ⟨line, .badNumeral (String.ofList w)⟩ := by
  cases hw with
  | word w hrun hq =>
    by_cases hd : isNumeral w = true
    · rw [ofLexeme_numeral hd] at h
      cases hx : readNumber? w with
      | some x => simp [hx] at h
      | none =>
        simp only [hx, Except.error.injEq] at h
        exact ⟨rfl, hrun, hd, rfl, h.symm⟩
    · have hd : isNumeral w = false := by simpa using hd
      simp only [ofLexeme, ofWord, String.toList_ofList, hd] at h
      cases hk : Keyword.ofWord? (String.ofList w) <;> simp [hk] at h
  | _ => simp [ofLexeme] at h

theorem TokenKind.not_spelled_number {w : List Char} (h : Token.readNumber? w = none) (x : Number) :
    ¬ Spelled w (.number x) := by
  intro hspell
  cases hspell with
  | number _ _ _ _ hx => exact absurd (hx.symm.trans h) (by simp)

namespace Lexeme

/-! ## The first pass -/

theorem ComesTo.append {before rest tail : List Char} (h : ComesTo before rest) (ht : Boundary tail) :
    ComesTo before (rest ++ tail) := by
  induction h with
  | here rest => exact .here _
  | separator hc _ ih => exact .separator hc ih
  | lexeme hw hb _ ih =>
    refine .lexeme hw (fun hl => ?_) ih
    rw [← List.append_assoc]
    exact (hb hl).append ht

end Lexeme

namespace FirstMalformed

variable {text before cs : List Char} {fault : Quoted.Fault}

/-- A malformed literal is reported, with the line of its quote. -/
theorem tokenize_eq (h : FirstMalformed text before cs fault) :
    tokenize (String.ofList text) = .error ⟨1 + before.count '\n', .badString fault⟩ := by
  rw [h.text_eq]
  exact h.comes.tokenize_eq_error (Quoted.decode_eq_error_iff_malformed.2 h.malformed)

theorem newline (h : FirstMalformed text before cs fault) (tail : List Char) :
    FirstMalformed (text ++ '\n' :: tail) before (cs ++ '\n' :: tail) fault where
  text_eq := by rw [h.text_eq, List.append_assoc, List.cons_append]
  comes := h.comes.append (.cons (by decide) tail)
  malformed := h.malformed.newline tail

theorem separator {c : Char} (hc : isSeparator c = true) (h : FirstMalformed text before cs fault) :
    FirstMalformed (c :: text) (c :: before) cs fault where
  text_eq := by rw [h.text_eq, List.cons_append]
  comes := .separator hc h.comes
  malformed := h.malformed

theorem lexeme {w : List Char} {l : Lexeme} (hw : l.Spells w) (hb : l.IsWord → Boundary text)
    (h : FirstMalformed text before cs fault) : FirstMalformed (w ++ text) (w ++ before) cs fault where
  text_eq := by rw [h.text_eq, List.append_assoc]
  comes := .lexeme hw (fun hl => h.text_eq ▸ hb hl) h.comes
  malformed := h.malformed

end FirstMalformed

/-- **The first pass fails at a malformed literal.** -/
theorem exists_malformed {text : List Char} {line : Nat} {e : LexError}
    (h : Lexeme.cut line text = .error e) : ∃ before cs fault, FirstMalformed text before cs fault := by
  induction text using Lexeme.cut_induction generalizing line e with
  | nil => exact absurd h (by simp [Lexeme.cut])
  | separator c cs hc ih =>
    rw [Lexeme.cut_separator hc] at h
    obtain ⟨before, cs, fault, hfirst⟩ := ih h
    exact ⟨_, _, _, hfirst.separator hc⟩
  | lexeme c cs l rest hc hnext ih =>
    obtain ⟨w, hw, hcs, hb⟩ := (Lexeme.next_eq_ok_iff hc).1 hnext
    rw [Lexeme.cut_lexeme hc hnext] at h
    cases hrest : Lexeme.cut line rest with
    | ok ls => simp [hrest, Except.map] at h
    | error e' =>
      obtain ⟨before, cs, fault, hfirst⟩ := ih hrest
      rw [hcs]
      exact ⟨_, _, _, hfirst.lexeme hw hb⟩
  | fault c cs bad hc hnext =>
    -- of the lexemes only a literal can be refused
    obtain ⟨rfl, hdecode⟩ : c = '"' ∧ Quoted.decode cs = .error bad := by
      unfold Lexeme.next at hnext
      split_ifs at hnext with hl hr hq
      refine ⟨hq, ?_⟩
      cases hd : Quoted.decode cs with
      | ok p => simp [hd, Except.map] at hnext
      | error fault => simpa [hd, Except.map] using hnext
    exact ⟨[], cs, bad, rfl, .here _, Quoted.decode_eq_error_iff_malformed.1 hdecode⟩

/-! ## The second pass -/

theorem scan_broken {line : Nat} {c : Char} {cs rest : List Char} {l : Lexeme} {e : LexError}
    {ls : List (Nat × Lexeme)} (hc : isSeparator c = false) (hnext : Lexeme.next c cs = .ok (l, rest))
    (he : Token.ofLexeme line l = .error e) (hrest : Lexeme.cut line rest = .ok ls) :
    scan line (c :: cs) = .error e := by
  rw [scan, Lexeme.cut_lexeme hc hnext, hrest]
  simp only [Except.map, Token.ofLexemes, he]

/-- The tokens in front come first, whatever follows. -/
theorem Lexeme.ComesTo.scan {before rest : List Char} (h : ComesTo before rest) {line : Nat}
    {ts : List Token} (hts : scan line before = .ok ts) :
    FlatLisp.scan line (before ++ rest) =
      (FlatLisp.scan (line + before.count '\n') rest).map (ts ++ ·) := by
  induction h generalizing line ts with
  | here rest =>
    obtain rfl := Except.ok.inj ((scan_nil line).symm.trans hts)
    cases hrest : FlatLisp.scan line rest <;> simp [hrest, Except.map]
  | @separator c before rest hc _ ih =>
    rw [scan_separator hc] at hts
    rw [List.cons_append, scan_separator hc, ih hts, Nat.add_assoc, ← List.count_append,
      List.singleton_append]
  | @lexeme w before rest l hw hb _ ih =>
    obtain ⟨c, w, rfl, hc⟩ := hw.cons
    -- the lexeme is the same one in front of `before` alone
    have hnext : next c (w ++ before) = .ok (l, before) :=
      (next_eq_ok_iff hc).2 ⟨c :: w, hw, rfl, fun hl => (hb hl).of_append⟩
    have hnext' : next c (w ++ (before ++ rest)) = .ok (l, before ++ rest) :=
      (next_eq_ok_iff hc).2 ⟨c :: w, hw, rfl, hb⟩
    cases ht : Token.ofLexeme line l with
    | error e => exact absurd hts (scan_fault hc hnext ht ts)
    | ok t =>
      rw [List.cons_append, scan_lexeme hc hnext ht] at hts
      obtain ⟨us, hus, rfl⟩ := of_map hts
      rw [List.append_assoc, List.cons_append, scan_lexeme hc hnext' ht, ih hus, List.count_append,
        hw.count_newline, Nat.zero_add]
      cases FlatLisp.scan (line + before.count '\n') rest <;> rfl

namespace FirstNonNumber

variable {text before w rest : List Char}

/-- If all literals are whole, a run that is no number is reported, with its line. -/
theorem scan_eq (h : FirstNonNumber text before w rest) {ls : List (Nat × Lexeme)}
    (hcut : Lexeme.cut 1 text = .ok ls) :
    scan 1 text = .error ⟨1 + before.count '\n', .badNumeral (String.ofList w)⟩ := by
  obtain ⟨c, cs, rfl⟩ := List.exists_cons_of_ne_nil h.run.1
  have hspells : Lexeme.Spells (c :: cs) (.word (String.ofList (c :: cs))) :=
    .word _ h.run (Token.head_of_isNumeral h.digit)
  have hc : isSeparator c = false := by
    obtain ⟨_, _, heq, hc⟩ := hspells.cons
    rw [(List.cons.inj heq).1]
    exact hc
  have hnext : Lexeme.next c (cs ++ rest) = .ok (.word (String.ofList (c :: cs)), rest) :=
    (Lexeme.next_eq_ok_iff hc).2 ⟨_, hspells, rfl, fun _ => h.boundary⟩
  -- what follows the run is cut without a fault
  obtain ⟨ls', hls'⟩ := h.comes.cut 1
  rw [← h.text_eq, hcut] at hls'
  obtain ⟨_, hword, -⟩ := of_map hls'.symm
  rw [List.cons_append, Lexeme.cut_lexeme hc hnext] at hword
  obtain ⟨_, hrest, -⟩ := of_map hword
  have hread : Token.readNumber? (c :: cs) = none :=
    Option.eq_none_iff_forall_ne_some.2 fun x hx => h.not_number x (.number _ x h.run h.digit hx)
  have hbroken : Token.ofLexeme (1 + before.count '\n') (.word (String.ofList (c :: cs))) =
      .error ⟨1 + before.count '\n', .badNumeral (String.ofList (c :: cs))⟩ := by
    rw [Token.ofLexeme_numeral h.digit, hread]
  -- in front of it are tokens
  obtain ⟨d, ⟨hindent, hparts⟩, hd⟩ := h.leftmost
  have hbefore : scan 1 before = .ok d.tokens := by
    rw [← hd, Division.text, scan_gap hindent]
    exact Division.scan_textOf hparts d.indent
  rw [h.text_eq, h.comes.scan hbefore, List.cons_append, scan_broken hc hnext hbroken hrest]
  rfl

theorem separator {c : Char} (hc : isSeparator c = true) (h : FirstNonNumber text before w rest) :
    FirstNonNumber (c :: text) (c :: before) w rest where
  text_eq := by rw [h.text_eq, List.cons_append]
  comes := .separator hc h.comes
  run := h.run
  boundary := h.boundary
  digit := h.digit
  not_number := h.not_number
  leftmost := by
    obtain ⟨⟨indent, parts⟩, ⟨hindent, hparts⟩, hd⟩ := h.leftmost
    refine ⟨⟨c :: indent, parts⟩, ⟨fun c' hc' => ?_, hparts⟩, by simp [← hd, Division.text]⟩
    rcases List.mem_cons.1 hc' with rfl | hc'
    · exact hc
    · exact hindent c' hc'

theorem lexeme {v : List Char} {l : Lexeme} {t : Token} {line : Nat} (hv : l.Spells v)
    (ht : Token.ofLexeme line l = .ok t) (hb : l.IsWord → Boundary text)
    (h : FirstNonNumber text before w rest) : FirstNonNumber (v ++ text) (v ++ before) w rest where
  text_eq := by rw [h.text_eq, List.append_assoc]
  comes := .lexeme hv (fun hl => h.text_eq ▸ hb hl) h.comes
  run := h.run
  boundary := h.boundary
  digit := h.digit
  not_number := h.not_number
  leftmost := by
    obtain ⟨⟨gap, parts⟩, ⟨hgap, hparts⟩, hd⟩ := h.leftmost
    obtain ⟨hspelled, hrun, -⟩ := TokenKind.spelled_of_lexeme hv ht gap
    have hbefore : gap ++ Division.textOf parts = before := hd
    refine ⟨⟨[], ⟨t.kind, v, gap⟩ :: parts⟩, ⟨by simp [Gap], hspelled, hgap, fun hk => ?_, hparts⟩, ?_⟩
    · rw [hbefore]
      exact (h.text_eq ▸ hb (hrun.2 hk)).of_append
    · simp [Division.text, Division.textOf, ← hbefore]

end FirstNonNumber

/-- **The second pass fails at the leftmost broken numeral.** -/
theorem exists_nonNumber {text : List Char} {line : Nat} {ls : List (Nat × Lexeme)} {e : LexError}
    (hcut : Lexeme.cut line text = .ok ls) (h : scan line text = .error e) :
    ∃ before w rest, FirstNonNumber text before w rest := by
  induction text using Lexeme.cut_induction generalizing line ls e with
  | nil => exact absurd h (by simp)
  | separator c cs hc ih =>
    rw [Lexeme.cut_separator hc] at hcut
    rw [scan_separator hc] at h
    obtain ⟨before, w, rest, hfirst⟩ := ih hcut h
    exact ⟨_, _, _, hfirst.separator hc⟩
  | lexeme c cs l rest hc hnext ih =>
    obtain ⟨w, hw, hcs, hb⟩ := (Lexeme.next_eq_ok_iff hc).1 hnext
    rw [Lexeme.cut_lexeme hc hnext] at hcut
    obtain ⟨ls, hrest, -⟩ := of_map hcut
    rw [hcs]
    cases ht : Token.ofLexeme line l with
    | ok t =>
      rw [scan_lexeme hc hnext ht] at h
      cases hscan : scan line rest with
      | ok ts => simp [hscan, Except.map] at h
      | error e' =>
        obtain ⟨before, w, rest, hfirst⟩ := ih hrest hscan
        exact ⟨_, _, _, hfirst.lexeme hw ht hb⟩
    | error e' =>
      obtain ⟨rfl, hrun, hd, hread, -⟩ := Token.broken_of_ofLexeme hw ht
      exact ⟨[], w, rest, rfl, .here _, hrun, hb trivial, hd, TokenKind.not_spelled_number hread,
        ⟨[], []⟩, ⟨by simp [Gap], trivial⟩, rfl⟩
  | fault c cs e' hc hnext =>
    rw [Lexeme.cut_fault hc hnext] at hcut
    exact absurd hcut (by simp)

/-! ## All lexing errors -/

/-- **A lexing error points at the first malformed literal**, whatever numerals stand in front of
it, and more lines do not change it. If no literal is malformed, the error points at the leftmost
run that starts with a digit and is no number, and quotes this run. -/
theorem reports_first_fault {source : String} {e : LexError} (h : tokenize source = .error e) :
    (∀ before cs fault, FirstMalformed source.toList before cs fault →
      e = ⟨1 + before.count '\n', .badString fault⟩ ∧
        ∀ tail : String, tokenize (source ++ "\n" ++ tail) = .error e) ∧
    ((∀ before cs fault, ¬ FirstMalformed source.toList before cs fault) →
      (∃ before w rest, FirstNonNumber source.toList before w rest) ∧
        ∀ before w rest, FirstNonNumber source.toList before w rest →
          e = ⟨1 + before.count '\n', .badNumeral (String.ofList w)⟩ ∧
            e.fault.message = "'" ++ String.ofList w ++ "' is not a number") := by
  refine ⟨fun before cs fault hfirst => ?_, fun hwhole => ?_⟩
  · have he := hfirst.tokenize_eq
    rw [String.ofList_toList, h] at he
    obtain rfl := Except.error.inj he
    refine ⟨rfl, fun tail => ?_⟩
    have htail := (hfirst.newline tail.toList).tokenize_eq
    rw [← htail]
    congr 1
    apply String.toList_injective
    simp
  · obtain ⟨ls, hcut⟩ : ∃ ls, Lexeme.cut 1 source.toList = .ok ls := by
      cases hcut : Lexeme.cut 1 source.toList with
      | ok ls => exact ⟨ls, rfl⟩
      | error e' =>
        obtain ⟨before, cs, fault, hfirst⟩ := exists_malformed hcut
        exact absurd hfirst (hwhole before cs fault)
    refine ⟨exists_nonNumber hcut h, fun before w rest hfirst => ?_⟩
    obtain rfl := Except.error.inj (h.symm.trans (hfirst.scan_eq hcut))
    exact ⟨rfl, rfl⟩

/-- A broken numeral behind a parenthesis, and one in front of a literal that its line cuts short. -/
theorem reports_first_fault_numeral :
    (∃ e, tokenize "\n(2x" = .error e ∧ e.line = 2 ∧ e.fault.message = "'2x' is not a number") ∧
      ∃ e, tokenize "2x\n\"a" = .error e ∧ e.line = 2 ∧
        ∀ tail : String, tokenize ("2x\n\"a" ++ "\n" ++ tail) = .error e := by
  have hrun : Run ['2', 'x'] := ⟨by simp, by simp [isDelimiter, isSeparator]⟩
  have hword : Lexeme.Spells ['2', 'x'] (.word "2x") := .word _ hrun (by decide)
  have hread : Token.readNumber? ['2', 'x'] = none := by rfl
  constructor
  · have hcut : Lexeme.cut 1 "\n(2x".toList = .ok [(2, .leftParen), (2, .word "2x")] := by cbv
    have h : tokenize "\n(2x" = .error ⟨2, .badNumeral "2x"⟩ := by
      rw [tokenize, hcut]
      rfl
    have hwhole : ∀ before cs fault, ¬ FirstMalformed "\n(2x".toList before cs fault := by
      intro before cs fault hfirst
      have he := hfirst.tokenize_eq
      rw [String.ofList_toList, h] at he
      simp at he
    have hfirst : FirstNonNumber "\n(2x".toList ['\n', '('] ['2', 'x'] [] :=
      { text_eq := rfl
        comes := .separator rfl (.lexeme .leftParen False.elim (.here _))
        run := hrun
        boundary := .nil
        digit := rfl
        not_number := TokenKind.not_spelled_number hread
        leftmost := ⟨⟨['\n'], [⟨.leftParen, ['('], []⟩]⟩,
          ⟨by simp [Gap, isSeparator], .leftParen, by simp [Gap], False.elim, trivial⟩, rfl⟩ }
    obtain ⟨he, hmessage⟩ := ((reports_first_fault h).2 hwhole).2 _ _ _ hfirst
    exact ⟨_, h, rfl, hmessage⟩
  · have hfirst : FirstMalformed "2x\n\"a".toList ['2', 'x', '\n'] ['a']
        (Quoted.unterminated (Quoted.denoted [.plain 'a' (by decide)])) :=
      { text_eq := rfl
        comes := .lexeme hword (fun _ => .cons (by decide) _) (.separator rfl (.here _))
        malformed := ⟨[.plain 'a' (by decide)], [], rfl, .line [] (by simp [Quoted.AtLineEnd])⟩ }
    have h := hfirst.tokenize_eq
    rw [String.ofList_toList] at h
    exact ⟨_, h, rfl, ((reports_first_fault h).1 _ _ _ hfirst).2⟩

end FlatLisp
