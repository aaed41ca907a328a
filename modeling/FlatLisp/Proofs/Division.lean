import FlatLisp.Proofs.Lexing
import Mathlib.Data.Set.Function

/-!
# How a text divides into tokens

A division of a text is a gap and then lexemes, each with a gap behind it (`Division`). It is
valid when the gaps consist of separators, each lexeme spells its token, and each run goes on
to a delimiter or to the end of the text. A token stands on the line that the line ends in
front of its lexeme count to.

* `Division.scan_textOf`: the parts of a valid division are what is scanned.
* `Division.exists_parts`: what is scanned is a valid division of the text.
* `tokenize_exact`: **a text has tokens exactly when they are those of a valid division of
  it**, and it has no other division.
-/

namespace FlatLisp

/-! ## Divisions -/

/-- The text `w` spells a token of the given kind. -/
inductive TokenKind.Spelled : List Char → TokenKind → Prop
  | leftParen : Spelled ['('] .leftParen
  | rightParen : Spelled [')'] .rightParen
  | string (ps : List Quoted.Piece) (s : String)
    (h : s.toByteArray = (ps.flatMap Quoted.Piece.bytes).toByteArray) :
    Spelled ('"' :: ps.flatMap Quoted.Piece.text ++ ['"']) (.string s)
  | number (w : List Char) (x : Number) (h : Run w) (hd : Token.isNumeral w = true)
    (hx : Token.readNumber? w = some x) : Spelled w (.number x)
  | keyword (k : Keyword) : Spelled k.word.toList (.keyword k)
  | symbol (w : List Char) (h : Run w) (hd : Token.isNumeral w = false)
    (hq : w.head? ≠ some '"') (hk : ∀ k : Keyword, w ≠ k.word.toList) :
    Spelled w (.symbol (String.ofList w))

/-- A token that is a run, which only a delimiter ends. -/
def TokenKind.IsRun : TokenKind → Prop
  | .symbol _ | .keyword _ | .number _ => True
  | .leftParen | .rightParen | .string _ => False

/-- A lexeme, the kind of its token, and the gap behind it. -/
structure Part where
  kind : TokenKind
  text : List Char
  gap : List Char

/-- The source that the token of a part keeps: of a string the text that it denotes. -/
def Part.source (p : Part) : String :=
  match p.kind with
  | .string s => s
  | _ => String.ofList p.text

namespace Division

/-- The text of parts in a row. -/
def textOf (ps : List Part) : List Char := ps.flatMap fun p => p.text ++ p.gap

/-- The parts are lexemes and gaps, and no lexeme is only the start of a run. -/
def ValidParts : List Part → Prop
  | [] => True
  | p :: ps => TokenKind.Spelled p.text p.kind ∧ Gap p.gap ∧
      (p.kind.IsRun → Boundary (p.gap ++ textOf ps)) ∧ ValidParts ps

/-- The tokens of parts behind the text `before`. -/
def tokensAfter (before : List Char) : List Part → List Token
  | [] => []
  | p :: ps => ⟨p.kind, p.source, 1 + before.count '\n'⟩ ::
      tokensAfter (before ++ (p.text ++ p.gap)) ps

end Division

/-- A text cut into lexemes: the gap in front, and the parts. -/
structure Division where
  indent : List Char
  parts : List Part

namespace Division

def text (d : Division) : List Char := d.indent ++ textOf d.parts

def Valid (d : Division) : Prop := Gap d.indent ∧ ValidParts d.parts

def tokens (d : Division) : List Token := tokensAfter d.indent d.parts

end Division

/-! ## Lexemes and tokens -/

theorem Keyword.ofWord_word (k : Keyword) : Keyword.ofWord? k.word = some k := by
  cases k <;> decide

theorem Keyword.word_of_ofWord {w : String} {k : Keyword} (h : Keyword.ofWord? w = some k) :
    k.word = w := by
  simpa using List.find?_some h

theorem Keyword.ne_word_of_ofWord {w : String} (h : Keyword.ofWord? w = none) (k : Keyword) :
    w ≠ k.word := by
  rintro rfl
  exact absurd (k.ofWord_word.symm.trans h) (by simp)

theorem Keyword.ofWord_of_ne {w : String} (h : ∀ k : Keyword, w ≠ k.word) :
    Keyword.ofWord? w = none := by
  cases hk : Keyword.ofWord? w with
  | none => rfl
  | some k => exact absurd (Keyword.word_of_ofWord hk).symm (h k)

theorem Keyword.run_word (k : Keyword) : Run k.word.toList := by
  have hall : k.word.toList.all (fun c => !isDelimiter c) = true := by cases k <;> decide
  refine ⟨by cases k <;> decide, fun c hc => ?_⟩
  simpa using List.all_eq_true.1 hall c hc

theorem Token.head_of_isNumeral {w : List Char} (h : isNumeral w = true) : w.head? ≠ some '"' := by
  intro hq
  rw [isNumeral, hq] at h
  exact absurd h (by decide)

/-- The spelling of a token is that of a lexeme that makes such a token. -/
theorem TokenKind.Spelled.exists_lexeme {w : List Char} {k : TokenKind} (h : Spelled w k)
    (gap : List Char) (line : Nat) :
    ∃ l, Lexeme.Spells w l ∧ (l.IsWord ↔ k.IsRun) ∧
      Token.ofLexeme line l = .ok ⟨k, Part.source ⟨k, w, gap⟩, line⟩ := by
  cases h with
  | leftParen => exact ⟨_, .leftParen, .rfl, rfl⟩
  | rightParen => exact ⟨_, .rightParen, .rfl, rfl⟩
  | string ps s h => exact ⟨_, .string ps s h, .rfl, rfl⟩
  | number w x h hd hx =>
    exact ⟨_, .word w h (Token.head_of_isNumeral hd), .rfl, by
      simp [Token.ofLexeme, Token.ofWord, hd, hx, Part.source]⟩
  | keyword k =>
    have hd : Token.isNumeral k.word.toList = false := by cases k <;> decide
    have hq : k.word.toList.head? ≠ some '"' := by cases k <;> decide
    exact ⟨_, .word _ k.run_word hq, .rfl, by
      simp [Token.ofLexeme, Token.ofWord, hd, k.ofWord_word, Part.source]⟩
  | symbol w h hd hq hk =>
    have hk : Keyword.ofWord? (String.ofList w) = none :=
      Keyword.ofWord_of_ne fun k hw => hk k (by rw [← hw, String.toList_ofList])
    exact ⟨_, .word w h hq, .rfl, by simp [Token.ofLexeme, Token.ofWord, hd, hk, Part.source]⟩

/-- A token that a lexeme makes is spelled as the lexeme is. -/
theorem TokenKind.spelled_of_lexeme {w : List Char} {l : Lexeme} {t : Token} {line : Nat}
    (h : Lexeme.Spells w l) (ht : Token.ofLexeme line l = .ok t) (gap : List Char) :
    Spelled w t.kind ∧ (l.IsWord ↔ t.kind.IsRun) ∧ t = ⟨t.kind, Part.source ⟨t.kind, w, gap⟩, line⟩ := by
  cases h with
  | leftParen => obtain rfl := Except.ok.inj ht; exact ⟨.leftParen, .rfl, rfl⟩
  | rightParen => obtain rfl := Except.ok.inj ht; exact ⟨.rightParen, .rfl, rfl⟩
  | string ps s h => obtain rfl := Except.ok.inj ht; exact ⟨.string ps s h, .rfl, rfl⟩
  | word w h hq =>
    simp only [Token.ofLexeme, Token.ofWord, String.toList_ofList] at ht
    by_cases hd : Token.isNumeral w = true
    · cases hx : Token.readNumber? w with
      | none => simp [hd, hx] at ht
      | some x =>
        obtain rfl : _ = t := by simpa [hd, hx] using ht
        exact ⟨.number w x h hd hx, .rfl, rfl⟩
    · have hd : Token.isNumeral w = false := by simpa using hd
      cases hk : Keyword.ofWord? (String.ofList w) with
      | some k =>
        obtain rfl : _ = t := by simpa [hd, hk] using ht
        obtain rfl : w = k.word.toList := by rw [Keyword.word_of_ofWord hk, String.toList_ofList]
        exact ⟨.keyword k, .rfl, rfl⟩
      | none =>
        obtain rfl : _ = t := by simpa [hd, hk] using ht
        refine ⟨.symbol w h hd hq ?_, .rfl, rfl⟩
        rintro k rfl
        exact Keyword.ne_word_of_ofWord hk k String.ofList_toList

/-! ## Divisions are scanned -/

theorem scan_gap {w : List Char} (hw : Gap w) (line : Nat) (cs : List Char) :
    scan line (w ++ cs) = scan (line + w.count '\n') cs := by
  induction w generalizing line with
  | nil => rfl
  | cons c w ih =>
    rw [List.cons_append, scan_separator (hw c (by simp)), ih fun d hd => hw d (by simp [hd]),
      Nat.add_assoc, ← List.count_append, List.singleton_append]

namespace Division

/-- **The parts of a valid division are what is scanned.** -/
theorem scan_textOf {ps : List Part} (h : ValidParts ps) (before : List Char) :
    scan (1 + before.count '\n') (textOf ps) = .ok (tokensAfter before ps) := by
  induction ps generalizing before with
  | nil => exact scan_nil _
  | cons p ps ih =>
    obtain ⟨hspell, hgap, hmax, hps⟩ := h
    obtain ⟨l, hl, hrun, ht⟩ := hspell.exists_lexeme p.gap (1 + before.count '\n')
    obtain ⟨c, cs, hcs, hc⟩ := hl.cons
    have htext : textOf (p :: ps) = c :: (cs ++ (p.gap ++ textOf ps)) := by
      simp [textOf, hcs]
    have hnext : Lexeme.next c (cs ++ (p.gap ++ textOf ps)) = .ok (l, p.gap ++ textOf ps) :=
      (Lexeme.next_eq_ok_iff hc).2 ⟨p.text, hl, by simp [hcs], fun hw => hmax (hrun.1 hw)⟩
    have hline : 1 + before.count '\n' + p.gap.count '\n' =
        1 + (before ++ (p.text ++ p.gap)).count '\n' := by
      simp [List.count_append, hl.count_newline, Nat.add_assoc]
    rw [htext, scan_lexeme hc hnext ht, scan_gap hgap, hline, ih hps]
    rfl

/-! ## What is scanned is a division -/

/-- **What is scanned is a valid division of the text.** -/
theorem exists_parts {cs before : List Char} {ts : List Token}
    (h : scan (1 + before.count '\n') cs = .ok ts) :
    ∃ w ps, Gap w ∧ ValidParts ps ∧ cs = w ++ textOf ps ∧ ts = tokensAfter (before ++ w) ps := by
  induction cs using Lexeme.cut_induction generalizing before ts with
  | nil =>
    rw [scan_nil] at h
    exact ⟨[], [], by simp [Gap], trivial, rfl, (Except.ok.inj h).symm⟩
  | separator c cs hc ih =>
    rw [scan_separator hc, Nat.add_assoc, ← List.count_append] at h
    obtain ⟨w, ps, hw, hps, rfl, rfl⟩ := ih h
    refine ⟨c :: w, ps, ?_, hps, rfl, by simp⟩
    intro d hd
    rcases List.mem_cons.1 hd with rfl | hd
    · exact hc
    · exact hw d hd
  | lexeme c cs l rest hc hnext ih =>
    obtain ⟨w, hw, hcs, hmax⟩ := (Lexeme.next_eq_ok_iff hc).1 hnext
    cases ht : Token.ofLexeme (1 + before.count '\n') l with
    | error e => exact absurd h (scan_fault hc hnext ht ts)
    | ok t =>
      rw [scan_lexeme hc hnext ht] at h
      obtain ⟨ts, hts, rfl⟩ := of_map h
      have hline : before.count '\n' = (before ++ w).count '\n' := by
        rw [List.count_append, hw.count_newline, Nat.add_zero]
      rw [hline] at hts
      obtain ⟨gap, ps, hgap, hps, rfl, rfl⟩ := ih hts
      obtain ⟨hspell, hrun, hsource⟩ := TokenKind.spelled_of_lexeme hw ht gap
      refine ⟨[], ⟨t.kind, w, gap⟩ :: ps, by simp [Gap], ⟨hspell, hgap, ?_, hps⟩, ?_, ?_⟩
      · exact fun h => hmax (hrun.2 h)
      · simp [hcs, textOf]
      · rw [hsource]
        simp [tokensAfter]
  | fault c cs e hc hnext =>
    rw [scan, Lexeme.cut_fault hc hnext] at h
    exact absurd h (by simp)

/-- A text with tokens has a valid division with these tokens. -/
theorem exists_division {source : String} {ts : List Token} (h : tokenize source = .ok ts) :
    ∃ d : Division, d.Valid ∧ d.text = source.toList ∧ d.tokens = ts := by
  have h : scan (1 + [].count '\n') source.toList = .ok ts := h
  obtain ⟨w, ps, hw, hps, hcs, rfl⟩ := exists_parts h
  exact ⟨⟨w, ps⟩, ⟨hw, hps⟩, hcs.symm, rfl⟩

/-- The tokens of a valid division are spelled. -/
theorem spelled_of_mem {ps : List Part} (h : ValidParts ps) {before : List Char} {k : TokenKind}
    (hk : k ∈ (tokensAfter before ps).map Token.kind) : ∃ w, TokenKind.Spelled w k := by
  induction ps generalizing before with
  | nil => exact absurd hk (by simp [tokensAfter])
  | cons p ps ih =>
    rcases List.mem_cons.1 hk with rfl | hk
    · exact ⟨p.text, h.1⟩
    · exact ih h.2.2.2 hk

/-! ## The text determines the division -/

/-- The text behind a gap does not start with a separator. -/
theorem textOf_head {ps : List Part} (h : ValidParts ps) :
    textOf ps = [] ∧ ps = [] ∨ ∃ c cs, textOf ps = c :: cs ∧ isSeparator c = false := by
  cases ps with
  | nil => exact .inl ⟨rfl, rfl⟩
  | cons p ps =>
    obtain ⟨l, hl, -⟩ := h.1.exists_lexeme p.gap 0
    obtain ⟨c, cs, hcs, hc⟩ := hl.cons
    exact .inr ⟨c, cs ++ (p.gap ++ textOf ps), by simp [textOf, hcs], hc⟩

theorem gap_unique {w w' : List Char} {ps ps' : List Part} (hw : Gap w) (hw' : Gap w')
    (hps : ValidParts ps) (hps' : ValidParts ps') (h : w ++ textOf ps = w' ++ textOf ps') :
    w = w' ∧ textOf ps = textOf ps' := by
  -- the gap is what the separators in front make up
  have htake : ∀ {w : List Char} {ps : List Part}, Gap w → ValidParts ps →
      (w ++ textOf ps).takeWhile isSeparator = w := by
    intro w ps hw hps
    rw [List.takeWhile_append_of_pos hw]
    rcases textOf_head hps with ⟨hnil, -⟩ | ⟨c, cs, hcs, hc⟩
    · simp [hnil]
    · simp [hcs, hc]
  have hww : w = w' := by rw [← htake hw hps, h, htake hw' hps']
  exact ⟨hww, List.append_cancel_left (hww ▸ h)⟩

/-- **The text determines the parts.** -/
theorem parts_unique {w w' : List Char} {ps ps' : List Part} (hw : Gap w) (hw' : Gap w')
    (hps : ValidParts ps) (hps' : ValidParts ps') (h : w ++ textOf ps = w' ++ textOf ps') :
    w = w' ∧ ps = ps' := by
  induction ps generalizing w w' ps' with
  | nil =>
    obtain ⟨rfl, ht⟩ := gap_unique hw hw' hps hps' h
    rcases textOf_head hps' with ⟨-, rfl⟩ | ⟨c, cs, hcs, -⟩
    · exact ⟨rfl, rfl⟩
    · exact absurd (ht.trans hcs) (by simp [textOf])
  | cons p ps ih =>
    obtain ⟨rfl, ht⟩ := gap_unique hw hw' hps hps' h
    cases ps' with
    | nil =>
      obtain ⟨c, cs, hcs, -⟩ := (textOf_head hps).resolve_left (by simp)
      exact absurd (hcs.symm.trans ht) (by simp [textOf])
    | cons p' ps' =>
      obtain ⟨hspell, hgap, hmax, hps⟩ := hps
      obtain ⟨hspell', hgap', hmax', hps'⟩ := hps'
      obtain ⟨l, hl, hrun, hmake⟩ := hspell.exists_lexeme p.gap 0
      obtain ⟨l', hl', hrun', hmake'⟩ := hspell'.exists_lexeme p'.gap 0
      obtain ⟨c, cs, hcs, hc⟩ := hl.cons
      -- both lexemes are the one that comes next
      have hnext : Lexeme.next c (cs ++ (p.gap ++ textOf ps)) = .ok (l, p.gap ++ textOf ps) :=
        (Lexeme.next_eq_ok_iff hc).2 ⟨p.text, hl, by simp [hcs], fun hw => hmax (hrun.1 hw)⟩
      have hnext' : Lexeme.next c (cs ++ (p.gap ++ textOf ps)) = .ok (l', p'.gap ++ textOf ps') := by
        refine (Lexeme.next_eq_ok_iff hc).2 ⟨p'.text, hl', ?_, fun hw => hmax' (hrun'.1 hw)⟩
        simpa [textOf, hcs] using ht
      obtain ⟨rfl, hrest⟩ := Prod.mk.inj (Except.ok.inj (hnext.symm.trans hnext'))
      have htext : p.text = p'.text := by
        have h : p.text ++ (p.gap ++ textOf ps) = p'.text ++ (p'.gap ++ textOf ps') := by
          simpa [textOf] using ht
        exact List.append_cancel_right (hrest ▸ h)
      have hkind : p.kind = p'.kind :=
        congrArg Token.kind (Except.ok.inj (hmake.symm.trans hmake'))
      obtain ⟨hgaps, rfl⟩ := ih hgap hgap' hps hps' hrest
      exact ⟨rfl, by cases p; cases p'; simp_all⟩

end Division

/-- **A text has tokens exactly when they are those of a valid division of it**, and a text
has no two valid divisions. -/
theorem tokenize_exact :
    (∀ (source : String) (ts : List Token), tokenize source = .ok ts ↔
        ∃ d : Division, d.Valid ∧ d.text = source.toList ∧ d.tokens = ts) ∧
      Set.InjOn Division.text {d | d.Valid} := by
  refine ⟨fun source ts => ⟨Division.exists_division, ?_⟩, ?_⟩
  · rintro ⟨d, ⟨hw, hps⟩, htext, rfl⟩
    rw [tokenize_eq_scan, ← htext, Division.text, scan_gap hw]
    exact Division.scan_textOf hps d.indent
  · rintro ⟨w, ps⟩ ⟨hw, hps⟩ ⟨w', ps'⟩ ⟨hw', hps'⟩ h
    obtain ⟨rfl, rfl⟩ := Division.parts_unique hw hw' hps hps' h
    rfl

end FlatLisp
