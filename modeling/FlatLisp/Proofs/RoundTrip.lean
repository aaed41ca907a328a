import FlatLisp.Form.Printer
import FlatLisp.Proofs.Division
import FlatLisp.Proofs.Grammar
import FlatLisp.Proofs.Numerals

/-!
# Printed forms read back

A form is well formed when its names are words that stand for themselves (`IsName`) and its
numbers are finite and without sign. `Writes cs ks` says that the text `cs` has tokens of the
kinds `ks`; behind a boundary such texts may follow each other.

* `wellFormed_of_flat`: what is read from a program is well formed, since its tokens are.
* `writes_form`: **the text of a well-formed form has the tokens of the form.**
* `round_trip`: reading gives well-formed forms, and the texts of well-formed forms, kept apart
  by separators, are read as these forms.
-/

namespace FlatLisp

/-! ## Well-formed forms -/

/-- A word that is read as a symbol. -/
structure IsName (n : String) : Prop where
  nonempty : n ≠ ""
  ne_keyword : ∀ k : Keyword, n ≠ k.word
  not_digit : Token.isNumeral n.toList = false
  not_quote : n.toList.head? ≠ some '"'
  not_delimiter : ∀ c ∈ n.toList, isDelimiter c = false

/-- Any string, or a finite number without sign: what can be written as a literal. -/
def Value.WellFormed : Value → Prop
  | .number x => x.isFinite = true ∧ x.negative = false
  | .string _ => True
  | _ => False

mutual

/-- All names are words and all literals can be written. -/
def Form.WellFormed : Form → Prop
  | .literal v => v.WellFormed
  | .symbol name => IsName name
  | .apply items => Form.AllWellFormed items
  | .assign target value => IsName target ∧ value.WellFormed
  | .branch test yes no => test.WellFormed ∧ yes.WellFormed ∧ no.WellFormed
  | .whileLoop test body => test.WellFormed ∧ Form.AllWellFormed body
  | .forLoop start test step body =>
    start.WellFormed ∧ test.WellFormed ∧ step.WellFormed ∧ Form.AllWellFormed body
  | .define name params body => IsName name ∧ (∀ p ∈ params, IsName p) ∧ Form.AllWellFormed body

/-- All forms of a list are well formed. -/
def Form.AllWellFormed : List Form → Prop
  | [] => True
  | f :: fs => f.WellFormed ∧ Form.AllWellFormed fs

end

theorem Form.allWellFormed_iff {fs : List Form} : AllWellFormed fs ↔ ∀ f ∈ fs, f.WellFormed := by
  induction fs with
  | nil => simp [AllWellFormed]
  | cons f fs ih => simp [AllWellFormed, ih]

/-! ## What is read is well formed -/

/-- A token of a form that is well formed. -/
def TokenKind.Plain : TokenKind → Prop
  | .symbol n => IsName n
  | .number x => x.isFinite = true ∧ x.negative = false
  | _ => True

/-- Only plain tokens are spelled. -/
theorem TokenKind.Spelled.plain {w : List Char} {k : TokenKind} (h : Spelled w k) : k.Plain := by
  cases h with
  | number w x _ _ hx => exact Token.finite_of_readNumber? hx
  | symbol w h hd hq hk =>
    have hw : (String.ofList w).toList = w := String.toList_ofList
    refine ⟨fun he => h.1 (by rw [← hw, he]; rfl), fun k he => hk k (by rw [← hw, he]), ?_, ?_, ?_⟩ <;>
      rw [hw]
    · exact hd
    · exact hq
    · exact h.2
  | _ => exact trivial

theorem IsName.run {n : String} (h : IsName n) : Run n.toList :=
  ⟨fun he => h.nonempty (String.toList_eq_nil_iff.1 he), h.not_delimiter⟩

/-- A name spells itself. -/
theorem IsName.spelled {n : String} (h : IsName n) : TokenKind.Spelled n.toList (.symbol n) := by
  have := TokenKind.Spelled.symbol n.toList h.run h.not_digit h.not_quote
    fun k he => h.ne_keyword k (String.toList_inj.1 he)
  rwa [String.ofList_toList] at this

/-- A literal is spelled by its text. -/
theorem Value.WellFormed.spelled : ∀ {v : Value}, v.WellFormed →
    TokenKind.Spelled v.literalText.toList v.token
  | .number x, h => by
    have hread := Token.readNumber?_text h.1 h.2
    obtain ⟨d, hd, -⟩ := Option.map_eq_some_iff.1 (Option.filter_eq_some_iff.1 hread).1
    obtain ⟨hrun, hdigit⟩ := Decimal.run_of_read? hd
    have htext : (Value.number x).literalText = x.text := by
      simp [Value.literalText, Value.text, Value.write, Atom.text]
    rw [htext]
    exact .number _ x hrun hdigit hread
  | .string s, _ => by
    obtain ⟨ps, hps, hs⟩ := Quoted.encode_pieces s
    have htext : (Value.string s).literalText.toList = '"' :: ps.flatMap Quoted.Piece.text ++ ['"'] := by
      simp [Value.literalText, hps]
    rw [htext]
    exact .string ps s hs

theorem Value.WellFormed.textual : ∀ {v : Value}, v.WellFormed → v.Textual
  | .number _, _ => trivial
  | .string _, _ => trivial

mutual

theorem Form.textual_of_wellFormed : ∀ f : Form, f.WellFormed → f.Textual
  | .literal _, h => Value.WellFormed.textual h
  | .symbol _, _ => trivial
  | .apply items, h => allTextual_of_wellFormed items h
  | .assign _ value, h => textual_of_wellFormed value h.2
  | .branch test yes no, h =>
    ⟨textual_of_wellFormed test h.1, textual_of_wellFormed yes h.2.1, textual_of_wellFormed no h.2.2⟩
  | .whileLoop test body, h => ⟨textual_of_wellFormed test h.1, allTextual_of_wellFormed body h.2⟩
  | .forLoop start test step body, h =>
    ⟨textual_of_wellFormed start h.1, textual_of_wellFormed test h.2.1,
      textual_of_wellFormed step h.2.2.1, allTextual_of_wellFormed body h.2.2.2⟩
  | .define _ _ body, h => allTextual_of_wellFormed body h.2.2

theorem Form.allTextual_of_wellFormed : ∀ fs : List Form, AllWellFormed fs → AllTextual fs
  | [], _ => trivial
  | f :: fs, h => ⟨textual_of_wellFormed f h.1, allTextual_of_wellFormed fs h.2⟩

end

mutual

/-- A form of text whose tokens are plain is well formed. -/
theorem Form.wellFormed_of_flat : ∀ f : Form, f.Textual → (∀ k ∈ f.flat, k.Plain) → f.WellFormed
  | .literal (.number x), _, h => h (.number x) (by simp [Form.flat, Value.token])
  | .literal (.string s), _, _ => trivial
  | .symbol n, _, h => h (.symbol n) (by simp [Form.flat])
  | .apply items, ht, h => allWellFormed_of_flat items ht fun k hk => h k (by simp [Form.flat, hk])
  | .assign target value, ht, h =>
    ⟨h (.symbol target) (by simp [Form.flat]),
      wellFormed_of_flat value ht fun k hk => h k (by simp [Form.flat, hk])⟩
  | .branch test yes no, ht, h =>
    ⟨wellFormed_of_flat test ht.1 fun k hk => h k (by simp [Form.flat, hk]),
      wellFormed_of_flat yes ht.2.1 fun k hk => h k (by simp [Form.flat, hk]),
      wellFormed_of_flat no ht.2.2 fun k hk => h k (by simp [Form.flat, hk])⟩
  | .whileLoop test body, ht, h =>
    ⟨wellFormed_of_flat test ht.1 fun k hk => h k (by simp [Form.flat, hk]),
      allWellFormed_of_flat body ht.2 fun k hk => h k (by simp [Form.flat, hk])⟩
  | .forLoop start test step body, ht, h =>
    ⟨wellFormed_of_flat start ht.1 fun k hk => h k (by simp [Form.flat, hk]),
      wellFormed_of_flat test ht.2.1 fun k hk => h k (by simp [Form.flat, hk]),
      wellFormed_of_flat step ht.2.2.1 fun k hk => h k (by simp [Form.flat, hk]),
      allWellFormed_of_flat body ht.2.2.2 fun k hk => h k (by simp [Form.flat, hk])⟩
  | .define name params body, ht, h =>
    ⟨h (.symbol name) (by simp [Form.flat]),
      fun p hp => h (.symbol p) (by simp [Form.flat, hp]),
      allWellFormed_of_flat body ht fun k hk => h k (by simp [Form.flat, hk])⟩

theorem Form.allWellFormed_of_flat : ∀ fs : List Form, AllTextual fs →
    (∀ k ∈ Form.flatAll fs, k.Plain) → Form.AllWellFormed fs
  | [], _, _ => trivial
  | f :: fs, ht, h =>
    ⟨wellFormed_of_flat f ht.1 fun k hk => h k (by simp [Form.flatAll, hk]),
      allWellFormed_of_flat fs ht.2 fun k hk => h k (by simp [Form.flatAll, hk])⟩

end

/-- The tokens of a text are plain, since they are spelled. -/
theorem plain_of_tokenize {source : String} {ts : List Token} (h : tokenize source = .ok ts) :
    ∀ k ∈ ts.map Token.kind, k.Plain := by
  obtain ⟨d, ⟨-, hps⟩, -, rfl⟩ := Division.exists_division h
  intro k hk
  obtain ⟨w, hw⟩ := Division.spelled_of_mem hps hk
  exact hw.plain

/-! ## Texts and their tokens -/

/-- The text has tokens of these kinds, on whichever line it stands. -/
def Writes (cs : List Char) (ks : List TokenKind) : Prop :=
  ∀ line, ∃ ts, scan line cs = .ok ts ∧ ts.map Token.kind = ks

namespace Writes

variable {cs ds : List Char} {ks ls : List TokenKind}

theorem nil : Writes [] [] := fun line => ⟨[], scan_nil line, rfl⟩

/-- **Texts in a row**, the second behind a boundary. -/
theorem append (hcs : Writes cs ks) (hds : Writes ds ls) (hb : Boundary ds) :
    Writes (cs ++ ds) (ks ++ ls) := by
  intro line
  obtain ⟨ts, hts, rfl⟩ := hcs line
  obtain ⟨us, hus, rfl⟩ := hds (line + cs.count '\n')
  exact ⟨ts ++ us, by rw [scan_append hts hb, hus]; rfl, List.map_append⟩

/-- A token as it is spelled, and a text behind it; a run ends at a boundary. -/
theorem cons {w : List Char} {k : TokenKind} (h : TokenKind.Spelled w k) (hb : k.IsRun → Boundary cs)
    (hcs : Writes cs ks) : Writes (w ++ cs) (k :: ks) := by
  intro line
  obtain ⟨l, hl, hrun, ht⟩ := h.exists_lexeme [] line
  obtain ⟨c, w, rfl, hc⟩ := hl.cons
  obtain ⟨ts, hts, rfl⟩ := hcs line
  have hnext : Lexeme.next c (w ++ cs) = .ok (l, cs) :=
    (Lexeme.next_eq_ok_iff hc).2 ⟨c :: w, hl, rfl, fun hw => hb (hrun.1 hw)⟩
  exact ⟨_, by rw [List.cons_append, scan_lexeme hc hnext ht, hts]; rfl, rfl⟩

theorem spelled {w : List Char} {k : TokenKind} (h : TokenKind.Spelled w k) : Writes w [k] := by
  simpa using cons h (fun _ => .nil) nil

theorem gap {w : List Char} (hw : Gap w) (h : Writes cs ks) : Writes (w ++ cs) ks :=
  fun line => by simpa only [scan_gap hw] using h (line + w.count '\n')

/-- An opening parenthesis stands by itself. -/
theorem opened (h : Writes cs ks) : Writes ('(' :: cs) (.leftParen :: ks) :=
  cons .leftParen False.elim h

theorem closed (h : Writes cs ks) : Writes (cs ++ [')']) (ks ++ [.rightParen]) :=
  h.append (.spelled .rightParen) (.cons (by decide) [])

/-- A further text behind a space. -/
theorem item (hcs : Writes cs ks) (hds : Writes ds ls) : Writes (cs ++ ' ' :: ds) (ks ++ ls) :=
  hcs.append (gap (w := [' ']) (by simp [Gap]; decide) hds) (.cons (by decide) ds)

end Writes

theorem boundary_textAfter (fs : List Form) : Boundary (Form.textAfter fs).toList := by
  cases fs with
  | nil => exact .nil
  | cons f fs =>
    rw [Form.textAfter, String.toList_append, String.toList_append]
    exact .cons (by decide) _

theorem writes_keyword (k : Keyword) : Writes k.word.toList [.keyword k] := .spelled (.keyword k)

/-- Parameters are written with spaces between them. -/
theorem writes_params : ∀ ps : List String, (∀ p ∈ ps, IsName p) →
    Writes (" ".intercalate ps).toList (ps.map .symbol)
  | [], _ => .nil
  | [p], h => by
    rw [String.intercalate_singleton]
    exact .spelled (h p (by simp)).spelled
  | p :: q :: ps, h => by
    have hp : Writes p.toList [.symbol p] := .spelled (h p (by simp)).spelled
    have := hp.item (writes_params (q :: ps) fun r hr => h r (List.mem_cons_of_mem p hr))
    simpa [String.intercalate_cons_cons] using this

mutual

/-- **The text of a well-formed form has the tokens of the form.** -/
theorem writes_form : ∀ f : Form, f.WellFormed → Writes f.text.toList f.flat
  | .literal _, h => .spelled (Value.WellFormed.spelled h)
  | .symbol n, h => .spelled (IsName.spelled h)
  | .apply [], _ => Writes.nil.closed.opened
  | .apply (f :: fs), h => by
    have := ((writes_form f h.1).append (writes_after fs h.2) (boundary_textAfter fs)).closed.opened
    simpa [Form.text, Form.flat, Form.flatAll] using this
  | .assign target value, h => by
    have := (((writes_keyword .assign).item (.spelled h.1.spelled)).item
      (writes_form value h.2)).closed.opened
    simpa [Form.text, Form.flat, Keyword.opening, Keyword.word] using this
  | .branch test yes no, h => by
    have := ((((writes_keyword .branch).item (writes_form test h.1)).item
      (writes_form yes h.2.1)).item (writes_form no h.2.2)).closed.opened
    simpa [Form.text, Form.flat, Keyword.opening, Keyword.word] using this
  | .whileLoop test body, h => by
    have := (((writes_keyword .whileLoop).item (writes_form test h.1)).append
      (writes_after body h.2) (boundary_textAfter body)).closed.opened
    simpa [Form.text, Form.flat, Keyword.opening, Keyword.word] using this
  | .forLoop start test step body, h => by
    have := (((((writes_keyword .forLoop).item (writes_form start h.1)).item
      (writes_form test h.2.1)).item (writes_form step h.2.2.1)).append
      (writes_after body h.2.2.2) (boundary_textAfter body)).closed.opened
    simpa [Form.text, Form.flat, Keyword.opening, Keyword.word] using this
  | .define name params body, h => by
    have := ((((writes_keyword .define).item (.spelled h.1.spelled)).item
      (writes_params params h.2.1).closed.opened).append
      (writes_after body h.2.2) (boundary_textAfter body)).closed.opened
    simpa [Form.text, Form.flat, Keyword.opening, Keyword.word] using this

/-- Forms behind spaces have their tokens in a row. -/
theorem writes_after : ∀ fs : List Form, Form.AllWellFormed fs →
    Writes (Form.textAfter fs).toList (Form.flatAll fs)
  | [], _ => .nil
  | f :: fs, h => by
    have := (Writes.nil.item (writes_form f h.1)).append (writes_after fs h.2) (boundary_textAfter fs)
    simpa [Form.textAfter, Form.flatAll] using this

end

/-! ## Texts of several forms -/

/-- The texts of forms in a row, with `gap i` behind the one of number `i` when another follows. -/
def Form.joined (gap : Nat → String) : List Form → String
  | [] => ""
  | [f] => f.text
  | f :: g :: fs => f.text ++ gap 0 ++ Form.joined (fun i => gap (i + 1)) (g :: fs)

/-- The same gap everywhere. -/
theorem Form.joined_const (sep : String) : ∀ fs : List Form,
    joined (fun _ => sep) fs = sep.intercalate (fs.map Form.text)
  | [] => rfl
  | [f] => by simp [joined]
  | f :: g :: fs => by
    rw [joined, joined_const sep (g :: fs)]
    simp [String.intercalate_cons_cons]

/-- The gaps are runs of separators, and none is empty. -/
def Gaps (gap : Nat → String) : Prop := ∀ i, gap i ≠ "" ∧ Gap (gap i).toList

theorem boundary_gap {w : List Char} (hne : w ≠ []) (hw : Gap w) (cs : List Char) :
    Boundary (w ++ cs) := by
  obtain ⟨c, w, rfl⟩ := List.exists_cons_of_ne_nil hne
  exact .cons (isDelimiter_of_isSeparator (hw c (by simp))) _

/-- **Well-formed forms kept apart** have their tokens in a row. -/
theorem writes_joined : ∀ (gap : Nat → String) (fs : List Form), Gaps gap →
    (∀ f ∈ fs, f.WellFormed) → Writes (Form.joined gap fs).toList (Form.flatAll fs)
  | _, [], _, _ => .nil
  | _, [f], _, h => by
    simpa [Form.joined, Form.flatAll] using writes_form f (h f (by simp))
  | gap, f :: g :: fs, hgap, h => by
    have hne : (gap 0).toList ≠ [] := fun he => (hgap 0).1 (String.toList_eq_nil_iff.1 he)
    have hrest := writes_joined (fun i => gap (i + 1)) (g :: fs) (fun i => hgap (i + 1))
      fun x hx => h x (List.mem_cons_of_mem f hx)
    have := (writes_form f (h f (by simp))).append (hrest.gap (hgap 0).2)
      (boundary_gap hne (hgap 0).2 _)
    simpa [Form.joined, Form.flatAll] using this

/-- What is written with the tokens of forms is read as these forms. -/
theorem Writes.parse {source : String} {fs : List Form} (hfs : Form.AllTextual fs)
    (h : Writes source.toList (Form.flatAll fs)) :
    ∃ ts, tokenize source = .ok ts ∧ FlatLisp.parse ts = .ok fs := by
  obtain ⟨ts, hts, hkinds⟩ := h 1
  exact ⟨ts, hts, parse_of_flatAll hfs hkinds⟩

/-- **Reading and printing agree.** What is read is well formed; well-formed forms, printed with
separators between them, the same ones or different ones, are read as they were. -/
theorem round_trip :
    (∀ (source : String) (ts : List Token) (fs : List Form), tokenize source = .ok ts →
        parse ts = .ok fs → ∀ f ∈ fs, f.WellFormed) ∧
      (∀ fs : List Form, (∀ f ∈ fs, f.WellFormed) → ∀ gap : Nat → String, Gaps gap →
        ∃ ts, tokenize (Form.joined gap fs) = .ok ts ∧ parse ts = .ok fs) ∧
      ∀ fs : List Form, (∀ f ∈ fs, f.WellFormed) → ∀ sep : String, sep ≠ "" → Gap sep.toList →
        ∃ ts, tokenize (sep.intercalate (fs.map Form.text)) = .ok ts ∧ parse ts = .ok fs := by
  have htextual : ∀ fs : List Form, (∀ f ∈ fs, f.WellFormed) → Form.AllTextual fs :=
    fun fs h => Form.allTextual_of_wellFormed fs (Form.allWellFormed_iff.2 h)
  refine ⟨fun source ts fs hts hfs => ?_, fun fs h gap hgap => ?_, fun fs h sep hne hsep => ?_⟩
  · have hplain := plain_of_tokenize hts
    rw [flatAll_of_parse hfs] at hplain
    exact Form.allWellFormed_iff.1 (Form.allWellFormed_of_flat fs (textual_of_parse hfs) hplain)
  · exact (writes_joined gap fs hgap h).parse (htextual fs h)
  · rw [← Form.joined_const]
    exact (writes_joined _ fs (fun _ => ⟨hne, hsep⟩) h).parse (htextual fs h)

end FlatLisp
