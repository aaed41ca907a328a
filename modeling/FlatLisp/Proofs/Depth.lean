import FlatLisp.Proofs.RoundTrip
import FlatLisp.Repl

/-!
# Depth

The interactive session counts parentheses by characters, with a small scanner of its own that
skips strings. The tokens of a text give the same count, unless the scanner is still in a string
behind a symbol with quotes in it. By tokens it is a matter of the grammar where the count may be
zero: inside a form it is not, and so only between the forms of a program.

* `openDepth_of_tokenize`: **the scanner counts what the tokens count.**
* `split_flatAll`: **where the count of a program is zero, forms end.**
-/

namespace FlatLisp

/-! ## The depth of tokens -/

/-- What a token adds to the depth. -/
def TokenKind.depth : TokenKind → Int
  | .leftParen => 1
  | .rightParen => -1
  | .symbol _ | .keyword _ | .number _ | .string _ => 0

/-- How many more parentheses the tokens open than they close. -/
def depthOf (ks : List TokenKind) : Int := (ks.map TokenKind.depth).sum

@[simp]
theorem depthOf_nil : depthOf [] = 0 := rfl

@[simp]
theorem depthOf_cons (k : TokenKind) (ks : List TokenKind) : depthOf (k :: ks) = k.depth + depthOf ks := by
  simp [depthOf]

@[simp]
theorem depthOf_append (ks ls : List TokenKind) : depthOf (ks ++ ls) = depthOf ks + depthOf ls := by
  simp [depthOf]

/-- The depth is the difference of two counts. -/
theorem depthOf_eq_count (ks : List TokenKind) :
    depthOf ks = ks.count .leftParen - ks.count .rightParen := by
  induction ks with
  | nil => rfl
  | cons k ks ih =>
    rw [depthOf_cons, ih]
    cases k <;> simp [TokenKind.depth] <;> omega

/-- The depth comes back to zero and never goes below it. -/
structure Balanced (ks : List TokenKind) : Prop where
  total : depthOf ks = 0
  nonneg : ∀ us vs, ks = us ++ vs → 0 ≤ depthOf us

namespace Balanced

variable {ks ls us vs : List TokenKind}

theorem nil : Balanced [] where
  total := rfl
  nonneg us vs h := by
    obtain ⟨rfl, -⟩ := List.nil_eq_append_iff.1 h
    exact le_rfl

theorem atom {k : TokenKind} (hk : k.depth = 0) : Balanced [k] where
  total := by simp [hk]
  nonneg us vs h := by
    rcases List.cons_eq_append_iff.1 h with ⟨rfl, -⟩ | ⟨us', rfl, h'⟩
    · exact le_rfl
    · obtain ⟨rfl, -⟩ := List.nil_eq_append_iff.1 h'
      simp [hk]

theorem append (hk : Balanced ks) (hl : Balanced ls) : Balanced (ks ++ ls) where
  total := by rw [depthOf_append, hk.total, hl.total, add_zero]
  nonneg us vs h := by
    rcases List.append_eq_append_iff.1 h with ⟨ws, rfl, hws⟩ | ⟨ws, hws, -⟩
    · have hrest := hl.nonneg ws vs hws
      rw [depthOf_append, hk.total]
      omega
    · exact hk.nonneg us ws hws

/-- Inside parentheses the depth is positive. -/
theorem inside (hk : Balanced ks) (h : .leftParen :: ks ++ [.rightParen] = us ++ vs) (hu : us ≠ [])
    (hv : vs ≠ []) : 0 < depthOf us := by
  obtain ⟨k, us, rfl⟩ := List.exists_cons_of_ne_nil hu
  obtain ⟨vs, k', rfl⟩ := (List.eq_nil_or_concat vs).resolve_left hv
  have h : .leftParen :: (ks ++ [.rightParen]) = k :: (us ++ vs ++ [k']) := by simpa using h
  obtain ⟨rfl, hrest⟩ := List.cons.inj h
  obtain ⟨rfl, -⟩ := List.append_inj' hrest rfl
  have hus := hk.nonneg us vs rfl
  rw [depthOf_cons, TokenKind.depth]
  omega

theorem wrap (hk : Balanced ks) : Balanced (.leftParen :: ks ++ [.rightParen]) where
  total := by simp [hk.total, TokenKind.depth]
  nonneg us vs h := by
    by_cases hu : us = []
    · rw [hu, depthOf_nil]
    by_cases hv : vs = []
    · rw [hv, List.append_nil] at h
      rw [← h]
      simp [hk.total, TokenKind.depth]
    · exact le_of_lt (hk.inside h hu hv)

theorem symbols (names : List String) : Balanced (names.map .symbol) := by
  induction names with
  | nil => exact nil
  | cons name names ih => exact (atom (k := .symbol name) rfl).append ih

end Balanced

/-! ## The depth of forms -/

/-- A form is one token, or balanced tokens in parentheses. -/
def Form.Shape (f : Form) : Prop :=
  (∃ k, f.flat = [k] ∧ k.depth = 0) ∨ ∃ ks, Balanced ks ∧ f.flat = .leftParen :: ks ++ [.rightParen]

theorem Form.Shape.balanced {f : Form} (h : f.Shape) : Balanced f.flat := by
  rcases h with ⟨k, hf, hk⟩ | ⟨ks, hks, hf⟩
  · exact hf ▸ .atom hk
  · exact hf ▸ hks.wrap

/-- A keyword and balanced tokens behind an opening parenthesis. -/
theorem Form.shape_of_opening {f : Form} {ks : List TokenKind} (k : Keyword) (hks : Balanced ks)
    (hf : f.flat = k.opening ++ ks ++ [.rightParen]) : f.Shape := by
  have hkeyword : Balanced [.keyword k] := .atom rfl
  exact .inr ⟨.keyword k :: ks, hkeyword.append hks, hf⟩

theorem Value.depth_token (v : Value) : v.token.depth = 0 := by
  unfold token
  split <;> rfl

mutual

theorem Form.shape : ∀ f : Form, f.Shape
  | .literal v => .inl ⟨v.token, rfl, v.depth_token⟩
  | .symbol name => .inl ⟨_, rfl, rfl⟩
  | .apply items => .inr ⟨_, Form.balanced_flatAll items, rfl⟩
  | .assign target value => by
    have hks := (Balanced.symbols [target]).append (Form.shape value).balanced
    exact Form.shape_of_opening .assign hks (by simp [Form.flat])
  | .branch test yes no => by
    have hks := ((Form.shape test).balanced.append (Form.shape yes).balanced).append
      (Form.shape no).balanced
    exact Form.shape_of_opening .branch hks (by simp [Form.flat])
  | .whileLoop test body => by
    have hks := (Form.shape test).balanced.append (Form.balanced_flatAll body)
    exact Form.shape_of_opening .whileLoop hks (by simp [Form.flat])
  | .forLoop start test step body => by
    have hks := (((Form.shape start).balanced.append (Form.shape test).balanced).append
      (Form.shape step).balanced).append (Form.balanced_flatAll body)
    exact Form.shape_of_opening .forLoop hks (by simp [Form.flat])
  | .define name params body => by
    have hks := ((Balanced.symbols [name]).append (Balanced.symbols params).wrap).append
      (Form.balanced_flatAll body)
    exact Form.shape_of_opening .define hks (by simp [Form.flat])

theorem Form.balanced_flatAll : ∀ fs : List Form, Balanced (Form.flatAll fs)
  | [] => .nil
  | f :: fs => (Form.shape f).balanced.append (Form.balanced_flatAll fs)

end

/-- In front of the end of a form, behind its start, the depth is positive. -/
theorem Form.depth_pos {f : Form} {us vs : List TokenKind} (h : f.flat = us ++ vs) (hu : us ≠ [])
    (hv : vs ≠ []) : 0 < depthOf us := by
  rcases f.shape with ⟨k, hf, -⟩ | ⟨ks, hks, hf⟩
  · obtain ⟨u, us, rfl⟩ := List.exists_cons_of_ne_nil hu
    obtain ⟨v, vs, rfl⟩ := List.exists_cons_of_ne_nil hv
    have hlen := congrArg List.length (hf.symm.trans h)
    simp at hlen
  · exact hks.inside (hf.symm.trans h) hu hv

/-- **Where the depth of a program is zero, forms end.** -/
theorem split_flatAll {fs : List Form} {us vs : List TokenKind} (h : Form.flatAll fs = us ++ vs)
    (hd : depthOf us ≤ 0) : ∃ gs hs, fs = gs ++ hs ∧ us = Form.flatAll gs ∧ vs = Form.flatAll hs := by
  induction fs generalizing us with
  | nil =>
    obtain ⟨rfl, rfl⟩ := List.nil_eq_append_iff.1 h
    exact ⟨[], [], rfl, rfl, rfl⟩
  | cons f fs ih =>
    have hf := f.shape.balanced.total
    rcases List.append_eq_append_iff.1 h with ⟨ws, rfl, hws⟩ | ⟨ws, hws, hvs⟩
    · -- the whole first form
      rw [depthOf_append, hf, zero_add] at hd
      obtain ⟨gs, hs, rfl, rfl, rfl⟩ := ih hws hd
      exact ⟨f :: gs, hs, rfl, rfl, rfl⟩
    · by_cases hu : us = []
      · subst hu
        exact ⟨[], f :: fs, rfl, rfl, h.symm⟩
      · by_cases hw : ws = []
        · subst hw
          rw [List.append_nil] at hws
          rw [List.nil_append] at hvs
          exact ⟨[f], fs, rfl, by simp [Form.flatAll, hws], hvs⟩
        · exact absurd (Form.depth_pos hws hu hw) (by omega)

/-! ## The scanner -/

/-- Where the scan of a text leads. -/
def scanText (depth : Int) (mode : Repl.ScanMode) (cs : List Char) : Int × Repl.ScanMode :=
  cs.foldl Repl.scan (depth, mode)

theorem openDepth_eq (source : String) :
    Repl.openDepth source = (scanText 0 .code source.toList).1 := rfl

section Scanner

variable {d d' : Int} {mode mode' : Repl.ScanMode} {cs ds w : List Char}

theorem scanText_append (h : scanText d mode cs = (d', mode')) :
    scanText d mode (cs ++ ds) = scanText d' mode' ds := by
  rw [scanText, List.foldl_append]
  exact congrArg (fun st => ds.foldl Repl.scan st) h

theorem scanText_quiet (h : ∀ c ∈ w, c ≠ '(' ∧ c ≠ ')' ∧ c ≠ '"') (d : Int) :
    scanText d .code w = (d, .code) := by
  induction w with
  | nil => rfl
  | cons c w ih =>
    obtain ⟨hl, hr, hq⟩ := h c List.mem_cons_self
    have hstep : Repl.scan (d, .code) c = (d, .code) := by simp [Repl.scan, hl, hr, hq]
    rw [scanText, List.foldl_cons, hstep]
    exact ih fun c hc => h c (List.mem_cons_of_mem _ hc)

theorem scanText_gap (hw : Gap w) (d : Int) : scanText d .code w = (d, .code) := by
  refine scanText_quiet (fun c hc => ?_) d
  have hsep := hw c hc
  refine ⟨?_, ?_, ?_⟩ <;> rintro rfl <;> exact absurd hsep (by decide)

/-- Text without parentheses changes no depth, and the depth does not matter for it. -/
theorem scanText_level (h : ∀ c ∈ w, c ≠ '(' ∧ c ≠ ')') (d : Int) (mode : Repl.ScanMode) :
    scanText d mode w = (d, (scanText 0 mode w).2) := by
  induction w generalizing mode with
  | nil => rfl
  | cons c w ih =>
    obtain ⟨hl, hr⟩ := h c List.mem_cons_self
    have ih := ih fun c hc => h c (List.mem_cons_of_mem _ hc)
    have hstep : ∀ d, Repl.scan (d, mode) c = (d, (Repl.scan (0, mode) c).2) := by
      intro d
      cases mode with
      | code => by_cases hq : c = '"' <;> simp [Repl.scan, hl, hr, hq]
      | string => rfl
      | escape => rfl
    have hcons : ∀ d, scanText d mode (c :: w) = scanText d (Repl.scan (0, mode) c).2 w :=
      fun d => congrArg (fun st => w.foldl Repl.scan st) (hstep d)
    rw [hcons, hcons, ih]

theorem Run.not_paren (hw : Run w) : ∀ c ∈ w, c ≠ '(' ∧ c ≠ ')' := by
  intro c hc
  have hdel := hw.2 c hc
  constructor <;> rintro rfl <;> exact absurd hdel (by decide)

theorem scanText_run (hw : Run w) (hq : '"' ∉ w) (d : Int) : scanText d .code w = (d, .code) := by
  refine scanText_quiet (fun c hc => ?_) d
  exact ⟨(hw.not_paren c hc).1, (hw.not_paren c hc).2, fun h => hq (h ▸ hc)⟩

theorem scanText_plain (h : ∀ c ∈ w, Quoted.IsPlain c) (d : Int) :
    scanText d .string w = (d, .string) := by
  induction w with
  | nil => rfl
  | cons c w ih =>
    obtain ⟨hq, hb, hn⟩ := h c List.mem_cons_self
    have hstep : Repl.scan (d, .string) c = (d, .string) := by simp [Repl.scan, hq, hb, hn]
    rw [scanText, List.foldl_cons, hstep]
    exact ih fun c hc => h c (List.mem_cons_of_mem _ hc)

/-- The inside of a literal is skipped, escapes included. -/
theorem scanText_pieces (ps : List Quoted.Piece) (d : Int) :
    scanText d .string (ps.flatMap Quoted.Piece.text) = (d, .string) := by
  induction ps with
  | nil => rfl
  | cons p ps ih =>
    have hp : scanText d .string p.text = (d, .string) := by
      rcases p.text_cases with ⟨c, h, rfl⟩ | ⟨c, cs, htext, -, hcs⟩
      · exact scanText_plain (fun c' hc' => List.mem_singleton.1 hc' ▸ h) d
      · rw [htext]
        exact scanText_plain hcs d
    rw [List.flatMap_cons, scanText_append hp, ih]

end Scanner

/-- No symbol has a quote in it. -/
def Unquoted (ks : List TokenKind) : Prop := ∀ n, .symbol n ∈ ks → '"' ∉ n.toList

theorem Unquoted.mono {ks ls : List TokenKind} (h : Unquoted ls) (hsub : ∀ k ∈ ks, k ∈ ls) :
    Unquoted ks := fun n hn => h n (hsub _ hn)

/-- Behind the name the scanner is outside of strings again. -/
def Closes (n : String) : Prop := (scanText 0 .code n.toList).2 = .code

instance (n : String) : Decidable (Closes n) := inferInstanceAs (Decidable (_ = _))

/-- Every symbol closes the strings that it seems to open. -/
def Settled (ks : List TokenKind) : Prop := ∀ n, .symbol n ∈ ks → Closes n

/-- Without a quote no string seems to start. -/
theorem Unquoted.settled {ks : List TokenKind} (h : Unquoted ks) : Settled ks := by
  have hcode : ∀ (w : List Char) (d : Int), '"' ∉ w → (scanText d .code w).2 = .code := by
    intro w
    induction w with
    | nil => exact fun d _ => rfl
    | cons c w ih =>
      intro d hq
      have hc : c ≠ '"' := fun h => hq (h ▸ List.mem_cons_self)
      obtain ⟨d', hstep⟩ : ∃ d', Repl.scan (d, .code) c = (d', .code) := by
        simp only [Repl.scan, if_neg hc]
        split
        · exact ⟨_, rfl⟩
        · split <;> exact ⟨_, rfl⟩
      rw [scanText, List.foldl_cons, hstep]
      exact ih d' fun h => hq (List.mem_cons_of_mem _ h)
  exact fun n hn => hcode n.toList 0 (h n hn)

theorem Settled.mono {ks ls : List TokenKind} (h : Settled ls) (hsub : ∀ k ∈ ks, k ∈ ls) :
    Settled ks := fun n hn => h n (hsub _ hn)

/-- A token as it is spelled adds to the count what it adds to the depth. -/
theorem scanText_spelled {w : List Char} {k : TokenKind} (h : TokenKind.Spelled w k)
    (hk : Settled [k]) (d : Int) : scanText d .code w = (d + k.depth, .code) := by
  cases h with
  | leftParen => rfl
  | rightParen => rfl
  | string ps s _ =>
    have hopen : scanText d .code ['"'] = (d, .string) := rfl
    have hclose : scanText d .string ['"'] = (d, .code) := rfl
    have hstart : scanText d .code ('"' :: ps.flatMap Quoted.Piece.text) = (d, .string) :=
      (scanText_append hopen).trans (scanText_pieces ps d)
    rw [scanText_append hstart, hclose, TokenKind.depth, add_zero]
  | number w x hw _ hx =>
    rw [scanText_run hw (Token.quote_notMem_of_readNumber? hx), TokenKind.depth, add_zero]
  | keyword k =>
    have hq : '"' ∉ k.word.toList := by cases k <;> decide
    rw [scanText_run k.run_word hq, TokenKind.depth, add_zero]
  | symbol w hw _ _ _ =>
    have hcloses : (scanText 0 .code w).2 = .code := by simpa [Closes] using hk _ List.mem_cons_self
    rw [scanText_level hw.not_paren, hcloses, TokenKind.depth, add_zero]

theorem scanText_textOf {ps : List Part} (h : Division.ValidParts ps)
    (hq : Settled (ps.map Part.kind)) (d : Int) :
    scanText d .code (Division.textOf ps) = (d + depthOf (ps.map Part.kind), .code) := by
  induction ps generalizing d with
  | nil => simp [Division.textOf, scanText]
  | cons p ps ih =>
    obtain ⟨hspell, hgap, -, hps⟩ := h
    have hp : scanText d .code (p.text ++ p.gap) = (d + p.kind.depth, .code) := by
      rw [scanText_append (scanText_spelled hspell (hq.mono (by simp)) d), scanText_gap hgap]
    have htext : Division.textOf (p :: ps) = p.text ++ p.gap ++ Division.textOf ps := by
      simp [Division.textOf]
    have hrest : Settled (ps.map Part.kind) := hq.mono fun k hk => by
      rw [List.map_cons]
      exact List.mem_cons_of_mem _ hk
    rw [htext, scanText_append hp, ih hps hrest, List.map_cons, depthOf_cons, add_assoc]

theorem kinds_tokensAfter (before : List Char) (ps : List Part) :
    (Division.tokensAfter before ps).map Token.kind = ps.map Part.kind := by
  induction ps generalizing before with
  | nil => rfl
  | cons p ps ih => simp only [Division.tokensAfter, List.map_cons, ih]

/-- **The scanner counts what the tokens count**, if every symbol closes its quotes. -/
theorem openDepth_of_tokenize {source : String} {ts : List Token} (h : tokenize source = .ok ts)
    (hq : Settled (ts.map Token.kind)) : Repl.openDepth source = depthOf (ts.map Token.kind) := by
  obtain ⟨⟨w, ps⟩, ⟨hw, hps⟩, htext, rfl⟩ := Division.exists_division h
  rw [Division.tokens, kinds_tokensAfter] at hq ⊢
  rw [openDepth_eq, ← htext, Division.text, scanText_append (scanText_gap hw 0),
    scanText_textOf hps hq, zero_add]

theorem openDepth_of_writes {source : String} {ks : List TokenKind} (h : Writes source.toList ks)
    (hq : Unquoted ks) : Repl.openDepth source = depthOf ks := by
  obtain ⟨ts, hts, rfl⟩ := h 1
  exact openDepth_of_tokenize hts hq.settled

end FlatLisp
