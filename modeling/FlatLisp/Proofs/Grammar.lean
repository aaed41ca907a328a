import FlatLisp.Form.Reader
import Mathlib.Data.List.Basic

/-!
# The reader accepts exactly the grammar

`Form.flatAll fs` is the sequence of tokens that stands for the forms `fs`. A state of the
reader remembers every token that it has read: `Reader.flat r` is that sequence, with the
unfinished forms up to where they have got.

* `Reader.flat_step`: a token that is read is put at the end of the remembered sequence. So
  no token is lost, made up or moved.
* `Reader.reads_form`: in a state that waits for a form, the tokens of a form are read, and
  the form is handed to the one that waits for it.
* `parse_exact`: **the tokens of `fs`, and no others, are read as `fs`**; different forms
  have different tokens; all other tokens are refused.
-/

namespace FlatLisp

/-! ## Forms from text -/

/-- A number or a string. Other values have no tokens. -/
def Value.Textual : Value → Prop
  | .number _ | .string _ => True
  | _ => False

mutual

/-- All literals are numbers or strings. -/
def Form.Textual : Form → Prop
  | .literal v => v.Textual
  | .symbol _ => True
  | .apply items => Form.AllTextual items
  | .assign _ value => value.Textual
  | .branch test yes no => test.Textual ∧ yes.Textual ∧ no.Textual
  | .whileLoop test body => test.Textual ∧ Form.AllTextual body
  | .forLoop start test step body =>
    start.Textual ∧ test.Textual ∧ step.Textual ∧ Form.AllTextual body
  | .define _ _ body => Form.AllTextual body

/-- All literals of the forms are numbers or strings. -/
def Form.AllTextual : List Form → Prop
  | [] => True
  | f :: fs => f.Textual ∧ Form.AllTextual fs

end

theorem Form.allTextual_iff {fs : List Form} : AllTextual fs ↔ ∀ f ∈ fs, f.Textual := by
  induction fs with
  | nil => simp [AllTextual]
  | cons f fs ih => simp [AllTextual, ih]

@[simp]
theorem Form.allTextual_append {fs gs : List Form} :
    AllTextual (fs ++ gs) ↔ AllTextual fs ∧ AllTextual gs := by
  simp [allTextual_iff, or_imp, forall_and]

theorem Form.Textual.child {f g : Form} (hf : f.Textual) (hg : g ∈ f.children) : g.Textual := by
  cases f with
  | literal v => exact absurd hg List.not_mem_nil
  | symbol name => exact absurd hg List.not_mem_nil
  | apply items => exact allTextual_iff.1 hf g hg
  | assign target value =>
    obtain rfl := List.mem_singleton.1 hg
    exact hf
  | branch test yes no =>
    have hall : AllTextual [test, yes, no] := ⟨hf.1, hf.2.1, hf.2.2, trivial⟩
    exact allTextual_iff.1 hall g hg
  | whileLoop test body =>
    have hall : AllTextual (test :: body) := hf
    exact allTextual_iff.1 hall g hg
  | forLoop start test step body =>
    have hall : AllTextual (start :: test :: step :: body) := hf
    exact allTextual_iff.1 hall g hg
  | define name params body => exact allTextual_iff.1 hf g hg

/-! ## The tokens of forms -/

/-- The tokens that open a special form. -/
def Keyword.opening (k : Keyword) : List TokenKind := [.leftParen, .keyword k]

/-- The token of a number or a string. For another value it is that of its text, and nobody
reads it back as the value. -/
def Value.token : Value → TokenKind
  | .number x => .number x
  | .string s => .string s
  | v => .string v.text

mutual

/-- The tokens of a form. -/
def Form.flat : Form → List TokenKind
  | .literal v => [v.token]
  | .symbol name => [.symbol name]
  | .apply items => .leftParen :: Form.flatAll items ++ [.rightParen]
  | .assign target value =>
    Keyword.assign.opening ++ .symbol target :: value.flat ++ [.rightParen]
  | .branch test yes no =>
    Keyword.branch.opening ++ test.flat ++ yes.flat ++ no.flat ++ [.rightParen]
  | .whileLoop test body =>
    Keyword.whileLoop.opening ++ test.flat ++ Form.flatAll body ++ [.rightParen]
  | .forLoop start test step body =>
    Keyword.forLoop.opening ++ start.flat ++ test.flat ++ step.flat ++ Form.flatAll body ++
      [.rightParen]
  | .define name params body =>
    Keyword.define.opening ++ .symbol name :: .leftParen :: params.map .symbol ++
      .rightParen :: Form.flatAll body ++ [.rightParen]

/-- The tokens of forms in a row. -/
def Form.flatAll : List Form → List TokenKind
  | [] => []
  | f :: fs => f.flat ++ Form.flatAll fs

end

@[simp]
theorem Form.flatAll_append (fs gs : List Form) :
    Form.flatAll (fs ++ gs) = Form.flatAll fs ++ Form.flatAll gs := by
  induction fs with
  | nil => rfl
  | cons f fs ih => simp only [List.cons_append, Form.flatAll, ih, List.append_assoc]

/-- What a form can start with: its first token is neither the end of a form nor a keyword. -/
theorem Form.flat_head (f : Form) :
    ∃ k ks, f.flat = k :: ks ∧ k ≠ .rightParen ∧ ∀ w, k ≠ .keyword w := by
  cases f with
  | literal v =>
    refine ⟨v.token, [], rfl, ?_, ?_⟩ <;> unfold Value.token <;> split <;> simp
  | _ => exact ⟨_, _, rfl, by simp, by simp⟩

/-! ## The tokens that a state remembers -/

/-- The tokens of an unfinished form, up to the part that it waits for. -/
def Slot.flat : Slot → List TokenKind
  | .apply items => .leftParen :: Form.flatAll items.reverse
  | .assignValue target => Keyword.assign.opening ++ [.symbol target]
  | .branchTest => Keyword.branch.opening
  | .branchYes test => Keyword.branch.opening ++ test.flat
  | .branchNo test yes => Keyword.branch.opening ++ test.flat ++ yes.flat
  | .whileTest => Keyword.whileLoop.opening
  | .whileBody test body =>
    Keyword.whileLoop.opening ++ test.flat ++ Form.flatAll body.reverse
  | .forStart => Keyword.forLoop.opening
  | .forTest start => Keyword.forLoop.opening ++ start.flat
  | .forStep start test => Keyword.forLoop.opening ++ start.flat ++ test.flat
  | .forBody start test step body =>
    Keyword.forLoop.opening ++ start.flat ++ test.flat ++ step.flat ++ Form.flatAll body.reverse
  | .defineBody name params body =>
    Keyword.define.opening ++ .symbol name :: .leftParen :: params.map .symbol ++
      .rightParen :: Form.flatAll body.reverse

/-- The tokens of the innermost unfinished form. -/
def Focus.flat : Focus → List TokenKind
  | .ground => []
  | .opened => [.leftParen]
  | .slot s => s.flat
  | .assignTarget => Keyword.assign.opening
  | .assignEnd target value => Keyword.assign.opening ++ .symbol target :: value.flat
  | .branchEnd test yes no => Keyword.branch.opening ++ test.flat ++ yes.flat ++ no.flat
  | .defineName => Keyword.define.opening
  | .defineOpen name => Keyword.define.opening ++ [.symbol name]
  | .defineParams name params =>
    Keyword.define.opening ++ .symbol name :: .leftParen :: params.reverse.map .symbol

/-- The tokens of finished forms and of the slots that wait behind them. -/
def Reader.flatBelow (done : List Form) (waiting : List Slot) : List TokenKind :=
  Form.flatAll done.reverse ++ waiting.reverse.flatMap Slot.flat

/-- All tokens read so far. -/
def Reader.flat (r : Reader) : List TokenKind := Reader.flatBelow r.done r.below ++ r.focus.flat

@[simp]
theorem Reader.flatBelow_cons (done : List Form) (s : Slot) (below : List Slot) :
    flatBelow done (s :: below) = flatBelow done below ++ s.flat := by
  simp [flatBelow]

/-- A slot that takes a form remembers its tokens. -/
theorem Slot.flat_fill (s : Slot) (f : Form) : (s.fill f).flat = s.flat ++ f.flat := by
  cases s <;> simp [Slot.fill, Focus.flat, Slot.flat, Form.flatAll]

/-- A form that ends here has the tokens of its slot and the closing parenthesis. -/
theorem Slot.flat_close {s : Slot} {f : Form} (h : s.close? = some f) :
    f.flat = s.flat ++ [.rightParen] := by
  cases s <;> simp only [Slot.close?, Option.some.injEq, reduceCtorEq] at h <;> subst h <;>
    simp [Form.flat, Slot.flat]

theorem Keyword.flat_focus (k : Keyword) : k.focus.flat = k.opening := by cases k <;> rfl

/-- The forms that the slot has taken. -/
def Slot.forms : Slot → List Form
  | .assignValue _ | .branchTest | .whileTest | .forStart => []
  | .apply items => items
  | .branchYes test => [test]
  | .branchNo test yes => [test, yes]
  | .whileBody test body => test :: body
  | .forTest start => [start]
  | .forStep start test => [start, test]
  | .forBody start test step body => start :: test :: step :: body
  | .defineBody _ _ body => body

/-- The forms that the innermost unfinished form has taken. -/
def Focus.forms : Focus → List Form
  | .slot s => s.forms
  | .assignEnd _ value => [value]
  | .branchEnd test yes no => [test, yes, no]
  | _ => []

/-- A slot that takes a form has this one and those that it had. -/
theorem Slot.mem_forms_fill {s : Slot} {f g : Form} (h : g ∈ (s.fill f).forms) :
    g = f ∨ g ∈ s.forms := by
  cases s <;> simp only [Slot.fill, Focus.forms, Slot.forms, List.mem_cons, List.not_mem_nil] at h ⊢ <;>
    tauto

/-- A form that ends here is put together from what its slot has taken. -/
theorem Slot.textual_close {s : Slot} {f : Form} (hs : ∀ g ∈ s.forms, g.Textual)
    (h : s.close? = some f) : f.Textual := by
  cases s <;> simp only [Slot.close?, Option.some.injEq, reduceCtorEq] at h <;> subst h <;>
    simp only [Slot.forms, List.forall_mem_cons] at hs <;>
    simp only [Form.Textual, Form.allTextual_iff, List.mem_reverse]
  · exact hs
  · exact hs
  · exact hs
  · exact hs

namespace Reader

variable {r r' : Reader} {t : Token} {ts us : List Token} {done : List Form}
  {waiting below : List Slot} {ks : List TokenKind}

theorem flat_deliver (f : Form) (done : List Form) (waiting : List Slot) :
    (deliver f done waiting).flat = flatBelow done waiting ++ f.flat := by
  cases waiting with
  | nil => simp [deliver, flat, flatBelow, Focus.flat, Form.flatAll]
  | cons s below => simp only [deliver, flat, Slot.flat_fill, flatBelow_cons, List.append_assoc]

/-! ## One token -/

/-- A state that the tokens `ks` lead to: a form is finished and handed on, or the reader is
inside of one. -/
inductive After (done : List Form) (ks : List TokenKind) : Reader → Prop
  | delivered (f : Form) (waiting : List Slot) :
    ks = flatBelow done waiting ++ f.flat → After done ks (deliver f done waiting)
  | inside (focus : Focus) (below : List Slot) : focus ≠ .ground →
    ks = flatBelow done below ++ focus.flat → After done ks ⟨done, focus, below⟩

theorem after_begin (h : begin done waiting t = .ok r') :
    After done (flatBelow done waiting ++ [t.kind]) r' := by
  unfold begin at h
  split at h <;> rename_i hk <;> simp only [Except.ok.injEq, reduceCtorEq] at h <;> subst h <;>
    rw [hk]
  · exact .inside .opened waiting (by simp) rfl
  all_goals exact .delivered _ waiting rfl

theorem after_atSlot {s : Slot} (h : atSlot done s below t = .ok r') :
    After done (flatBelow done below ++ s.flat ++ [t.kind]) r' := by
  unfold atSlot at h
  split at h
  · next hk =>
    split at h
    · next f hf =>
      rw [← Except.ok.inj h, hk, List.append_assoc, ← Slot.flat_close hf]
      exact .delivered f below rfl
    · exact absurd h (by simp)
  · rw [← flatBelow_cons]
    exact after_begin h

theorem after_endAt {f : Form} {k : Keyword} (hf : f.flat = ks ++ [.rightParen])
    (h : endAt f k done below t = .ok r') : After done (flatBelow done below ++ ks ++ [t.kind]) r' := by
  unfold endAt at h
  split at h
  · next hk =>
    rw [← Except.ok.inj h, hk, List.append_assoc, ← hf]
    exact .delivered f below rfl
  · exact absurd h (by simp)

/-- Where a symbol must stand, the token is one, and the reader goes on with its name. -/
theorem of_symbolAt {c : Context} {go : String → Reader} (h : (symbolAt c t).map go = .ok r') :
    ∃ n, t.kind = .symbol n ∧ go n = r' := by
  unfold symbolAt at h
  split at h
  · next n hk => exact ⟨n, hk, by simpa [Except.map] using h⟩
  · simp [Except.map] at h

/-- **What a step does**: the token joins those that were read, behind all others. -/
theorem after_step (h : r.step t = .ok r') : After r.done (r.flat ++ [t.kind]) r' := by
  obtain ⟨done, focus, below⟩ := r
  -- one case for each thing that the reader can be inside of
  cases focus with
  | ground => simpa [flat, Focus.flat] using after_begin h
  | opened =>
    simp only [step] at h
    split at h
    · next k hk =>
      rw [← Except.ok.inj h]
      refine .inside k.focus below (by cases k <;> simp [Keyword.focus]) ?_
      rw [Keyword.flat_focus, hk]
      simp [flat, Focus.flat, Keyword.opening]
    · exact after_atSlot h
  | slot s => exact after_atSlot h
  | assignTarget =>
    obtain ⟨n, hk, rfl⟩ := of_symbolAt h
    exact .inside _ below (by simp) (by simp [flat, Focus.flat, Slot.flat, hk])
  | assignEnd target value => exact after_endAt (by simp [Focus.flat, Form.flat]) h
  | branchEnd test yes no => exact after_endAt (by simp [Focus.flat, Form.flat]) h
  | defineName =>
    obtain ⟨n, hk, rfl⟩ := of_symbolAt h
    exact .inside _ below (by simp) (by simp [flat, Focus.flat, hk])
  | defineOpen name =>
    simp only [step] at h
    split at h
    · next hk =>
      rw [← Except.ok.inj h]
      exact .inside _ below (by simp) (by simp [flat, Focus.flat, hk])
    · exact absurd h (by simp)
  | defineParams name params =>
    simp only [step] at h
    split at h
    · next hk =>
      rw [← Except.ok.inj h]
      exact .inside _ below (by simp) (by simp [flat, Focus.flat, Slot.flat, Form.flatAll, hk])
    · obtain ⟨n, hk, rfl⟩ := of_symbolAt h
      exact .inside _ below (by simp) (by simp [flat, Focus.flat, hk])

theorem flat_step (h : r.step t = .ok r') : r'.flat = r.flat ++ [t.kind] := by
  cases after_step h with
  | delivered f waiting hks => rw [flat_deliver, hks]
  | inside focus below _ hks => rw [hks]; rfl

/-- Between the forms of the program nothing waits. -/
def Settled (r : Reader) : Prop := r.focus = .ground → r.below = []

theorem settled_step (h : r.step t = .ok r') : r'.Settled := by
  cases after_step h with
  | delivered f waiting _ =>
    cases waiting with
    | nil => exact fun _ => rfl
    | cons s below => intro hg; cases s <;> exact absurd hg (by simp [deliver, Slot.fill])
  | inside focus below hf _ => exact fun hg => absurd hg hf

/-! ## Literals -/

/-- The literals of all forms that the state holds are numbers or strings. -/
structure Textual (r : Reader) : Prop where
  done : ∀ f ∈ r.done, f.Textual
  focus : ∀ f ∈ r.focus.forms, f.Textual
  below : ∀ s ∈ r.below, ∀ f ∈ s.forms, f.Textual

theorem textual_deliver {f : Form} (hf : f.Textual) (hdone : ∀ g ∈ done, g.Textual)
    (hwaiting : ∀ s ∈ waiting, ∀ g ∈ s.forms, g.Textual) : (deliver f done waiting).Textual := by
  cases waiting with
  | nil => exact ⟨List.forall_mem_cons.2 ⟨hf, hdone⟩, by simp [deliver, Focus.forms], by simp [deliver]⟩
  | cons s below =>
    obtain ⟨hs, hbelow⟩ := List.forall_mem_cons.1 hwaiting
    refine ⟨hdone, fun g hg => ?_, hbelow⟩
    rcases s.mem_forms_fill hg with rfl | hg
    · exact hf
    · exact hs g hg

theorem textual_begin (hdone : ∀ g ∈ done, g.Textual)
    (hwaiting : ∀ s ∈ waiting, ∀ g ∈ s.forms, g.Textual) (h : begin done waiting t = .ok r') :
    r'.Textual := by
  unfold begin at h
  split at h <;> simp only [Except.ok.injEq, reduceCtorEq] at h <;> subst h
  · exact ⟨hdone, by simp [Focus.forms], hwaiting⟩
  all_goals exact textual_deliver trivial hdone hwaiting

theorem textual_atSlot {s : Slot} (hdone : ∀ g ∈ done, g.Textual) (hs : ∀ g ∈ s.forms, g.Textual)
    (hbelow : ∀ s ∈ below, ∀ g ∈ s.forms, g.Textual) (h : atSlot done s below t = .ok r') :
    r'.Textual := by
  unfold atSlot at h
  split at h
  · split at h
    · next f hf =>
      rw [← Except.ok.inj h]
      exact textual_deliver (s.textual_close hs hf) hdone hbelow
    · exact absurd h (by simp)
  · exact textual_begin hdone (List.forall_mem_cons.2 ⟨hs, hbelow⟩) h

theorem textual_endAt {f : Form} {k : Keyword} (hf : f.Textual) (hdone : ∀ g ∈ done, g.Textual)
    (hbelow : ∀ s ∈ below, ∀ g ∈ s.forms, g.Textual) (h : endAt f k done below t = .ok r') :
    r'.Textual := by
  unfold endAt at h
  split at h
  · rw [← Except.ok.inj h]
    exact textual_deliver hf hdone hbelow
  · exact absurd h (by simp)

/-- **A token gives no literals but numbers and strings.** -/
theorem textual_step (hr : r.Textual) (h : r.step t = .ok r') : r'.Textual := by
  obtain ⟨done, focus, below⟩ := r
  obtain ⟨hdone, hfocus, hbelow⟩ := hr
  have hinside : ∀ {focus' : Focus}, focus'.forms = [] → (⟨done, focus', below⟩ : Reader).Textual :=
    fun hnil => ⟨hdone, by simp [hnil], hbelow⟩
  cases focus with
  | ground => exact textual_begin hdone hbelow h
  | opened =>
    simp only [step] at h
    split at h
    · next k _ =>
      rw [← Except.ok.inj h]
      exact hinside (by cases k <;> rfl)
    · exact textual_atSlot hdone (by simp [Slot.forms]) hbelow h
  | slot s => exact textual_atSlot hdone hfocus hbelow h
  | assignEnd target value =>
    have hvalue : value.Textual := hfocus value (by simp [Focus.forms])
    exact textual_endAt (f := .assign target value) hvalue hdone hbelow h
  | branchEnd test yes no =>
    have hparts : test.Textual ∧ yes.Textual ∧ no.Textual := by simpa [Focus.forms] using hfocus
    exact textual_endAt (f := .branch test yes no) hparts hdone hbelow h
  | assignTarget | defineName =>
    obtain ⟨n, -, rfl⟩ := of_symbolAt h
    exact hinside rfl
  | defineOpen name =>
    simp only [step] at h
    split at h
    · rw [← Except.ok.inj h]
      exact hinside rfl
    · exact absurd h (by simp)
  | defineParams name params =>
    simp only [step] at h
    split at h
    · rw [← Except.ok.inj h]
      exact hinside rfl
    · obtain ⟨n, -, rfl⟩ := of_symbolAt h
      exact hinside rfl

/-! ## A run -/

/-- **A run remembers all tokens that it reads**, in order. -/
theorem flat_run (h : r.run ts = .ok r') : r'.flat = r.flat ++ ts.map Token.kind := by
  induction ts generalizing r with
  | nil => simp only [run, Except.ok.injEq] at h; simp [h]
  | cons t ts ih =>
    simp only [run] at h
    split at h
    · next r₁ hr => rw [ih h, flat_step hr]; simp
    · exact absurd h (by simp)

theorem settled_run (hr : r.Settled) (h : r.run ts = .ok r') : r'.Settled := by
  induction ts generalizing r with
  | nil => simp only [run, Except.ok.injEq] at h; exact h ▸ hr
  | cons t ts ih =>
    simp only [run] at h
    split at h
    · next r₁ hr₁ => exact ih (settled_step hr₁) h
    · exact absurd h (by simp)

theorem textual_run (hr : r.Textual) (h : r.run ts = .ok r') : r'.Textual := by
  induction ts generalizing r with
  | nil => simp only [run, Except.ok.injEq] at h; exact h ▸ hr
  | cons t ts ih =>
    simp only [run] at h
    split at h
    · next r₁ hr₁ => exact ih (textual_step hr hr₁) h
    · exact absurd h (by simp)

theorem textual_start : start.Textual := ⟨by simp [start], by simp [start, Focus.forms], by simp [start]⟩

theorem run_append (h : r.run ts = .ok r') : r.run (ts ++ us) = r'.run us := by
  induction ts generalizing r with
  | nil => simp only [run, Except.ok.injEq] at h; simp [h]
  | cons t ts ih =>
    simp only [run, List.cons_append] at h ⊢
    split at h
    · next r₁ hr => simp only [ih h]
    · exact absurd h (by simp)

/-! ## The tokens of a form are read -/

/-- From `r`, tokens of the kinds `ks` lead to `r'`. -/
def Reads (r : Reader) (ks : List TokenKind) (r' : Reader) : Prop :=
  ∀ ts : List Token, ts.map Token.kind = ks → r.run ts = .ok r'

theorem Reads.one {k : TokenKind} (h : ∀ t : Token, t.kind = k → r.step t = .ok r') :
    r.Reads [k] r' := by
  intro ts hts
  obtain ⟨t, us, rfl, hk, hus⟩ := List.map_eq_cons_iff.1 hts
  rw [List.map_eq_nil_iff.1 hus]
  simp only [run, h t hk]

theorem Reads.trans {r₁ r₂ r₃ : Reader} {ls : List TokenKind} (h₁ : r₁.Reads ks r₂)
    (h₂ : r₂.Reads ls r₃) : r₁.Reads (ks ++ ls) r₃ := by
  intro ts hts
  obtain ⟨ts₁, ts₂, rfl, hk, hl⟩ := List.map_eq_append_iff.1 hts
  rw [run_append (h₁ ts₁ hk)]
  exact h₂ ts₂ hl

/-- The state waits for a form: it takes the first token of one for the slots `waiting`. -/
def Awaits (r : Reader) (waiting : List Slot) : Prop :=
  ∀ t : Token, t.kind ≠ .rightParen → (∀ k, t.kind ≠ .keyword k) →
    r.step t = begin r.done waiting t

theorem awaits_ground (done : List Form) : Awaits ⟨done, .ground, below⟩ below :=
  fun _ _ _ => rfl

theorem awaits_slot (done : List Form) (s : Slot) (below : List Slot) :
    Awaits ⟨done, .slot s, below⟩ (s :: below) :=
  fun _ ht _ => by simp [step, atSlot, ht]

theorem Awaits.reads_one {k : TokenKind} (hr : r.Awaits waiting) (hk : k ≠ .rightParen)
    (hw : ∀ w, k ≠ .keyword w) (h : ∀ t : Token, t.kind = k → begin r.done waiting t = .ok r') :
    r.Reads [k] r' :=
  .one fun t ht => by rw [hr t (ht ▸ hk) (ht ▸ hw), h t ht]

theorem Awaits.reads_leftParen (hr : r.Awaits waiting) :
    r.Reads [.leftParen] ⟨r.done, .opened, waiting⟩ :=
  hr.reads_one (by simp) (by simp) fun t ht => by simp [begin, ht]

theorem Awaits.reads_opening (hr : r.Awaits waiting) (k : Keyword) :
    r.Reads k.opening ⟨r.done, k.focus, waiting⟩ :=
  hr.reads_leftParen.trans (.one fun t ht => by simp [step, ht])

/-- Behind an opening parenthesis an application starts, unless a keyword follows. -/
theorem reads_opened {k : TokenKind} (hk : ∀ w, k ≠ .keyword w)
    (h : Reads ⟨done, .slot (.apply []), below⟩ (k :: ks) r') :
    Reads ⟨done, .opened, below⟩ (k :: ks) r' := by
  intro ts hts
  obtain ⟨t, us, rfl, ht, -⟩ := List.map_eq_cons_iff.1 hts
  have hs : step ⟨done, .opened, below⟩ t = step ⟨done, .slot (.apply []), below⟩ t := by
    have := ht ▸ hk
    simp only [step]
  simpa only [run, hs] using h _ hts

theorem Reads.close {s : Slot} {f : Form} (h : r.Reads ks ⟨done, .slot s, below⟩)
    (hs : s.close? = some f) : r.Reads (ks ++ [.rightParen]) (deliver f done below) :=
  h.trans (.one fun t ht => by simp [step, atSlot, ht, hs])

theorem reads_end {focus : Focus} (f : Form) (k : Keyword)
    (h : ∀ t, step ⟨done, focus, below⟩ t = endAt f k done below t) :
    Reads ⟨done, focus, below⟩ [.rightParen] (deliver f done below) :=
  .one fun t ht => by simp [h, endAt, ht]

theorem reads_symbol {focus : Focus} {c : Context} {n : String} (go : String → Reader)
    (h : ∀ t, t.kind = .symbol n → step ⟨done, focus, below⟩ t = (symbolAt c t).map go) :
    Reads ⟨done, focus, below⟩ [.symbol n] (go n) :=
  .one fun t ht => by simp [h t ht, symbolAt, ht, Except.map]

/-- The parameters of a function are read up to the end of their list. -/
theorem reads_params (name : String) (params read : List String) :
    Reads ⟨done, .defineParams name read, below⟩ (params.map .symbol ++ [.rightParen])
      ⟨done, .slot (.defineBody name (read.reverse ++ params) []), below⟩ := by
  induction params generalizing read with
  | nil => exact .one fun t ht => by simp [step, ht]
  | cons p params ih =>
    have hp : Reads ⟨done, .defineParams name read, below⟩ [.symbol p]
        ⟨done, .defineParams name (p :: read), below⟩ :=
      reads_symbol (c := .parameter) (fun p => ⟨done, .defineParams name (p :: read), below⟩)
        fun t ht => by simp [step, ht]
    simpa using hp.trans (ih (p :: read))

mutual

/-- **The tokens of a form are read**, and the form is handed to the slot that waits. -/
theorem reads_form {r : Reader} {waiting : List Slot} (hr : r.Awaits waiting) :
    ∀ f : Form, f.Textual → r.Reads f.flat (deliver f r.done waiting)
  | .literal (.number x), _ =>
    hr.reads_one (k := .number x) (by simp) (by simp) fun t ht => by simp [begin, ht]
  | .literal (.string s), _ =>
    hr.reads_one (k := .string s) (by simp) (by simp) fun t ht => by simp [begin, ht]
  | .symbol n, _ => hr.reads_one (by simp) (by simp) fun t ht => by simp [begin, ht]
  | .apply [], _ =>
    hr.reads_leftParen.trans
      (reads_opened (by simp) (.one fun t ht => by simp [step, atSlot, ht, Slot.close?]))
  | .apply (f :: fs), h => by
    have hbody := (reads_forms .apply (by simp [Slot.fill]) r.done [] waiting (f :: fs) h).close
      (f := .apply (f :: fs)) (by simp [Slot.close?])
    -- the first item does not start with a keyword, so an application is opened
    obtain ⟨k, ks, hk, -, hw⟩ := f.flat_head
    simp only [Form.flatAll, hk, List.cons_append] at hbody
    have := hr.reads_leftParen.trans (reads_opened hw hbody)
    simpa [Form.flat, Form.flatAll, hk] using this
  | .assign target value, h => by
    have htarget : Reads ⟨r.done, .assignTarget, waiting⟩ [.symbol target]
        ⟨r.done, .slot (.assignValue target), waiting⟩ :=
      reads_symbol (c := .target) (fun n => ⟨r.done, .slot (.assignValue n), waiting⟩) fun t _ => rfl
    have := ((hr.reads_opening .assign).trans htarget).trans
      (reads_form (awaits_slot r.done (.assignValue target) waiting) value h)
    simpa [Form.flat] using this.trans (reads_end (.assign target value) .assign fun t => rfl)
  | .branch test yes no, h => by
    have := (((hr.reads_opening .branch).trans
      (reads_form (awaits_slot r.done .branchTest waiting) test h.1)).trans
      (reads_form (awaits_slot r.done (.branchYes test) waiting) yes h.2.1)).trans
      (reads_form (awaits_slot r.done (.branchNo test yes) waiting) no h.2.2)
    simpa [Form.flat] using this.trans (reads_end (.branch test yes no) .branch fun t => rfl)
  | .whileLoop test body, h => by
    have := ((hr.reads_opening .whileLoop).trans
      (reads_form (awaits_slot r.done .whileTest waiting) test h.1)).trans
      (reads_forms (.whileBody test) (by simp [Slot.fill]) r.done [] waiting body h.2)
    simpa [Form.flat] using this.close (f := .whileLoop test body) (by simp [Slot.close?])
  | .forLoop start test step body, h => by
    have := ((((hr.reads_opening .forLoop).trans
      (reads_form (awaits_slot r.done .forStart waiting) start h.1)).trans
      (reads_form (awaits_slot r.done (.forTest start) waiting) test h.2.1)).trans
      (reads_form (awaits_slot r.done (.forStep start test) waiting) step h.2.2.1)).trans
      (reads_forms (.forBody start test step) (by simp [Slot.fill]) r.done [] waiting body h.2.2.2)
    simpa [Form.flat] using this.close (f := .forLoop start test step body) (by simp [Slot.close?])
  | .define name params body, h => by
    have hname : Reads ⟨r.done, .defineName, waiting⟩ [.symbol name]
        ⟨r.done, .defineOpen name, waiting⟩ :=
      reads_symbol (c := .functionName) (fun n => ⟨r.done, .defineOpen n, waiting⟩) fun t _ => rfl
    have hopen : Reads ⟨r.done, .defineOpen name, waiting⟩ [.leftParen]
        ⟨r.done, .defineParams name [], waiting⟩ := .one fun t ht => by simp [step, ht]
    have := ((((hr.reads_opening .define).trans hname).trans hopen).trans
      (reads_params name params [])).trans
      (reads_forms (.defineBody name params) (by simp [Slot.fill]) r.done [] waiting body h)
    simpa [Form.flat] using this.close (f := .define name params body) (by simp [Slot.close?])

/-- A body reads the tokens of forms in a row. -/
theorem reads_forms (body : List Form → Slot)
    (hb : ∀ fs f, (body fs).fill f = .slot (body (f :: fs))) (done read : List Form)
    (below : List Slot) : ∀ fs : List Form, Form.AllTextual fs → Reads ⟨done, .slot (body read), below⟩
      (Form.flatAll fs) ⟨done, .slot (body (fs.reverse ++ read)), below⟩
  | [], _ => fun ts hts => by rw [List.map_eq_nil_iff.1 hts]; rfl
  | f :: fs, h => by
    have hf := reads_form (awaits_slot done (body read) below) f h.1
    simp only [deliver, hb] at hf
    simpa [Form.flatAll] using hf.trans (reads_forms body hb done (f :: read) below fs h.2)

end

/-- Between the forms of the program, the tokens of forms in a row are read. -/
theorem reads_program (done fs : List Form) (h : Form.AllTextual fs) :
    Reads ⟨done, .ground, []⟩ (Form.flatAll fs) ⟨fs.reverse ++ done, .ground, []⟩ := by
  induction fs generalizing done with
  | nil => exact fun ts hts => by rw [List.map_eq_nil_iff.1 hts]; rfl
  | cons f fs ih =>
    have hf : Reads ⟨done, .ground, []⟩ f.flat ⟨f :: done, .ground, []⟩ :=
      reads_form (awaits_ground done) f h.1
    simpa [Form.flatAll] using hf.trans (ih (f :: done) h.2)

end Reader

/-! ## Programs -/

theorem flatAll_of_parse {ts : List Token} {fs : List Form} (h : parse ts = .ok fs) :
    ts.map Token.kind = Form.flatAll fs := by
  unfold parse at h
  split at h
  · next r hr =>
    have hflat := Reader.flat_run hr
    have hset := Reader.settled_run (fun _ => rfl) hr
    -- only the state between forms ends a program
    obtain ⟨done, focus, below⟩ := r
    cases focus <;> simp only [Reader.finish, Except.ok.injEq, reduceCtorEq] at h
    obtain rfl : below = [] := hset rfl
    subst h
    simpa [Reader.flat, Reader.flatBelow, Focus.flat, Reader.start, Form.flatAll] using hflat.symm
  · exact absurd h (by simp)

theorem textual_of_parse {ts : List Token} {fs : List Form} (h : parse ts = .ok fs) :
    Form.AllTextual fs := by
  unfold parse at h
  split at h
  · next r hr =>
    have hdone := (Reader.textual_run Reader.textual_start hr).done
    obtain ⟨done, focus, below⟩ := r
    cases focus <;> simp only [Reader.finish, Except.ok.injEq, reduceCtorEq] at h
    subst h
    exact Form.allTextual_iff.2 fun f hf => hdone f (List.mem_reverse.1 hf)
  · exact absurd h (by simp)

theorem parse_of_flatAll {ts : List Token} {fs : List Form} (hfs : Form.AllTextual fs)
    (h : ts.map Token.kind = Form.flatAll fs) : parse ts = .ok fs := by
  have hr : Reader.start.run ts = .ok ⟨fs.reverse ++ [], .ground, []⟩ :=
    Reader.reads_program [] fs hfs ts h
  simp [parse, hr, Reader.finish]

theorem parse_eq_ok_iff {ts : List Token} {fs : List Form} :
    parse ts = .ok fs ↔ Form.AllTextual fs ∧ ts.map Token.kind = Form.flatAll fs :=
  ⟨fun h => ⟨textual_of_parse h, flatAll_of_parse h⟩, fun h => parse_of_flatAll h.1 h.2⟩

/-- Different forms from text have different tokens. -/
theorem Form.flatAll_inj {fs gs : List Form} (hfs : AllTextual fs) (hgs : AllTextual gs)
    (h : flatAll fs = flatAll gs) : fs = gs := by
  -- any tokens of these kinds are read, and reading has one result
  set ts : List Token := (Form.flatAll fs).map fun k => ⟨k, "", 0⟩
  have hts : ts.map Token.kind = Form.flatAll fs := by simp [ts, Function.comp_def]
  exact Except.ok.inj ((parse_of_flatAll hfs hts).symm.trans (parse_of_flatAll hgs (hts.trans h)))

/-- **The reader accepts exactly the grammar.** Of the forms whose literals are numbers or strings,
tokens are read as `fs` exactly when they are the tokens of `fs`, and the reader makes no others;
the grammar is unambiguous; tokens of no such forms are refused. -/
theorem parse_exact :
    (∀ (ts : List Token) (fs : List Form),
        parse ts = .ok fs ↔ Form.AllTextual fs ∧ ts.map Token.kind = Form.flatAll fs) ∧
      (∀ fs gs, Form.AllTextual fs → Form.AllTextual gs → Form.flatAll fs = Form.flatAll gs → fs = gs) ∧
      ∀ ts : List Token, (∃ e, parse ts = .error e) ↔
        ∀ fs, Form.AllTextual fs → ts.map Token.kind ≠ Form.flatAll fs := by
  refine ⟨fun ts fs => parse_eq_ok_iff, fun _ _ => Form.flatAll_inj, fun ts => ?_⟩
  constructor
  · rintro ⟨e, he⟩ fs htextual hfs
    rw [parse_of_flatAll htextual hfs] at he
    exact absurd he (by simp)
  · intro hno
    cases h : parse ts with
    | error e => exact ⟨e, rfl⟩
    | ok fs => exact absurd (flatAll_of_parse h) (hno fs (textual_of_parse h))

end FlatLisp
