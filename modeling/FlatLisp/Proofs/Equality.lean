import FlatLisp.Proofs.Code
import FlatLisp.Value.Equality

/-!
# Structural equality

Two values compare when they are built alike from numbers that `r` relates, those in the bodies of
procedures included (`Value.Compares`). The equality of programs looks at the stamps of cells too,
and does not look behind two cells with one stamp; `Value.Alike r` is the comparison by structure
alone. The stamps are sound where a stamp says what a cell holds (`Value.Stamped`): then equality
lies between structural equality with numbers compared by value (`Number.Equal`) and structural
equality in which two NaNs agree (`Number.Similar`). Only a NaN tells these two apart.

* `Value.same_iff_compares`: equality is the comparison by value that looks at stamps.
* `Value.alike_of_same`, `Value.same_of_alike`: **equality lies between the two.**
* `Value.same_trans`: equality is transitive where stamps say what cells hold.
-/

namespace FlatLisp

open Value (part_atom)

/-! ## Numbers -/

namespace Number

/-- Equality by value; a NaN equals nothing. -/
def Equal (x y : Number) : Prop := x.same y = true

/-- Equality by value, in which a NaN equals any NaN too. -/
def Similar (x y : Number) : Prop := x.Equal y ∨ x.isNaN = true ∧ y.isNaN = true

theorem equal_iff {x y : Number} :
    x.Equal y ↔ x.isNaN = false ∧ y.isNaN = false ∧ x.signedRank = y.signedRank := by
  simp [Equal, same, and_assoc]

theorem Equal.symm {x y : Number} (h : x.Equal y) : y.Equal x := by
  rw [equal_iff] at h ⊢
  exact ⟨h.2.1, h.1, h.2.2.symm⟩

theorem Equal.trans {x y z : Number} (hxy : x.Equal y) (hyz : y.Equal z) : x.Equal z := by
  rw [equal_iff] at hxy hyz ⊢
  exact ⟨hxy.1, hyz.2.1, hxy.2.2.trans hyz.2.2⟩

theorem Similar.refl (x : Number) : x.Similar x := by
  by_cases hx : x.isNaN = true
  · exact .inr ⟨hx, hx⟩
  · have hx : x.isNaN = false := by simpa using hx
    exact .inl (equal_iff.2 ⟨hx, hx, rfl⟩)

theorem Similar.equal {x y : Number} (h : x.Similar y) (hx : ¬ x.isNaN = true) : x.Equal y := by
  rcases h with h | ⟨h, -⟩
  · exact h
  · exact absurd h hx

end Number

/-! ## What lies in a form -/

/-- The value is a part of a literal in the form. -/
def Form.Holds (f : Form) (w : Value) : Prop := ∃ v, Form.Inside (.literal v) f ∧ Value.Part w v

/-- The number stands in the form. -/
def Form.Has (f : Form) (x : Number) : Prop := f.Holds (.number x)

/-- The number stands in the value, or in the body of a procedure in it. -/
def Value.Has (v : Value) (x : Number) : Prop := (Form.literal v).Has x

/-- A NaN stands in the value, or in the body of a procedure in it. -/
def Value.HasNaN (v : Value) : Prop := ∃ x, v.Has x ∧ x.isNaN = true

section Holds

variable {f g : Form} {p : Procedure Form} {v w h t : Value} {i : Nat}

theorem Form.Holds.refl : (Form.literal v).Holds v := ⟨v, .refl, .refl⟩

theorem Form.Holds.inside (hg : g.Holds w) (hgf : g.Inside f) : f.Holds w := by
  obtain ⟨v, hv, hw⟩ := hg
  exact ⟨v, hgf.trans hv, hw⟩

theorem Form.Holds.child (hg : g.Holds w) (hgf : g ∈ f.children := by simp [Form.children, *]) :
    f.Holds w := hg.inside (.child hgf .refl)

theorem Form.Holds.body (hg : g.Holds w) (hgp : g ∈ p.body) : (Form.literal (.procedure p)).Holds w :=
  hg.inside (.body .refl hgp .refl)

/-- What lies in a part of a value lies in the value. -/
theorem Form.Holds.part (hv : (Form.literal v).Holds w) (hpart : Value.Part v h) :
    (Form.literal h).Holds w := by
  obtain ⟨u, hu, hw⟩ := hv
  cases hu with
  | refl => exact ⟨h, .refl, hw.trans hpart⟩
  | child hmem => exact absurd hmem List.not_mem_nil
  | body hp hmem hu => exact ⟨u, .body (hp.trans hpart) hmem hu, hw⟩

/-- A cell holds itself and what its two parts hold. -/
theorem Form.holds_cell : (Form.literal (.cell i h t)).Holds w ↔
    w = .cell i h t ∨ (Form.literal h).Holds w ∨ (Form.literal t).Holds w := by
  constructor
  · rintro ⟨v, hv, hw⟩
    cases hv with
    | refl =>
      cases hw with
      | refl => exact .inl rfl
      | head hw => exact .inr (.inl ⟨h, .refl, hw⟩)
      | tail hw => exact .inr (.inr ⟨t, .refl, hw⟩)
    | child hmem => exact absurd hmem List.not_mem_nil
    | body hp hmem hv =>
      cases hp with
      | head hp => exact .inr (.inl ⟨v, .body hp hmem hv, hw⟩)
      | tail hp => exact .inr (.inr ⟨v, .body hp hmem hv, hw⟩)
  · rintro (rfl | hw | hw)
    · exact .refl
    · exact hw.part (.head .refl)
    · exact hw.part (.tail .refl)

/-- A procedure holds itself and what the forms of its body hold. -/
theorem Form.holds_procedure : (Form.literal (.procedure p)).Holds w ↔
    w = .procedure p ∨ ∃ f ∈ p.body, f.Holds w := by
  constructor
  · rintro ⟨v, hv, hw⟩
    cases hv with
    | refl => exact .inl (part_atom hw)
    | child hmem => exact absurd hmem List.not_mem_nil
    | body hp hmem hv =>
      obtain rfl := Atom.procedure.inj (Value.atom.inj (part_atom hp))
      exact .inr ⟨_, hmem, v, hv, hw⟩
  · rintro (rfl | ⟨f, hf, hw⟩)
    · exact .refl
    · exact hw.body hf

theorem Value.Plain.eq_of_holds (hv : v.Plain) (hw : (Form.literal v).Holds w) : w = v := by
  obtain ⟨a, rfl⟩ := hv.exists_atom
  obtain ⟨u, hu, hw⟩ := hw
  cases hu with
  | refl => exact part_atom hw
  | child hmem => exact absurd hmem List.not_mem_nil
  | body hp => exact (hv.no_procedure hp).elim

end Holds

/-! ## Comparisons -/

mutual

/-- The values are built alike, from numbers that `r` relates: builtins have one name, procedures
the same parameters and bodies that compare. The stamps of cells count if `stamps` says so: then
one stamp spares the comparison of tails. -/
inductive Value.Compares (r : Number → Number → Prop) (stamps : Prop) : Value → Value → Prop
  | number {x y : Number} : r x y → Value.Compares r stamps (.number x) (.number y)
  | string {s : String} : Value.Compares r stamps (.string s) (.string s)
  | bool {b : Bool} : Value.Compares r stamps (.bool b) (.bool b)
  | builtin {a b : Builtin} : a.name = b.name → Value.Compares r stamps (.builtin a) (.builtin b)
  | procedure {p q : Procedure Form} : p.params = q.params → Form.AllCompare r stamps p.body q.body →
    Value.Compares r stamps (.procedure p) (.procedure q)
  | nil : Value.Compares r stamps .nil .nil
  | cell {i j : Nat} {h h' t t' : Value} : Value.Compares r stamps h h' →
    Value.Compares r stamps t t' → Value.Compares r stamps (.cell i h t) (.cell j h' t')
  | shared {i : Nat} {h h' t t' : Value} : stamps → Value.Compares r stamps h h' →
    Value.Compares r stamps (.cell i h t) (.cell i h' t')

/-- The forms are built alike, from literals that compare. -/
inductive Form.Compares (r : Number → Number → Prop) (stamps : Prop) : Form → Form → Prop
  | literal {v w : Value} : Value.Compares r stamps v w →
    Form.Compares r stamps (.literal v) (.literal w)
  | symbol {n : String} : Form.Compares r stamps (.symbol n) (.symbol n)
  | apply {fs gs : List Form} : Form.AllCompare r stamps fs gs →
    Form.Compares r stamps (.apply fs) (.apply gs)
  | assign {n : String} {f g : Form} : Form.Compares r stamps f g →
    Form.Compares r stamps (.assign n f) (.assign n g)
  | branch {f₁ f₂ f₃ g₁ g₂ g₃ : Form} : Form.Compares r stamps f₁ g₁ →
    Form.Compares r stamps f₂ g₂ → Form.Compares r stamps f₃ g₃ →
    Form.Compares r stamps (.branch f₁ f₂ f₃) (.branch g₁ g₂ g₃)
  | whileLoop {f g : Form} {fs gs : List Form} : Form.Compares r stamps f g →
    Form.AllCompare r stamps fs gs → Form.Compares r stamps (.whileLoop f fs) (.whileLoop g gs)
  | forLoop {f₁ f₂ f₃ g₁ g₂ g₃ : Form} {fs gs : List Form} : Form.Compares r stamps f₁ g₁ →
    Form.Compares r stamps f₂ g₂ → Form.Compares r stamps f₃ g₃ → Form.AllCompare r stamps fs gs →
    Form.Compares r stamps (.forLoop f₁ f₂ f₃ fs) (.forLoop g₁ g₂ g₃ gs)
  | define {n : String} {ps : List String} {fs gs : List Form} : Form.AllCompare r stamps fs gs →
    Form.Compares r stamps (.define n ps fs) (.define n ps gs)

/-- The lists have forms that compare, one by one. -/
inductive Form.AllCompare (r : Number → Number → Prop) (stamps : Prop) : List Form → List Form → Prop
  | nil : Form.AllCompare r stamps [] []
  | cons {f g : Form} {fs gs : List Form} : Form.Compares r stamps f g →
    Form.AllCompare r stamps fs gs → Form.AllCompare r stamps (f :: fs) (g :: gs)

end

/-- The values are built alike, whatever the stamps of their cells. -/
def Value.Alike (r : Number → Number → Prop) : Value → Value → Prop := Value.Compares r False

section Comparisons

variable {r r' : Number → Number → Prop} {stamps : Prop}

mutual

theorem Value.Compares.symm (hr : ∀ x y, r x y → r y x) {v w : Value} :
    v.Compares r stamps w → w.Compares r stamps v
  | .number h => .number (hr _ _ h)
  | .string => .string
  | .bool => .bool
  | .builtin h => .builtin h.symm
  | .procedure hp hb => .procedure hp.symm (hb.symm hr)
  | .nil => .nil
  | .cell hh ht => .cell (hh.symm hr) (ht.symm hr)
  | .shared hs hh => .shared hs (hh.symm hr)

theorem Form.Compares.symm (hr : ∀ x y, r x y → r y x) {f g : Form} :
    f.Compares r stamps g → g.Compares r stamps f
  | .literal h => .literal (h.symm hr)
  | .symbol => .symbol
  | .apply h => .apply (h.symm hr)
  | .assign h => .assign (h.symm hr)
  | .branch h₁ h₂ h₃ => .branch (h₁.symm hr) (h₂.symm hr) (h₃.symm hr)
  | .whileLoop h hs => .whileLoop (h.symm hr) (hs.symm hr)
  | .forLoop h₁ h₂ h₃ hs => .forLoop (h₁.symm hr) (h₂.symm hr) (h₃.symm hr) (hs.symm hr)
  | .define h => .define (h.symm hr)

theorem Form.AllCompare.symm (hr : ∀ x y, r x y → r y x) {fs gs : List Form} :
    Form.AllCompare r stamps fs gs → Form.AllCompare r stamps gs fs
  | .nil => .nil
  | .cons h hs => .cons (h.symm hr) (hs.symm hr)

end

mutual

/-- A value compares with itself, if its numbers do. -/
theorem Value.compares_self : ∀ v : Value, (∀ x, v.Has x → r x x) → v.Compares r stamps v
  | .number _, hr => .number (hr _ .refl)
  | .string _, _ => .string
  | .bool _, _ => .bool
  | .builtin _, _ => .builtin rfl
  | .procedure ⟨_, _, body⟩, hr =>
    .procedure rfl (Form.allCompare_self body fun _ hf _ hx => hr _ (hx.body hf))
  | .nil, _ => .nil
  | .cell _ head tail, hr =>
    .cell (Value.compares_self head fun _ hx => hr _ (hx.part (.head .refl)))
      (Value.compares_self tail fun _ hx => hr _ (hx.part (.tail .refl)))

theorem Form.compares_self : ∀ f : Form, (∀ x, f.Has x → r x x) → f.Compares r stamps f
  | .literal v, hr => .literal (Value.compares_self v hr)
  | .symbol _, _ => .symbol
  | .apply items, hr => .apply (Form.allCompare_self items fun _ _ _ hx => hr _ hx.child)
  | .assign _ value, hr =>
    .assign (Form.compares_self value fun _ hx => hr _ hx.child)
  | .branch test yes no, hr =>
    .branch (Form.compares_self test fun _ hx => hr _ hx.child)
      (Form.compares_self yes fun _ hx => hr _ hx.child)
      (Form.compares_self no fun _ hx => hr _ hx.child)
  | .whileLoop test body, hr =>
    .whileLoop (Form.compares_self test fun _ hx => hr _ hx.child)
      (Form.allCompare_self body fun _ _ _ hx => hr _ hx.child)
  | .forLoop start test step body, hr =>
    .forLoop (Form.compares_self start fun _ hx => hr _ hx.child)
      (Form.compares_self test fun _ hx => hr _ hx.child)
      (Form.compares_self step fun _ hx => hr _ hx.child)
      (Form.allCompare_self body fun _ _ _ hx => hr _ hx.child)
  | .define _ _ body, hr => .define (Form.allCompare_self body fun _ _ _ hx => hr _ hx.child)

theorem Form.allCompare_self : ∀ fs : List Form, (∀ f ∈ fs, ∀ x, f.Has x → r x x) →
    Form.AllCompare r stamps fs fs
  | [], _ => .nil
  | f :: fs, hr =>
    .cons (Form.compares_self f (hr f List.mem_cons_self))
      (Form.allCompare_self fs fun g hg => hr g (List.mem_cons_of_mem f hg))

end

end Comparisons

/-! ## The equality of programs -/

/-- Each builtin has a name of its own. -/
theorem Builtin.find_name (b : Builtin) :
    (Builtin.core ++ Builtin.library).find? (fun c => c.name == b.name) = some b := by
  cases b <;> rfl

theorem Builtin.eq_of_name {a b : Builtin} (h : a.name = b.name) : a = b := by
  have ha := Builtin.find_name a
  rw [h, Builtin.find_name b] at ha
  exact (Option.some.inj ha).symm

section Equality

variable {stamps : Prop}

mutual

/-- What compares by value is equal, whether or not stamps count. -/
theorem Value.same_of_compares {v w : Value} : v.Compares Number.Equal stamps w → v.same w = true
  | .number h => h
  | .string | .bool => by simp [Value.same, Atom.same]
  | .builtin h => by simp [Value.same, Atom.same, Builtin.eq_of_name h]
  | .procedure hp hb => by
    simp [Value.same, Atom.same, Procedure.same, hp, Form.sameAll_of_allCompare hb]
  | .nil => rfl
  | .cell hh ht => by simp [Value.same, Value.same_of_compares hh, Value.same_of_compares ht]
  | .shared _ hh => by simp [Value.same, Value.same_of_compares hh]

theorem Form.same_of_compares {f g : Form} : f.Compares Number.Equal stamps g → f.same g = true
  | .literal h => by rw [Form.same]; exact Value.same_of_compares h
  | .symbol => by simp [Form.same]
  | .apply h => by rw [Form.same]; exact Form.sameAll_of_allCompare h
  | .assign h => by simp [Form.same, Form.same_of_compares h]
  | .branch h₁ h₂ h₃ => by
    simp [Form.same, Form.same_of_compares h₁, Form.same_of_compares h₂, Form.same_of_compares h₃]
  | .whileLoop h hs => by simp [Form.same, Form.same_of_compares h, Form.sameAll_of_allCompare hs]
  | .forLoop h₁ h₂ h₃ hs => by
    simp [Form.same, Form.same_of_compares h₁, Form.same_of_compares h₂, Form.same_of_compares h₃,
      Form.sameAll_of_allCompare hs]
  | .define h => by simp [Form.same, Form.sameAll_of_allCompare h]

theorem Form.sameAll_of_allCompare {fs gs : List Form} :
    Form.AllCompare Number.Equal stamps fs gs → Form.sameAll fs gs = true
  | .nil => rfl
  | .cons h hs => by simp [Form.sameAll, Form.same_of_compares h, Form.sameAll_of_allCompare hs]

end

mutual

theorem Value.compares_of_same : ∀ {v w : Value}, v.same w = true → v.Compares Number.Equal True w
  | .number x, w, h => by
    cases w with
    | atom b =>
      cases b <;> simp only [Value.same, Atom.same, Bool.false_eq_true] at h
      exact .number h
    | cell => exact absurd h Bool.false_ne_true
  | .string s, w, h => by
    cases w with
    | atom b =>
      cases b <;> simp only [Value.same, Atom.same, Bool.false_eq_true, beq_iff_eq] at h
      exact h ▸ .string
    | cell => exact absurd h Bool.false_ne_true
  | .bool a, w, h => by
    cases w with
    | atom b =>
      cases b <;> simp only [Value.same, Atom.same, Bool.false_eq_true, beq_iff_eq] at h
      exact h ▸ .bool
    | cell => exact absurd h Bool.false_ne_true
  | .builtin a, w, h => by
    cases w with
    | atom b =>
      cases b <;> simp only [Value.same, Atom.same, Bool.false_eq_true, beq_iff_eq] at h
      exact .builtin (congrArg _ h)
    | cell => exact absurd h Bool.false_ne_true
  | .procedure ⟨name, params, body⟩, w, h => by
    cases w with
    | atom b =>
      cases b <;> simp only [Value.same, Atom.same, Procedure.same, Bool.false_eq_true, beq_iff_eq,
        Bool.and_eq_true] at h
      exact .procedure h.1 (Form.allCompare_of_sameAll h.2)
    | cell => exact absurd h Bool.false_ne_true
  | .nil, w, h => by
    cases w with
    | atom b =>
      cases b <;> simp only [Value.same, Atom.same, Bool.false_eq_true] at h
      exact .nil
    | cell => exact absurd h Bool.false_ne_true
  | .cell i head tail, w, h => by
    cases w with
    | atom b => exact absurd h Bool.false_ne_true
    | cell j head' tail' =>
      obtain ⟨hh, rfl | ht⟩ : head.same head' = true ∧ (i = j ∨ tail.same tail' = true) := by
        simpa [Value.same] using h
      · exact .shared trivial (Value.compares_of_same hh)
      · exact .cell (Value.compares_of_same hh) (Value.compares_of_same ht)

theorem Form.compares_of_same : ∀ {f g : Form}, f.same g = true → f.Compares Number.Equal True g
  | .literal v, g, h => by
    cases g with
    | literal w => exact .literal (Value.compares_of_same h)
    | _ => exact absurd h Bool.false_ne_true
  | .symbol n, g, h => by
    cases g with
    | symbol m =>
      obtain rfl : n = m := by simpa [Form.same] using h
      exact .symbol
    | _ => exact absurd h Bool.false_ne_true
  | .apply items, g, h => by
    cases g with
    | apply items' => exact .apply (Form.allCompare_of_sameAll h)
    | _ => exact absurd h Bool.false_ne_true
  | .assign target value, g, h => by
    cases g with
    | assign target' value' =>
      obtain ⟨rfl, hv⟩ : target = target' ∧ value.same value' = true := by simpa [Form.same] using h
      exact .assign (Form.compares_of_same hv)
    | _ => exact absurd h Bool.false_ne_true
  | .branch test yes no, g, h => by
    cases g with
    | branch test' yes' no' =>
      obtain ⟨⟨h₁, h₂⟩, h₃⟩ : (test.same test' = true ∧ yes.same yes' = true) ∧
        no.same no' = true := by simpa [Form.same] using h
      exact .branch (Form.compares_of_same h₁) (Form.compares_of_same h₂) (Form.compares_of_same h₃)
    | _ => exact absurd h Bool.false_ne_true
  | .whileLoop test body, g, h => by
    cases g with
    | whileLoop test' body' =>
      obtain ⟨h, hs⟩ : test.same test' = true ∧ Form.sameAll body body' = true := by
        simpa [Form.same] using h
      exact .whileLoop (Form.compares_of_same h) (Form.allCompare_of_sameAll hs)
    | _ => exact absurd h Bool.false_ne_true
  | .forLoop start test step body, g, h => by
    cases g with
    | forLoop start' test' step' body' =>
      obtain ⟨⟨⟨h₁, h₂⟩, h₃⟩, hs⟩ : ((start.same start' = true ∧ test.same test' = true) ∧
        step.same step' = true) ∧ Form.sameAll body body' = true := by simpa [Form.same] using h
      exact .forLoop (Form.compares_of_same h₁) (Form.compares_of_same h₂)
        (Form.compares_of_same h₃) (Form.allCompare_of_sameAll hs)
    | _ => exact absurd h Bool.false_ne_true
  | .define name params body, g, h => by
    cases g with
    | define name' params' body' =>
      obtain ⟨⟨rfl, rfl⟩, hs⟩ : (name = name' ∧ params = params') ∧
        Form.sameAll body body' = true := by simpa [Form.same] using h
      exact .define (Form.allCompare_of_sameAll hs)
    | _ => exact absurd h Bool.false_ne_true

theorem Form.allCompare_of_sameAll : ∀ {fs gs : List Form},
    Form.sameAll fs gs = true → Form.AllCompare Number.Equal True fs gs
  | [], [], _ => .nil
  | f :: fs, g :: gs, h => by
    obtain ⟨h, hs⟩ : f.same g = true ∧ Form.sameAll fs gs = true := by
      simpa [Form.sameAll] using h
    exact .cons (Form.compares_of_same h) (Form.allCompare_of_sameAll hs)

end

end Equality

/-- **Equality is the comparison by value that looks at stamps.** -/
theorem Value.same_iff_compares {v w : Value} : v.same w = true ↔ v.Compares Number.Equal True w :=
  ⟨compares_of_same, same_of_compares⟩

/-! ## Sound stamps -/

/-- Each cell in the form holds what its stamp says. -/
def Form.Stamped (σ : Nat → Value × Value) (f : Form) : Prop :=
  ∀ i h t, f.Holds (.cell i h t) → σ i = (h, t)

/-- Each cell in the value, and in the bodies of procedures in it, holds what its stamp says. -/
def Value.Stamped (σ : Nat → Value × Value) (v : Value) : Prop := (Form.literal v).Stamped σ

section Stamped

variable {σ : Nat → Value × Value} {r r' : Number → Number → Prop} {stamps : Prop}

theorem Form.Stamped.child {f g : Form} (hf : f.Stamped σ)
    (hg : g ∈ f.children := by simp [Form.children, *]) : g.Stamped σ :=
  fun i h t hc => hf i h t (hc.child hg)

theorem Value.Stamped.body {p : Procedure Form} {f : Form} (hp : (Value.procedure p).Stamped σ)
    (hf : f ∈ p.body) : f.Stamped σ := fun i h t hc => hp i h t (hc.body hf)

variable {i j : Nat} {h h' t t' : Value}

theorem Value.Stamped.head (hv : (Value.cell i h t).Stamped σ) : h.Stamped σ :=
  fun j h' t' hc => hv j h' t' (hc.part (.head .refl))

theorem Value.Stamped.tail (hv : (Value.cell i h t).Stamped σ) : t.Stamped σ :=
  fun j h' t' hc => hv j h' t' (hc.part (.tail .refl))

/-- Cells with one stamp have one tail. -/
theorem Value.Stamped.tail_eq (hv : (Value.cell i h t).Stamped σ)
    (hw : (Value.cell i h' t').Stamped σ) : t = t' := by
  have hσ := (hv i h t .refl).symm.trans (hw i h' t' .refl)
  exact congrArg Prod.snd hσ

mutual

/-- Comparison is transitive where stamps say what cells hold. -/
theorem Value.Compares.trans (hr : ∀ x y z, r x y → r y z → r x z) {v w u : Value}
    (hv : v.Stamped σ) (hw : w.Stamped σ) (hu : u.Stamped σ) :
    v.Compares r stamps w → w.Compares r stamps u → v.Compares r stamps u
  | .number h, .number h' => .number (hr _ _ _ h h')
  | .string, .string => .string
  | .bool, .bool => .bool
  | .builtin h, .builtin h' => .builtin (h.trans h')
  | .procedure hp hb, .procedure hp' hb' =>
    .procedure (hp.trans hp') (hb.trans hr (fun _ => hv.body) (fun _ => hw.body) (fun _ => hu.body) hb')
  | .nil, .nil => .nil
  | .cell hh ht, .cell hh' ht' =>
    .cell (hh.trans hr hv.head hw.head hu.head hh') (ht.trans hr hv.tail hw.tail hu.tail ht')
  -- where two chains share a cell, the third one is compared with the shared tail
  | .cell hh ht, .shared _ hh' =>
    .cell (hh.trans hr hv.head hw.head hu.head hh') (hw.tail_eq hu ▸ ht)
  | .shared _ hh, .cell hh' ht' =>
    .cell (hh.trans hr hv.head hw.head hu.head hh') (hv.tail_eq hw ▸ ht')
  | .shared hs hh, .shared _ hh' => .shared hs (hh.trans hr hv.head hw.head hu.head hh')

theorem Form.Compares.trans (hr : ∀ x y z, r x y → r y z → r x z) {f g k : Form}
    (hf : f.Stamped σ) (hg : g.Stamped σ) (hk : k.Stamped σ) :
    f.Compares r stamps g → g.Compares r stamps k → f.Compares r stamps k
  | .literal h, .literal h' => .literal (h.trans hr hf hg hk h')
  | .symbol, .symbol => .symbol
  | .apply h, .apply h' =>
    .apply (h.trans hr (fun _ _ => hf.child) (fun _ _ => hg.child) (fun _ _ => hk.child) h')
  | .assign h, .assign h' => .assign (h.trans hr hf.child hg.child hk.child h')
  | .branch h₁ h₂ h₃, .branch h₁' h₂' h₃' =>
    .branch (h₁.trans hr hf.child hg.child hk.child h₁')
      (h₂.trans hr hf.child hg.child hk.child h₂')
      (h₃.trans hr hf.child hg.child hk.child h₃')
  | .whileLoop h hs, .whileLoop h' hs' =>
    .whileLoop (h.trans hr hf.child hg.child hk.child h')
      (hs.trans hr (fun _ _ => hf.child) (fun _ _ => hg.child) (fun _ _ => hk.child) hs')
  | .forLoop h₁ h₂ h₃ hs, .forLoop h₁' h₂' h₃' hs' =>
    .forLoop (h₁.trans hr hf.child hg.child hk.child h₁')
      (h₂.trans hr hf.child hg.child hk.child h₂')
      (h₃.trans hr hf.child hg.child hk.child h₃')
      (hs.trans hr (fun _ _ => hf.child) (fun _ _ => hg.child) (fun _ _ => hk.child) hs')
  | .define h, .define h' =>
    .define (h.trans hr (fun _ _ => hf.child) (fun _ _ => hg.child) (fun _ _ => hk.child) h')

theorem Form.AllCompare.trans (hr : ∀ x y z, r x y → r y z → r x z) {fs gs ks : List Form}
    (hf : ∀ f ∈ fs, f.Stamped σ) (hg : ∀ g ∈ gs, g.Stamped σ) (hk : ∀ k ∈ ks, k.Stamped σ) :
    Form.AllCompare r stamps fs gs → Form.AllCompare r stamps gs ks → Form.AllCompare r stamps fs ks
  | .nil, .nil => .nil
  | .cons h hs, .cons h' hs' =>
    .cons (h.trans hr (hf _ List.mem_cons_self) (hg _ List.mem_cons_self) (hk _ List.mem_cons_self) h')
      (hs.trans hr (fun _ hm => hf _ (List.mem_cons_of_mem _ hm))
        (fun _ hm => hg _ (List.mem_cons_of_mem _ hm)) (fun _ hm => hk _ (List.mem_cons_of_mem _ hm)) hs')

end

end Stamped

section Bounds

variable {σ : Nat → Value × Value} {r r' : Number → Number → Prop} {stamps : Prop}

/-- `r'` relates each number of the form to itself, and to all that `r` relates it to. -/
def Form.Widens (r r' : Number → Number → Prop) (f : Form) : Prop :=
  ∀ x, f.Has x → r' x x ∧ ∀ y, r x y → r' x y

theorem Form.Widens.child {f g : Form} (hf : f.Widens r r')
    (hg : g ∈ f.children := by simp [Form.children, *]) : g.Widens r r' :=
  fun x hx => hf x (hx.child hg)

theorem Form.Widens.part {v w : Value} (hv : (Form.literal v).Widens r r') (hw : Value.Part w v) :
    (Form.literal w).Widens r r' := fun x hx => hv x (hx.part hw)

theorem Form.Widens.body {p : Procedure Form} {f : Form}
    (hp : (Form.literal (.procedure p)).Widens r r') (hf : f ∈ p.body) : f.Widens r r' :=
  fun x hx => hp x (hx.body hf)

mutual

/-- Where stamps say what cells hold, what compares is alike, also by wider relations of numbers. -/
theorem Value.Compares.alike {v w : Value} (hv : v.Stamped σ) (hw : w.Stamped σ)
    (hr : (Form.literal v).Widens r r') : v.Compares r stamps w → v.Compares r' False w
  | .number h => .number ((hr _ .refl).2 _ h)
  | .string => .string
  | .bool => .bool
  | .builtin h => .builtin h
  | .procedure hp hb =>
    .procedure hp (hb.alike (fun _ => hv.body) (fun _ => hw.body) fun _ => hr.body)
  | .nil => .nil
  | .cell hh ht =>
    .cell (hh.alike hv.head hw.head (hr.part (.head .refl)))
      (ht.alike hv.tail hw.tail (hr.part (.tail .refl)))
  -- one stamp, hence one tail, which is alike itself
  | .shared _ hh =>
    .cell (hh.alike hv.head hw.head (hr.part (.head .refl)))
      (hv.tail_eq hw ▸ Value.compares_self _ fun _ hx => (hr _ (hx.part (.tail .refl))).1)

theorem Form.Compares.alike {f g : Form} (hf : f.Stamped σ) (hg : g.Stamped σ)
    (hr : f.Widens r r') : f.Compares r stamps g → f.Compares r' False g
  | .literal h => .literal (h.alike hf hg hr)
  | .symbol => .symbol
  | .apply h => .apply (h.alike (fun _ _ => hf.child) (fun _ _ => hg.child) fun _ _ => hr.child)
  | .assign h => .assign (h.alike hf.child hg.child hr.child)
  | .branch h₁ h₂ h₃ =>
    .branch (h₁.alike hf.child hg.child hr.child) (h₂.alike hf.child hg.child hr.child)
      (h₃.alike hf.child hg.child hr.child)
  | .whileLoop h hs =>
    .whileLoop (h.alike hf.child hg.child hr.child)
      (hs.alike (fun _ _ => hf.child) (fun _ _ => hg.child) fun _ _ => hr.child)
  | .forLoop h₁ h₂ h₃ hs =>
    .forLoop (h₁.alike hf.child hg.child hr.child) (h₂.alike hf.child hg.child hr.child)
      (h₃.alike hf.child hg.child hr.child)
      (hs.alike (fun _ _ => hf.child) (fun _ _ => hg.child) fun _ _ => hr.child)
  | .define h => .define (h.alike (fun _ _ => hf.child) (fun _ _ => hg.child) fun _ _ => hr.child)

theorem Form.AllCompare.alike {fs gs : List Form} (hf : ∀ f ∈ fs, f.Stamped σ)
    (hg : ∀ g ∈ gs, g.Stamped σ) (hr : ∀ f ∈ fs, f.Widens r r') :
    Form.AllCompare r stamps fs gs → Form.AllCompare r' False fs gs
  | .nil => .nil
  | .cons h hs =>
    .cons (h.alike (hf _ List.mem_cons_self) (hg _ List.mem_cons_self) (hr _ List.mem_cons_self))
      (hs.alike (fun _ hm => hf _ (List.mem_cons_of_mem _ hm))
        (fun _ hm => hg _ (List.mem_cons_of_mem _ hm)) fun _ hm => hr _ (List.mem_cons_of_mem _ hm))

end

end Bounds

/-! ## The laws of equality -/

namespace Value

variable {σ : Nat → Value × Value} {v w u : Value}

/-- **Values that are alike are equal**, whatever their stamps. -/
theorem same_of_alike (h : v.Alike Number.Equal w) : v.same w = true := same_of_compares h

theorem same_symm (h : v.same w = true) : w.same v = true :=
  same_iff_compares.2 ((same_iff_compares.1 h).symm fun _ _ => Number.Equal.symm)

/-- **Equality is transitive** where stamps say what cells hold. -/
theorem same_trans (hv : v.Stamped σ) (hw : w.Stamped σ) (hu : u.Stamped σ) (hvw : v.same w = true)
    (hwu : w.same u = true) : v.same u = true := by
  have hvw' := same_iff_compares.1 hvw
  have hwu' := same_iff_compares.1 hwu
  have hr : ∀ x y z : Number, x.Equal y → y.Equal z → x.Equal z := fun _ _ _ h => h.trans
  have hvu := Compares.trans hr hv hw hu hvw' hwu'
  exact same_iff_compares.2 hvu

/-- **Equal values are alike, if two NaNs agree.** -/
theorem alike_of_same (hv : v.Stamped σ) (hw : w.Stamped σ) (hvw : v.same w = true) :
    v.Alike Number.Similar w :=
  (same_iff_compares.1 hvw).alike hv hw fun x _ => ⟨.refl x, fun _ => .inl⟩

/-- A value without a NaN is equal only to what is alike. -/
theorem alike_of_same_of_not_hasNaN (hv : v.Stamped σ) (hw : w.Stamped σ)
    (hNaN : ¬ v.HasNaN ∨ ¬ w.HasNaN) (hvw : v.same w = true) : v.Alike Number.Equal w := by
  have hexact : ∀ {a b : Value}, a.Stamped σ → b.Stamped σ → ¬ a.HasNaN → a.same b = true →
      a.Alike Number.Equal b := by
    intro a b ha hb hNaN hab
    refine (same_iff_compares.1 hab).alike ha hb fun x hx => ⟨?_, fun _ => id⟩
    have hxNaN : ¬ x.isNaN = true := fun h => hNaN ⟨x, hx, h⟩
    exact (Number.Similar.refl x).equal hxNaN
  rcases hNaN with hNaN | hNaN
  · exact hexact hv hw hNaN hvw
  · exact (hexact hw hv hNaN (same_symm hvw)).symm fun _ _ => Number.Equal.symm

end Value

end FlatLisp
