import FlatLisp.Proofs.Holdings
import FlatLisp.Proofs.Preorder

/-!
# The code that a run comes to

Before forms are evaluated it is settled which code the run can come to: the forms that stand in
the program, and those that stand in the bodies of procedures that lie in the values at hand, in
cells or not. A literal may hold a procedure, and then the forms of its body stand in the form
around the literal too. A run makes new procedures, but only from forms among these. So the code
never grows, nor do the names that a run may bind.

* `code_iff`, `written_iff`: where no literal of a body holds a procedure, as in all that is read
  from a text, the code is what stands in the program and in the bodies of procedures that lie in
  values at hand or in the program.
* `within_of_reaches`: **every moment of a run keeps to the code of the program.**
-/

namespace FlatLisp

open Value

/-- The form is the other one, or stands anywhere in it: in a part of it, or in the body of a
procedure that a literal holds, in cells or not. -/
inductive Form.Inside (g : Form) : Form → Prop
  | refl : Inside g g
  | child {f h : Form} : h ∈ f.children → Inside g h → Inside g f
  | body {v : Value} {p : Procedure Form} {f : Form} : Value.Part (.procedure p) v → f ∈ p.body →
    Inside g f → Inside g (.literal v)

/-- What passes on from a form to its children, and from a literal to the bodies of procedures in
it, holds of all forms inside a form of which it holds. -/
theorem Form.Inside.closed {K : Form → Prop} (hchild : ∀ f, K f → ∀ g ∈ f.children, K g)
    (hbody : ∀ v, K (.literal v) → ∀ p, Value.Part (.procedure p) v → ∀ f ∈ p.body, K f)
    {f g : Form} (h : g.Inside f) (hf : K f) : K g := by
  induction h with
  | refl => exact hf
  | child hmem _ ih => exact ih (hchild _ hf _ hmem)
  | body hpart hmem _ ih => exact ih (hbody _ hf _ hpart _ hmem)

theorem Form.Inside.trans {f g h : Form} (hgh : Inside g h) (hfg : Inside f g) : Inside f h := by
  induction hgh with
  | refl => exact hfg
  | child hmem _ ih => exact .child hmem ih
  | body hpart hmem _ ih => exact .body hpart hmem ih

section Code

variable (fs : List Form) (root : Value → Prop)

/-- The form stands in the program, or in the body of a procedure that lies in a value at hand. -/
inductive Code (g : Form) : Prop
  | program {f : Form} : f ∈ fs → g.Inside f → Code g
  | body {v : Value} {p : Procedure Form} {f : Form} : root v → Value.Part (.procedure p) v →
    f ∈ p.body → g.Inside f → Code g

/-- The procedure lies in a value at hand, or in one that stands in the code. -/
def AtHand (p : Procedure Form) : Prop :=
  ∃ v, (root v ∨ Code fs root (.literal v)) ∧ Value.Part (.procedure p) v

/-- The names that a form of the code binds, and the parameters of the procedures at hand. -/
inductive Written (name : String) : Prop
  | target {f : Form} : Code fs root f → name ∈ f.targets → Written name
  | param {p : Procedure Form} : AtHand fs root p → name ∈ p.params → Written name

/-- The procedure is at hand, or the code defines it. -/
def Known (p : Procedure Form) : Prop :=
  AtHand fs root p ∨ Code fs root (.define p.name p.params p.body)

end Code

section Closure

variable {fs : List Form} {root : Value → Prop}

theorem Code.inside {f g : Form} (hf : Code fs root f) (hg : g.Inside f) : Code fs root g := by
  cases hf with
  | program hmem hf => exact .program hmem (hf.trans hg)
  | body hv hp hmem hf => exact .body hv hp hmem (hf.trans hg)

theorem Code.child {f g : Form} (hf : Code fs root f) (hg : g ∈ f.children) : Code fs root g :=
  hf.inside (.child hg .refl)

theorem AtHand.body {p : Procedure Form} {f : Form} (hp : AtHand fs root p) (hf : f ∈ p.body) :
    Code fs root f := by
  obtain ⟨v, hv | hv, hpart⟩ := hp
  · exact .body hv hpart hf .refl
  · exact hv.inside (.body hpart hf .refl)

theorem Known.body {p : Procedure Form} {f : Form} (hp : Known fs root p) (hf : f ∈ p.body) :
    Code fs root f := by
  rcases hp with hp | hp
  · exact hp.body hf
  · exact hp.child hf

theorem Known.param {p : Procedure Form} {name : String} (hp : Known fs root p)
    (hname : name ∈ p.params) : Written fs root name := by
  rcases hp with hp | hp
  · exact .param hp hname
  · exact .target hp (List.mem_cons_of_mem _ hname)

end Closure

/-! ## Bodies that hold no procedures -/

namespace Form

variable {f g h : Form} {fs : List Form}

theorem inside_of_mem_nodes (h : g ∈ f.nodes) : g.Inside f := by
  induction f using children_induction with
  | h f ih =>
    rw [nodes_eq, List.mem_cons, List.mem_flatMap] at h
    rcases h with rfl | ⟨h, hh, hg⟩
    · exact .refl
    · exact .child hh (ih h hh hg)

theorem mem_nodes_self (f : Form) : f ∈ f.nodes := by
  rw [nodes_eq]
  exact List.mem_cons_self

theorem mem_nodes_of_children (hg : g ∈ f.nodes) (hh : h ∈ g.children) : h ∈ f.nodes := by
  induction f using children_induction with
  | h f ih =>
    rw [nodes_eq, List.mem_cons, List.mem_flatMap] at hg ⊢
    rcases hg with rfl | ⟨f', hf', hg⟩
    · exact .inr ⟨h, hh, mem_nodes_self h⟩
    · exact .inr ⟨f', hf', ih f' hf' hg⟩

theorem mem_flatMap_nodes_self (hf : f ∈ fs) : f ∈ fs.flatMap nodes :=
  List.mem_flatMap.2 ⟨f, hf, mem_nodes_self f⟩

theorem mem_flatMap_nodes_of_children (hf : f ∈ fs.flatMap nodes) (hg : g ∈ f.children) :
    g ∈ fs.flatMap nodes := by
  obtain ⟨f', hf', hf⟩ := List.mem_flatMap.1 hf
  exact List.mem_flatMap.2 ⟨f', hf', mem_nodes_of_children hf hg⟩

end Form

/-- No literal in the forms holds a procedure. -/
def WithoutProcedures (fs : List Form) : Prop :=
  ∀ v, .literal v ∈ fs.flatMap Form.nodes → ∀ p, ¬ Value.Part (.procedure p) v

section Apparent

variable (fs : List Form) (root : Value → Prop)

/-- The procedure lies in a value at hand, or in a literal of the program. -/
def Given (p : Procedure Form) : Prop :=
  ∃ v, (root v ∨ .literal v ∈ fs.flatMap Form.nodes) ∧ Value.Part (.procedure p) v

/-- The form stands in the program, or in the body of such a procedure; no literal of a body is
looked into. -/
def Apparent (g : Form) : Prop :=
  g ∈ fs.flatMap Form.nodes ∨ ∃ p, Given fs root p ∧ g ∈ p.body.flatMap Form.nodes

variable {fs root} {p : Procedure Form} {f g : Form} {name : String}

theorem Given.atHand (hp : Given fs root p) : AtHand fs root p := by
  obtain ⟨v, hv | hv, hpart⟩ := hp
  · exact ⟨v, .inl hv, hpart⟩
  · obtain ⟨f, hf, hv⟩ := List.mem_flatMap.1 hv
    exact ⟨v, .inr (.program hf (Form.inside_of_mem_nodes hv)), hpart⟩

theorem Apparent.code (hg : Apparent fs root g) : Code fs root g := by
  rcases hg with hg | ⟨p, hp, hg⟩
  · obtain ⟨f, hf, hg⟩ := List.mem_flatMap.1 hg
    exact .program hf (Form.inside_of_mem_nodes hg)
  · obtain ⟨f, hf, hg⟩ := List.mem_flatMap.1 hg
    exact (hp.atHand.body hf).inside (Form.inside_of_mem_nodes hg)

theorem Given.apparent (hp : Given fs root p) (hf : f ∈ p.body) : Apparent fs root f :=
  .inr ⟨p, hp, Form.mem_flatMap_nodes_self hf⟩

/-- The procedures in literals that stand there lie in the program, if none lies in a body. -/
theorem Apparent.given (h : ∀ p, Given fs root p → WithoutProcedures p.body) {v : Value}
    (hv : Apparent fs root (.literal v)) (hp : Value.Part (.procedure p) v) : Given fs root p := by
  rcases hv with hv | ⟨q, hq, hv⟩
  · exact ⟨v, .inr hv, hp⟩
  · exact absurd hp (h q hq v hv p)

theorem Apparent.inside (h : ∀ p, Given fs root p → WithoutProcedures p.body)
    (hf : Apparent fs root f) (hg : g.Inside f) : Apparent fs root g := by
  -- a literal that holds a procedure stands in the program, not in a body, and gives it
  refine hg.closed ?_ (fun v hv p hp f hf => (hv.given h hp).apparent hf) hf
  rintro f (hf | ⟨p, hp, hf⟩) c hc
  · exact .inl (Form.mem_flatMap_nodes_of_children hf hc)
  · exact .inr ⟨p, hp, Form.mem_flatMap_nodes_of_children hf hc⟩

/-- **Where no body holds a procedure**, the code is what stands in the program, and in the bodies
of procedures that lie in values at hand or in the program. -/
theorem code_iff (h : ∀ p, Given fs root p → WithoutProcedures p.body) :
    Code fs root g ↔ Apparent fs root g := by
  refine ⟨fun hg => ?_, Apparent.code⟩
  cases hg with
  | program hf hg => exact .inside h (.inl (Form.mem_flatMap_nodes_self hf)) hg
  | body hv hp hf hg =>
    have hgiven : Given fs root _ := ⟨_, .inl hv, hp⟩
    exact .inside h (hgiven.apparent hf) hg

/-- And the names that are written are those that these forms bind, and the parameters of these
procedures. -/
theorem written_iff (h : ∀ p, Given fs root p → WithoutProcedures p.body) :
    Written fs root name ↔ (∃ f, Apparent fs root f ∧ name ∈ f.targets) ∨
      ∃ p, Given fs root p ∧ name ∈ p.params := by
  constructor
  · rintro (⟨hf, hname⟩ | ⟨⟨v, hv | hv, hpart⟩, hname⟩)
    · exact .inl ⟨_, (code_iff h).1 hf, hname⟩
    · exact .inr ⟨_, ⟨v, .inl hv, hpart⟩, hname⟩
    · exact .inr ⟨_, ((code_iff h).1 hv).given h hpart, hname⟩
  · rintro (⟨f, hf, hname⟩ | ⟨p, hp, hname⟩)
    · exact .target hf.code hname
    · exact .param hp.atHand hname

end Apparent

/-! ## Runs -/

/-- All names. -/
def AnyName (_ : String) : Prop := True

/-- The value is bound to a name that counts. -/
def Environment.Binds (e : Environment) (N : String → Prop) (v : Value) : Prop :=
  ∃ name, N name ∧ e.find? name = some v

namespace Moment

/-- What the moment holds keeps to the code of a program. -/
structure Within (N : String → Prop) (fs : List Form) (root : Value → Prop) (m : Moment) : Prop where
  forms : ∀ f, m.Awaits f → Code fs root f
  assigns : ∀ name, m.Assigns name → Written fs root name
  procedures : ∀ v p, m.Holds N v → Value.Part (.procedure p) v → Known fs root p

section Runs

variable {N : String → Prop} {fs : List Form} {root : Value → Prop} {m m' : Moment} {s : Session}

theorem within_start : (start fs s).Within N fs (s.env.Binds N) where
  forms f hf := by
    cases hf with
    | control hf => exact absurd hf List.not_mem_nil
    | waiting hw hf =>
      obtain rfl := List.mem_singleton.1 hw
      exact .program hf .refl
  assigns name h := by
    obtain ⟨w, hw, hname⟩ := h
    obtain rfl := List.mem_singleton.1 hw
    exact absurd hname List.not_mem_nil
  procedures v p hv hp := by
    cases hv with
    | control hv =>
      obtain rfl := List.mem_singleton.1 hv
      exact (Plain.no_procedure (v := .nil) trivial hp).elim
    | waiting hw hv =>
      obtain rfl := List.mem_singleton.1 hw
      exact absurd hv List.not_mem_nil
    | @bound name _ hN h => exact .inl ⟨v, .inl ⟨name, hN, h⟩, hp⟩

theorem Within.control (h : m.Within N fs root) {f : Form} (hm : m.control = .form f) :
    Code fs root f :=
  h.forms f (.control (by simp [hm, Control.forms]))

/-- The names that a step binds were settled before the run. -/
theorem Within.written (h : m.Within N fs root) {name : String} (hname : m.Writes N name) :
    Written fs root name := by
  cases hname with
  | assigned hname => exact h.assigns name hname
  | target hm hname => exact .target (h.control hm) hname
  | param hp hname => exact (h.procedures _ _ hp .refl).param hname

/-- A step keeps to the code. -/
theorem Within.step (h : m.Within N fs root) (hstep : m.Successor N m') : m'.Within N fs root where
  forms f hf := by
    cases hstep.forms f hf with
    | awaited hf => exact h.forms f hf
    | child hm hmem => exact (h.control hm).child hmem
    | body hp hmem => exact (h.procedures _ _ hp .refl).body hmem
  assigns name hname := by
    rcases hstep.assigns name hname with hname | ⟨f, hm, hmem⟩
    · exact h.assigns name hname
    · exact .target (h.control hm) hmem
  procedures v p hv hp := by
    obtain ⟨y, hy, -, hvalues⟩ := hstep.values
    cases hvalues v hv with
    | held hv => exact h.procedures v p hv hp
    | plain hv => exact (hv.no_procedure hp).elim
    | literal hm => exact .inl ⟨v, .inr (h.control hm), hp⟩
    | defined hm =>
      obtain rfl := Atom.procedure.inj (Value.atom.inj (part_atom hp))
      exact .inr (h.control hm)
    | fresh =>
      -- a procedure in fresh cells lies in what they are made of
      obtain ⟨u, hu, hpart⟩ := part_ofList hp
      rcases hy u hu with hplain | ⟨a, ha, hua⟩
      · exact (hplain.no_procedure hpart).elim
      · exact h.procedures a p ha (hpart.trans hua)

/-- A step from a moment that keeps to the code, if the code looks up only names that count. -/
theorem Within.successor (h : m.Within N fs root) (hN : ∀ name, Code fs root (.symbol name) → N name)
    (hnext : m.next = some m') : m.Successor N m' :=
  Moment.successor (fun name hm => hN name (h.control hm)) hnext

/-- **Every moment of a run keeps to the code of the program.** -/
theorem within_of_reaches (hN : ∀ name, Code fs root (.symbol name) → N name)
    (hm : m.Within N fs root) (h : m.Reaches m') : m'.Within N fs root := by
  induction h with
  | refl => exact hm
  | tail _ hnext ih => exact ih.step (ih.successor hN hnext)

end Runs

end Moment

end FlatLisp
