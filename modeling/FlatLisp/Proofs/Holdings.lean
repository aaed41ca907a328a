import FlatLisp.Proofs.LastWrite
import FlatLisp.Proofs.Parts
import FlatLisp.Proofs.Stepping

/-!
# What a moment holds

A moment holds values, forms that are still to be evaluated, and names that a form will bind.
`Successor m m'` says once and for all where those of the next moment come from; invariants of
evaluation follow from it and never look at a step again. The values bound to some names may be
left out of account (`N` has the names that count), if no lookup of these comes.

* `Moment.successor`: **what a step can do.**
-/

namespace FlatLisp

open Value

/-! ## Values, forms and names -/

/-- The names that evaluating a form itself binds, or that a call of its function does. -/
def Form.targets : Form → List String
  | .assign target _ => [target]
  | .define name params _ => name :: params
  | _ => []

def Control.values : Control → List Value
  | .value v => [v]
  | _ => []

def Control.forms : Control → List Form
  | .form f => [f]
  | _ => []

def Frame.values : Frame → List Value
  | .operand _ callee found _ => callee :: found
  | .test _ last | .step _ last => [last]
  | _ => []

def Cycle.forms (c : Cycle) : List Form := c.test :: c.body ++ c.step.toList

def Frame.forms : Frame → List Form
  | .operator _ rest | .operand _ _ _ rest => rest
  | .branches yes no => [yes, no]
  | .body fs => fs
  | .start c | .test c _ | .round c | .step c _ => c.forms
  | .target _ => []

def Frame.targets : Frame → List String
  | .target name => [name]
  | _ => []

namespace Moment

/-- The value is in flight, or bound to a name that counts. -/
inductive Holds (N : String → Prop) (m : Moment) : Value → Prop
  | control {v : Value} : v ∈ m.control.values → Holds N m v
  | waiting {w : Frame} {v : Value} : w ∈ m.waiting → v ∈ w.values → Holds N m v
  | bound {name : String} {v : Value} : N name → m.session.env.find? name = some v → Holds N m v

/-- The form is still to be evaluated, now or later. -/
inductive Awaits (m : Moment) : Form → Prop
  | control {f : Form} : f ∈ m.control.forms → Awaits m f
  | waiting {w : Frame} {f : Form} : w ∈ m.waiting → f ∈ w.forms → Awaits m f

/-- The name will be bound by a form that is waiting for its value. -/
def Assigns (m : Moment) (name : String) : Prop := ∃ w ∈ m.waiting, name ∈ w.targets

/-- Where a value of the next moment comes from; `fresh` is what a builtin returns. -/
inductive Yields (N : String → Prop) (m : Moment) (fresh : Value) : Value → Prop
  | held {v : Value} : m.Holds N v → Yields N m fresh v
  | plain {v : Value} : v.Plain → Yields N m fresh v
  | literal {v : Value} : m.control = .form (.literal v) → Yields N m fresh v
  | defined {name : String} {params : List String} {body : List Form} :
    m.control = .form (.define name params body) → Yields N m fresh (.procedure ⟨name, params, body⟩)
  | fresh : Yields N m fresh fresh

/-- Where a form of the next moment comes from. -/
inductive Offers (N : String → Prop) (m : Moment) : Form → Prop
  | awaited {f : Form} : m.Awaits f → Offers N m f
  | child {f g : Form} : m.control = .form g → f ∈ g.children → Offers N m f
  | body {p : Procedure Form} {f : Form} : m.Holds N (.procedure p) → f ∈ p.body → Offers N m f

/-- The names that a step may bind. -/
inductive Writes (N : String → Prop) (m : Moment) : String → Prop
  | assigned {name : String} : m.Assigns name → Writes N m name
  | target {f : Form} {name : String} : m.control = .form f → name ∈ f.targets → Writes N m name
  | param {p : Procedure Form} {name : String} : m.Holds N (.procedure p) → name ∈ p.params →
    Writes N m name

/-- What the next moment holds, and where it comes from. -/
structure Successor (N : String → Prop) (m m' : Moment) : Prop where
  values : ∃ y : Yield, (∀ v ∈ y.tail :: y.items, v.Plain ∨ ∃ a, m.Holds N a ∧ v.Part a) ∧
    m'.session.nextStamp = m.session.nextStamp + y.items.length ∧
    ∀ v, m'.Holds N v → m.Yields N (.ofList m.session.nextStamp y.items y.tail) v
  forms : ∀ f, m'.Awaits f → m.Offers N f
  assigns : ∀ name, m'.Assigns name →
    m.Assigns name ∨ ∃ f, m.control = .form f ∧ name ∈ f.targets
  unwritten : ∀ name, ¬ m.Writes N name → m'.session.env.find? name = m.session.env.find? name
  bound : ∀ name, (m.session.env.find? name).isSome → (m'.session.env.find? name).isSome
  unbound : ∀ name, m'.control = .failure (.run (.unbound name)) → m.session.env.find? name = none

/-- What a step does to the session when no builtin is called. -/
structure Settles (N : String → Prop) (m : Moment) (s : Session) : Prop where
  stamp : s.nextStamp = m.session.nextStamp
  values : ∀ name v, N name → s.env.find? name = some v → m.Yields N .nil v
  unwritten : ∀ name, ¬ m.Writes N name → s.env.find? name = m.session.env.find? name
  bound : ∀ name, (m.session.env.find? name).isSome → (s.env.find? name).isSome

section Steps

variable {N : String → Prop} {m : Moment} {c : Control} {k : List Frame} {s : Session}

theorem settles_same : m.Settles N m.session where
  stamp := rfl
  values _ _ hN h := .held (.bound hN h)
  unwritten _ _ := rfl
  bound _ h := h

theorem settles_define {name : String} {v : Value} (hname : m.Writes N name)
    (hv : m.Yields N .nil v) : m.Settles N (m.session.define name v) where
  stamp := rfl
  values n u hN h := by
    simp only [Session.define, Environment.find?_define] at h
    split at h
    · obtain rfl := Option.some.inj h
      exact hv
    · exact .held (.bound hN h)
  unwritten n hn := by
    have hne : name ≠ n := by
      rintro rfl
      exact hn hname
    simp only [Session.define, Environment.find?_define, if_neg hne]
  bound _ h := Environment.isSome_find?_defineAll h [(name, v)]

theorem settles_bind {p : Procedure Form} {arguments : List Value} (hp : m.Holds N (.procedure p))
    (harg : ∀ v ∈ arguments, m.Holds N v) : m.Settles N (m.session.bind p.params arguments) where
  stamp := rfl
  values n u hN h := by
    rcases Environment.find?_defineAll_cases h with h | h
    · exact .held (harg u (List.of_mem_zip h).2)
    · exact .held (.bound hN h)
  unwritten n hn := by
    refine Environment.find?_defineAll_of_notMem (fun hmem => hn (.param hp ?_)) _
    obtain ⟨b, hb, rfl⟩ := List.mem_map.1 hmem
    exact (List.of_mem_zip (a := b.1) (b := b.2) hb).1
  bound _ h := Environment.isSome_find?_defineAll h _

/-- A step without a builtin: new frames come in front of frames that wait. -/
theorem successor_of (ws : List Frame) (hk : ∀ w ∈ k, w ∈ m.waiting) (hs : m.Settles N s)
    (hvalues : ∀ v ∈ c.values ++ ws.flatMap Frame.values, m.Yields N .nil v)
    (hforms : ∀ f ∈ c.forms ++ ws.flatMap Frame.forms, m.Offers N f)
    (hassigns : ∀ name ∈ ws.flatMap Frame.targets, ∃ f, m.control = .form f ∧ name ∈ f.targets)
    (hfail : ∀ name, c = .failure (.run (.unbound name)) → m.session.env.find? name = none) :
    m.Successor N ⟨c, ws ++ k, s⟩ where
  values := by
    refine ⟨.value .nil, fun v hv => .inl ?_, hs.stamp, fun v hv => ?_⟩
    · obtain rfl : v = .nil := by simpa [Yield.value] using hv
      exact trivial
    · cases hv with
      | control hv => exact hvalues v (List.mem_append_left _ hv)
      | @waiting w _ hw hv =>
        rcases List.mem_append.1 hw with hw | hw
        · exact hvalues v (List.mem_append_right _ (List.mem_flatMap.2 ⟨w, hw, hv⟩))
        · exact .held (.waiting (hk w hw) hv)
      | bound hN h => exact hs.values _ v hN h
  forms f hf := by
    cases hf with
    | control hf => exact hforms f (List.mem_append_left _ hf)
    | @waiting w _ hw hf =>
      rcases List.mem_append.1 hw with hw | hw
      · exact hforms f (List.mem_append_right _ (List.mem_flatMap.2 ⟨w, hw, hf⟩))
      · exact .awaited (.waiting (hk w hw) hf)
  assigns name h := by
    obtain ⟨w, hw, hname⟩ := h
    rcases List.mem_append.1 hw with hw | hw
    · exact .inr (hassigns name (List.mem_flatMap.2 ⟨w, hw, hname⟩))
    · exact .inl ⟨w, hk w hw, hname⟩
  unwritten := hs.unwritten
  bound := hs.bound
  unbound := hfail

/-- A builtin is called on values at hand. -/
theorem successor_builtin {b : Builtin} {arguments : List Value} (head : Form)
    (hk : ∀ w ∈ k, w ∈ m.waiting) (harg : ∀ v ∈ arguments, m.Holds N v) :
    m.Successor N (applied head (.builtin b) arguments k m.session) := by
  rcases b.call_cases arguments m.session with ⟨y, hy, hcall⟩ | ⟨e, he, hcall⟩
  · have hnext : applied head (.builtin b) arguments k m.session =
        ⟨.value (m.session.receive y).1, k, (m.session.receive y).2⟩ := by
      simp only [applied, hcall]
    rw [hnext]
    refine ⟨⟨y, fun v hv => ?_, rfl, fun v hv => ?_⟩, fun f hf => ?_, fun name h => ?_,
      fun _ _ => rfl, fun _ h => h, fun _ h => by simp at h⟩
    · rcases hy v hv with hplain | ⟨a, ha, hpart⟩
      · exact .inl hplain
      · exact .inr ⟨a, harg a ha, hpart⟩
    · cases hv with
      | control hv =>
        obtain rfl := List.mem_singleton.1 hv
        exact .fresh
      | waiting hw hv => exact .held (.waiting (hk _ hw) hv)
      | bound hN h => exact .held (.bound hN h)
    · cases hf with
      | control hf => exact absurd hf (by simp [Control.forms])
      | waiting hw hf => exact .awaited (.waiting (hk _ hw) hf)
    · obtain ⟨w, hw, hname⟩ := h
      exact .inl ⟨w, hk w hw, hname⟩
  · have hnext : applied head (.builtin b) arguments k m.session =
        ⟨.failure (.run e), [] ++ k, m.session⟩ := by
      simp only [applied, hcall, List.nil_append]
    rw [hnext]
    refine successor_of [] hk settles_same (by simp [Control.values]) (by simp [Control.forms])
      (by simp) fun name h => ?_
    obtain rfl : e = .unbound name := by simpa using h
    exact absurd rfl (he name)

/-- A callee is applied to arguments at hand. -/
theorem successor_applied {callee : Value} {arguments : List Value} (head : Form)
    (hk : ∀ w ∈ k, w ∈ m.waiting) (hcallee : m.Holds N callee)
    (harg : ∀ v ∈ arguments, m.Holds N v) :
    m.Successor N (applied head callee arguments k m.session) := by
  have hfail : ∀ e, (∀ name, e ≠ .unbound name) →
      m.Successor N ⟨.failure (.run e), k, m.session⟩ := fun e he =>
    successor_of [] hk settles_same (by simp [Control.values]) (by simp [Control.forms]) (by simp)
      fun name h => absurd (by simpa using h) (he name)
  cases callee with
  | cell stamp first tail => exact hfail _ (by simp)
  | atom a =>
    cases a with
    | builtin b => exact successor_builtin head hk harg
    | procedure p =>
      simp only [applied]
      split
      · refine successor_of [.body p.body] hk (settles_bind hcallee harg) ?_ ?_ (by simp [Frame.targets])
          (by simp)
        · intro v hv
          obtain rfl : v = .nil := by simpa [Control.values, Frame.values] using hv
          exact .plain trivial
        · intro f hf
          exact .body hcallee (by simpa [Control.forms, Frame.forms] using hf)
      · exact hfail _ (by simp)
    | _ => exact hfail _ (by simp)

/-- The arguments that are missing come before the call. -/
theorem successor_collect {callee : Value} {found : List Value} {rest : List Form} (head : Form)
    (hk : ∀ w ∈ k, w ∈ m.waiting) (hcallee : m.Holds N callee)
    (hfound : ∀ v ∈ found, m.Holds N v) (hrest : ∀ f ∈ rest, m.Awaits f) :
    m.Successor N (collect head callee found rest k m.session) := by
  cases rest with
  | nil =>
    refine successor_applied head hk hcallee fun v hv => hfound v ?_
    exact List.mem_reverse.1 hv
  | cons f rest =>
    refine successor_of [.operand head callee found rest] hk settles_same ?_ ?_
      (by simp [Frame.targets]) (by simp)
    · intro v hv
      have hv : v = callee ∨ v ∈ found := by simpa [Control.values, Frame.values] using hv
      rcases hv with rfl | hv
      · exact .held hcallee
      · exact .held (hfound v hv)
    · intro g hg
      exact .awaited (hrest g (by simpa [Control.forms, Frame.forms] using hg))

/-- The first step of a form. -/
theorem successor_enter {f : Form} (hN : ∀ name, f = .symbol name → N name) (hm : m.control = .form f) :
    m.Successor N (enter f m.waiting m.session) := by
  have hk : ∀ w ∈ m.waiting, w ∈ m.waiting := fun _ h => h
  have hchild : ∀ g ∈ f.children, m.Offers N g := fun g hg => .child hm hg
  -- a part of the form comes next, and a frame waits for it
  have hpart : ∀ (g : Form) (w : Frame), (∀ v ∈ w.values, v.Plain) → (∀ h ∈ g :: w.forms, h ∈ f.children) →
      (∀ name ∈ w.targets, name ∈ f.targets) → m.Successor N ⟨.form g, w :: m.waiting, m.session⟩ := by
    intro g w hv hg ht
    refine successor_of [w] hk settles_same ?_ ?_ ?_ (by simp)
    · intro v hw
      exact .plain (hv v (by simpa [Control.values] using hw))
    · intro h hh
      exact hchild h (hg h (by simpa [Control.forms] using hh))
    · intro name hname
      exact ⟨f, hm, ht name (by simpa using hname)⟩
  cases f with
  | literal u =>
    refine successor_of [] hk settles_same ?_ (by simp [Control.forms]) (by simp) (by simp)
    intro v hv
    obtain rfl : v = u := by simpa [Control.values] using hv
    exact .literal hm
  | symbol name =>
    simp only [enter]
    cases hfind : m.session.env.find? name with
    | some u =>
      refine successor_of [] hk settles_same ?_ (by simp [Control.forms]) (by simp) (by simp)
      intro v hv
      obtain rfl : v = u := by simpa [Control.values] using hv
      exact .held (.bound (hN name rfl) hfind)
    | none =>
      refine successor_of [] hk settles_same (by simp [Control.values]) (by simp [Control.forms])
        (by simp) fun n hn => ?_
      obtain rfl : name = n := by simpa using hn
      exact hfind
  | apply items =>
    cases items with
    | nil =>
      exact successor_of [] hk settles_same (by simp [Control.values]) (by simp [Control.forms])
        (by simp) (by simp)
    | cons head rest =>
      exact hpart head (.operator head rest) (by simp [Frame.values])
        (by simp [Frame.forms, Form.children]) (by simp [Frame.targets])
  | assign target value =>
    exact hpart value (.target target) (by simp [Frame.values]) (by simp [Frame.forms, Form.children])
      (by simp [Frame.targets, Form.targets])
  | branch test yes no =>
    exact hpart test (.branches yes no) (by simp [Frame.values])
      (by simp [Frame.forms, Form.children]) (by simp [Frame.targets])
  | whileLoop test body =>
    exact hpart test (.test ⟨test, body, none⟩ .nil) (by simp [Frame.values, Plain])
      (by simp [Frame.forms, Cycle.forms, Form.children]) (by simp [Frame.targets])
  | forLoop start test step body =>
    exact hpart start (.start ⟨test, body, some step⟩) (by simp [Frame.values])
      (by simp [Frame.forms, Cycle.forms, Form.children]; tauto) (by simp [Frame.targets])
  | define name params body =>
    refine successor_of [] hk ?_ ?_ (by simp [Control.forms]) (by simp) (by simp)
    · exact settles_define (.target hm (by simp [Form.targets])) (.defined hm)
    · intro v hv
      obtain rfl : v = .nil := by simpa [Control.values] using hv
      exact .plain trivial

/-- A frame takes a value. -/
theorem successor_resume {w : Frame} {v : Value} (hm : m.control = .value v)
    (hw : m.waiting = w :: k) : m.Successor N (resume w v k m.session) := by
  have hk : ∀ w' ∈ k, w' ∈ m.waiting := fun w' h => hw ▸ List.mem_cons_of_mem w h
  have hmem : w ∈ m.waiting := hw ▸ List.mem_cons_self
  have hv : m.Holds N v := .control (by simp [hm, Control.values])
  have hheld : ∀ u ∈ w.values, m.Holds N u := fun u hu => .waiting hmem hu
  have hform : ∀ f ∈ w.forms, m.Awaits f := fun f hf => .waiting hmem hf
  -- a part of the frame comes next, and perhaps another frame waits for it
  have hgoes : ∀ (c : Control) (ws : List Frame),
      (∀ u ∈ c.values ++ ws.flatMap Frame.values, u.Plain ∨ u = v ∨ u ∈ w.values) →
      (∀ f ∈ c.forms ++ ws.flatMap Frame.forms, f ∈ w.forms) →
      (∀ name, name ∉ ws.flatMap Frame.targets) → (∀ e, c ≠ .failure e) →
      m.Successor N ⟨c, ws ++ k, m.session⟩ := by
    intro c ws hu hf ht hc
    refine successor_of ws hk settles_same (fun u hmem => ?_) (fun f hmem => .awaited (hform f (hf f hmem)))
      (fun name hname => absurd hname (ht name)) fun name h => absurd h (hc _)
    rcases hu u hmem with hplain | rfl | hmem
    · exact .plain hplain
    · exact .held hv
    · exact .held (hheld u hmem)
  cases w with
  | operator head rest => exact successor_collect head hk hv (by simp) hform
  | operand head callee found rest =>
    refine successor_collect head hk (hheld callee (by simp [Frame.values])) (fun u hu => ?_) hform
    rcases List.mem_cons.1 hu with rfl | hu
    · exact hv
    · exact hheld u (by simp [Frame.values, hu])
  | target name =>
    have hname : m.Assigns name := ⟨_, hmem, by simp [Frame.targets]⟩
    refine successor_of [] hk (settles_define (.assigned hname) (.held hv)) ?_ (by simp [Control.forms])
      (by simp) (by simp)
    intro u hu
    obtain rfl : u = v := by simpa [Control.values] using hu
    exact .held hv
  | branches yes no =>
    refine hgoes (.form (if v.truthy then yes else no)) [] (by simp [Control.values]) ?_ (by simp)
      (by simp)
    intro f hf
    obtain rfl : f = if v.truthy then yes else no := by simpa [Control.forms] using hf
    split <;> simp [Frame.forms]
  | body fs =>
    cases fs with
    | nil => exact hgoes (.value v) [] (by simp [Control.values]) (by simp [Control.forms]) (by simp) (by simp)
    | cons f fs =>
      exact hgoes (.form f) [.body fs] (by simp [Control.values, Frame.values])
        (by simp [Control.forms, Frame.forms]) (by simp [Frame.targets]) (by simp)
  | start c =>
    exact hgoes (.form c.test) [.test c .nil] (by simp [Control.values, Frame.values, Plain])
      (by simp [Control.forms, Frame.forms, Cycle.forms]) (by simp [Frame.targets]) (by simp)
  | test c last =>
    simp only [resume]
    split
    · refine hgoes (.value last) [.body c.body, .round c] (by simp [Control.values, Frame.values])
        ?_ (by simp [Frame.targets]) (by simp)
      intro f hf
      have hf : f ∈ c.body ∨ f ∈ c.forms := by simpa [Control.forms, Frame.forms] using hf
      rcases hf with hf | hf
      · exact List.mem_append_left _ (List.mem_cons_of_mem _ hf)
      · exact hf
    · exact hgoes (.value last) [] (by simp [Control.values, Frame.values]) (by simp [Control.forms])
        (by simp) (by simp)
  | round c =>
    simp only [resume]
    cases hstep : c.step with
    | none =>
      exact hgoes (.form c.test) [.test c v] (by simp [Control.values, Frame.values])
        (by simp [Control.forms, Frame.forms, Cycle.forms]) (by simp [Frame.targets]) (by simp)
    | some f =>
      exact hgoes (.form f) [.step c v] (by simp [Control.values, Frame.values])
        (by simp [Control.forms, Frame.forms, Cycle.forms, hstep]) (by simp [Frame.targets]) (by simp)
  | step c last =>
    exact hgoes (.form c.test) [.test c last] (by simp [Control.values, Frame.values])
      (by simp [Control.forms, Frame.forms, Cycle.forms]) (by simp [Frame.targets]) (by simp)

/-- **What a step can do**, if it looks up no name but one that counts. -/
theorem successor {m' : Moment} (hN : ∀ name, m.control = .form (.symbol name) → N name)
    (h : m.next = some m') : m.Successor N m' := by
  unfold next at h
  split at h
  · next f hm =>
    obtain rfl := Option.some.inj h
    exact successor_enter (fun name hname => hN name (hname ▸ hm)) hm
  · next v w k hm hw =>
    obtain rfl := Option.some.inj h
    exact successor_resume hm hw
  · exact absurd h (by simp)
  · exact absurd h (by simp)

end Steps

end Moment

end FlatLisp
