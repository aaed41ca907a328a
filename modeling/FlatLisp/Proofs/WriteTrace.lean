import FlatLisp.Proofs.WriteFrame

/-!
# The writes of an evaluation

An evaluation binds names one after another, and each step says which ones it binds
(`Moment.stores`): a definition, an assignment whose value is there, or the parameters of a called
procedure. `Moment.Storing m ws m'` says that the steps from `m` to `m'` bind `ws`, in this order.

* `Moment.env_next`: **a step makes the writes it says, and changes no binding otherwise.**
* `SourceStores.env_eq`, `exists_sourceStores`: so does the evaluation of a program text, which has
  writes whenever it ends, and only one list of them.
-/

namespace FlatLisp

/-! ## The writes of one step -/

/-- What the call of a callee binds: the parameters of a procedure, if their count is right. -/
def Value.stores (callee : Value) (arguments : List Value) : List (String × Value) :=
  match callee with
  | .procedure p => if arguments.length = p.params.length then p.params.zip arguments else []
  | _ => []

namespace Moment

/-- A callee is called when no argument is lacking any more. -/
def collectStores (callee : Value) (found : List Value) (rest : List Form) :
    List (String × Value) :=
  if rest.isEmpty then callee.stores found.reverse else []

/-- What a form binds at its first step. -/
def enterStores : Form → List (String × Value)
  | .define name params body => [(name, .procedure ⟨name, params, body⟩)]
  | _ => []

/-- What a frame binds when it takes a value. -/
def resumeStores (w : Frame) (v : Value) : List (String × Value) :=
  match w with
  | .target name => [(name, v)]
  | .operator _ rest => collectStores v [] rest
  | .operand _ callee found rest => collectStores callee (v :: found) rest
  | _ => []

/-- What the step from a moment binds, in order. -/
def stores (m : Moment) : List (String × Value) :=
  match m.control, m.waiting with
  | .form f, _ => enterStores f
  | .value v, w :: _ => resumeStores w v
  | .value _, [] | .failure _, _ => []

theorem env_applied (head : Form) (callee : Value) (arguments : List Value) (k : List Frame)
    (s : Session) :
    (applied head callee arguments k s).session.env = s.env.defineAll (callee.stores arguments) := by
  cases callee with
  | cell stamp first tail => rfl
  | atom a =>
    cases a with
    | builtin b =>
      have hcall := b.call_env arguments s
      simp only [applied]
      generalize b.call arguments s = result at hcall ⊢
      obtain ⟨r, s'⟩ := result
      cases r <;> exact hcall
    | procedure p => simp only [applied, Value.stores]; split <;> rfl
    | _ => rfl

theorem env_collect (head : Form) (callee : Value) (found : List Value) (rest : List Form)
    (k : List Frame) (s : Session) :
    (collect head callee found rest k s).session.env =
      s.env.defineAll (collectStores callee found rest) := by
  cases rest with
  | nil => exact env_applied head callee found.reverse k s
  | cons f rest => rfl

theorem env_enter (f : Form) (k : List Frame) (s : Session) :
    (enter f k s).session.env = s.env.defineAll (enterStores f) := by
  cases f with
  | symbol name => simp only [enter]; cases s.env.find? name <;> rfl
  | apply items => cases items <;> rfl
  | _ => rfl

theorem env_resume (w : Frame) (v : Value) (k : List Frame) (s : Session) :
    (resume w v k s).session.env = s.env.defineAll (resumeStores w v) := by
  cases w with
  | operator head rest => exact env_collect head v [] rest k s
  | operand head callee found rest => exact env_collect head callee (v :: found) rest k s
  | body fs => cases fs <;> rfl
  | test c last => simp only [resume]; split <;> rfl
  | round c => simp only [resume]; cases c.step <;> rfl
  | _ => rfl

/-- **A step makes the writes it says**, and changes no binding otherwise. -/
theorem env_next {m m' : Moment} (h : m.next = some m') :
    m'.session.env = m.session.env.defineAll m.stores := by
  obtain ⟨control, waiting, s⟩ := m
  cases control with
  | form f =>
    obtain rfl := Option.some.inj h
    exact env_enter f waiting s
  | value v =>
    cases waiting with
    | nil => exact absurd h (by simp [next])
    | cons w k =>
      obtain rfl := Option.some.inj h
      exact env_resume w v k s
  | failure e => exact absurd h (by simp [next])

/-! ## The writes of a row of steps -/

/-- Steps lead from one moment to another, and bind `ws` on the way, in order. -/
inductive Storing : Moment → List (String × Value) → Moment → Prop
  | refl (m : Moment) : Storing m [] m
  | step {m m' m'' : Moment} {ws : List (String × Value)} : m.next = some m' → Storing m' ws m'' →
    Storing m (m.stores ++ ws) m''

variable {m m' m'' : Moment} {ws us : List (String × Value)}

theorem Storing.env_eq (h : Storing m ws m') :
    m'.session.env = m.session.env.defineAll ws := by
  induction h with
  | refl m => rfl
  | step hnext _ ih => rw [ih, env_next hnext, Environment.defineAll_append]

theorem Reaches.exists_storing (h : m.Reaches m') : ∃ ws, Storing m ws m' := by
  induction h using Relation.ReflTransGen.head_induction_on with
  | refl => exact ⟨[], .refl m'⟩
  | head hnext _ ih =>
    obtain ⟨ws, hws⟩ := ih
    exact ⟨_, .step hnext hws⟩

/-- Steps that lead to an end bind one list of names only. -/
theorem Storing.unique (h : Storing m ws m') (h' : Storing m us m'') (hm' : m'.next = none)
    (hm'' : m''.next = none) : ws = us ∧ m' = m'' := by
  induction h generalizing us with
  | refl m =>
    cases h' with
    | refl => exact ⟨rfl, rfl⟩
    | step hnext _ => exact absurd (hm'.symm.trans hnext) (by simp)
  | step hnext _ ih =>
    cases h' with
    | refl => exact absurd (hm''.symm.trans hnext) (by simp)
    | step hnext' hrest =>
      obtain rfl := Option.some.inj (hnext.symm.trans hnext')
      obtain ⟨rfl, rfl⟩ := ih hrest hm'
      exact ⟨rfl, rfl⟩

theorem next_of_outcome {o : Outcome Value} (h : m.outcome? = some o) : m.next = none := by
  obtain ⟨control, waiting, s⟩ := m
  rcases outcome_cases h with ⟨v, rfl, rfl, -⟩ | ⟨e, rfl, -⟩ <;> rfl

end Moment

/-! ## The writes of a program text -/

/-- Evaluating the text in the session `s` ends and binds `ws`, in order. A text that cannot be
read binds nothing. -/
inductive SourceStores (source : String) (s : Session) : List (String × Value) → Session → Prop
  | unreadable {e : Error} : readForms source = .error e → SourceStores source s [] s
  | run {fs : List Form} {ws : List (String × Value)} {m : Moment} {o : Outcome Value} :
    readForms source = .ok fs → Moment.Storing (.start fs s) ws m → m.outcome? = some o →
    SourceStores source s ws m.session

variable {source : String} {s s' s'' : Session} {ws us : List (String × Value)}

theorem SourceStores.env_eq (h : SourceStores source s ws s') : s'.env = s.env.defineAll ws := by
  cases h with
  | unreadable _ => rfl
  | run _ hws _ => exact hws.env_eq

theorem SourceStores.unique (h : SourceStores source s ws s') (h' : SourceStores source s us s'') :
    ws = us ∧ s' = s'' := by
  cases h with
  | unreadable he =>
    cases h' with
    | unreadable _ => exact ⟨rfl, rfl⟩
    | run hfs _ _ => exact absurd (he.symm.trans hfs) (by simp)
  | run hfs hws ho =>
    cases h' with
    | unreadable he => exact absurd (he.symm.trans hfs) (by simp)
    | run hfs' hus ho' =>
      obtain rfl := Except.ok.inj (hfs.symm.trans hfs')
      obtain ⟨rfl, rfl⟩ := hws.unique hus (Moment.next_of_outcome ho) (Moment.next_of_outcome ho')
      exact ⟨rfl, rfl⟩

/-- **An evaluation that ends has made its writes**, also when it fails. -/
theorem exists_sourceStores {fuel : Nat} (h : (evalSource fuel source s).session? = some s') :
    ∃ ws, SourceStores source s ws s' := by
  unfold evalSource at h
  split at h
  · next fs hfs =>
    obtain ⟨m, hreach, ho, rfl⟩ := Moment.reaches_of_session h
    obtain ⟨ws, hws⟩ := hreach.exists_storing
    exact ⟨ws, .run hfs hws ho⟩
  · next e he =>
    obtain rfl := Option.some.inj h
    exact ⟨[], .unreadable he⟩

end FlatLisp
