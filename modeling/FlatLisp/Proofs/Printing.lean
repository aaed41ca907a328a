import FlatLisp.Proofs.Stepping

/-!
# What is printed

Evaluation adds to the printed text and never looks at it. So a run says the same behind any
text that is printed before it.

* `ends_printing`: **a run has one text of its own**, and puts it behind whatever was printed.
* `ends_behind`: so a run is known from what it does when nothing is printed yet.
-/

namespace FlatLisp

/-- The same session with another text printed. -/
def Session.printing (s : Session) (text : String) : Session := { s with printed := text }

/-- The same outcome with another text printed. -/
def Outcome.printing {α : Type} (o : Outcome α) (text : String) : Outcome α :=
  match o with
  | .done a s => .done a (s.printing text)
  | .failed e s => .failed e (s.printing text)
  | .exhausted => .exhausted

namespace Moment

/-- The same moment with another text printed. -/
def printing (m : Moment) (text : String) : Moment := { m with session := m.session.printing text }

/-- From the session a moment comes that has a text of its own behind what was printed. -/
def Says (go : Session → Moment) (s : Session) : Prop :=
  ∃ own, ∀ text, go (s.printing text) = (go s).printing (text ++ own)

section Steps

variable {s : Session}

theorem says_silent (c : Control) (k : List Frame) (go : Session → Session)
    (h : ∀ text, go (s.printing text) = (go s).printing text) : Says (fun s => ⟨c, k, go s⟩) s := by
  refine ⟨"", fun text => ?_⟩
  rw [String.append_empty]
  exact congrArg (Moment.mk c k) (h text)

theorem says_same (c : Control) (k : List Frame) : Says (fun s => ⟨c, k, s⟩) s :=
  says_silent c k (fun s => s) fun _ => rfl

theorem says_builtin (head : Form) (b : Builtin) (arguments : List Value) (k : List Frame) :
    Says (applied head (.builtin b) arguments k) s := by
  cases happly : b.operation.apply b.name arguments with
  | ok y =>
    have hcall : ∀ s, applied head (.builtin b) arguments k s =
        ⟨.value (s.receive y).1, k, (s.receive y).2⟩ := by
      intro s
      simp only [applied, Builtin.call, happly]
    refine ⟨y.printed, fun text => ?_⟩
    rw [hcall, hcall]
    simp only [printing, Session.receive, Session.chain, Session.print, Session.printing]
  | error e =>
    have hcall : ∀ s, applied head (.builtin b) arguments k s = ⟨.failure (.run e), k, s⟩ := by
      intro s
      simp only [applied, Builtin.call, happly]
    simp only [Says, hcall]
    exact says_same _ k

theorem says_applied (head : Form) (callee : Value) (arguments : List Value) (k : List Frame) :
    Says (applied head callee arguments k) s := by
  cases callee with
  | cell stamp first tail => exact says_same _ k
  | atom a =>
    cases a with
    | builtin b => exact says_builtin head b arguments k
    | procedure p =>
      simp only [Says, applied]
      split
      · exact says_silent _ _ (fun s => s.bind p.params arguments) fun _ => rfl
      · exact says_same _ k
    | _ => exact says_same _ k

theorem says_collect (head : Form) (callee : Value) (found : List Value) (rest : List Form)
    (k : List Frame) : Says (collect head callee found rest k) s := by
  cases rest with
  | nil => exact says_applied head callee found.reverse k
  | cons f rest => exact says_same _ _

theorem says_enter (f : Form) (k : List Frame) : Says (enter f k) s := by
  cases f with
  | symbol name =>
    have henv : ∀ text, (s.printing text).env = s.env := fun _ => rfl
    simp only [Says, enter, henv]
    cases s.env.find? name <;> exact says_same _ k
  | apply items => cases items <;> exact says_same _ _
  | define name params body => exact says_silent _ k _ fun _ => rfl
  | _ => exact says_same _ _

theorem says_resume (w : Frame) (v : Value) (k : List Frame) : Says (resume w v k) s := by
  cases w with
  | operator head rest => exact says_collect head v [] rest k
  | operand head callee found rest => exact says_collect head callee (v :: found) rest k
  | target name => exact says_silent _ k _ fun _ => rfl
  | body fs => cases fs <;> exact says_same _ _
  | test c last =>
    simp only [Says, resume]
    split <;> exact says_same _ _
  | round c =>
    simp only [Says, resume]
    split <;> exact says_same _ _
  | _ => exact says_same _ _

end Steps

variable {m m' : Moment}

/-- A step has a text of its own. -/
theorem printing_next (h : m.next = some m') :
    ∃ own, ∀ text, (m.printing text).next = some (m'.printing (text ++ own)) := by
  obtain ⟨control, k, s⟩ := m
  cases control with
  | form f =>
    obtain rfl := Option.some.inj h
    obtain ⟨own, hown⟩ := says_enter (s := s) f k
    exact ⟨own, fun text => congrArg some (hown text)⟩
  | value v =>
    cases k with
    | nil => exact absurd h (by simp [next])
    | cons w k =>
      obtain rfl := Option.some.inj h
      obtain ⟨own, hown⟩ := says_resume (s := s) w v k
      exact ⟨own, fun text => congrArg some (hown text)⟩
  | failure e => exact absurd h (by simp [next])

/-- Several steps have a text of their own, that of each in order. -/
theorem printing_reaches (h : m.Reaches m') :
    ∃ own, ∀ text, (m.printing text).Reaches (m'.printing (text ++ own)) := by
  induction h with
  | refl =>
    refine ⟨"", fun text => ?_⟩
    rw [String.append_empty]
    exact .refl
  | tail _ hnext ih =>
    obtain ⟨own, hown⟩ := ih
    obtain ⟨own', hown'⟩ := printing_next hnext
    refine ⟨own ++ own', fun text => ?_⟩
    rw [← String.append_assoc]
    exact (hown text).tail (hown' _)

theorem printing_outcome {o : Outcome Value} (h : m.outcome? = some o) (text : String) :
    (m.printing text).outcome? = some (o.printing text) := by
  obtain ⟨control, k, s⟩ := m
  rcases outcome_cases h with ⟨v, hc, hk, rfl⟩ | ⟨e, hc, rfl⟩
  · obtain rfl : control = .value v := hc
    obtain rfl : k = [] := hk
    rfl
  · obtain rfl : control = .failure e := hc
    rfl

end Moment

theorem ends_printing_forms {fs : List Form} {s : Session} {o : Outcome Value}
    (h : Ends (fun n => evalForms n fs s) o) :
    ∃ own, ∀ text, Ends (fun n => evalForms n fs (s.printing text)) (o.printing (text ++ own)) := by
  obtain ⟨m, hm, ho⟩ := (ends_iff_reaches fs s o).1 h
  obtain ⟨own, hown⟩ := Moment.printing_reaches hm
  refine ⟨own, fun text => ?_⟩
  exact (ends_iff_reaches fs _ _).2 ⟨_, hown text, Moment.printing_outcome ho _⟩

/-- **A run has one text of its own**, and puts it behind whatever was printed. -/
theorem ends_printing {source : String} {s : Session} {o : Outcome Value}
    (h : Ends (fun n => evalSource n source s) o) :
    ∃ own, ∀ text, Ends (fun n => evalSource n source (s.printing text)) (o.printing (text ++ own)) := by
  unfold evalSource at h ⊢
  cases hread : readForms source with
  | ok fs =>
    simp only [hread] at h
    exact ends_printing_forms h
  | error e =>
    simp only [hread] at h
    obtain ⟨-, n, rfl⟩ := h
    refine ⟨"", fun text => ?_⟩
    rw [String.append_empty]
    exact ⟨by simp [Outcome.printing], 0, rfl⟩

/-! ## Behind what was printed -/

/-- The same session, with a text in front of what is printed. -/
def Session.behind (s : Session) (text : String) : Session := s.printing (text ++ s.printed)

/-- The same outcome, with a text in front of what is printed. -/
def Outcome.behind {α : Type} (o : Outcome α) (text : String) : Outcome α :=
  match o with
  | .done a s => .done a (s.behind text)
  | .failed e s => .failed e (s.behind text)
  | .exhausted => .exhausted

theorem Outcome.behind_printing {α : Type} (o : Outcome α) (text own : String) :
    (o.printing own).behind text = o.printing (text ++ own) := by
  cases o <;> rfl

/-- Behind any text, forms have the outcome that they have behind none. -/
theorem ends_behind {fs : List Form} {s : Session} {o : Outcome Value} :
    Ends (fun n => evalForms n fs s) o ↔
      ∃ o', Ends (fun n => evalForms n fs (s.printing "")) o' ∧ o = o'.behind s.printed := by
  have hsteady : ∀ s, Steady fun n => evalForms n fs s := fun s => steady_evalBody fs .nil s
  constructor
  · intro h
    obtain ⟨own, hown⟩ := ends_printing_forms h
    refine ⟨_, hown "", ?_⟩
    rw [Outcome.behind_printing, String.empty_append]
    exact Ends.unique (hsteady s) h (hown s.printed)
  · rintro ⟨o', h, rfl⟩
    obtain ⟨own, hown⟩ := ends_printing_forms h
    have hsame : o' = o'.printing ("" ++ own) := Ends.unique (hsteady _) h (hown "")
    rw [hsame, Outcome.behind_printing, String.empty_append]
    exact hown s.printed

end FlatLisp
