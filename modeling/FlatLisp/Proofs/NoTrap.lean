import FlatLisp.Proofs.Operands
import FlatLisp.Proofs.Positions
import FlatLisp.Proofs.Stepping

/-!
# No input traps

A program text is lexed by positions, read, and evaluated with builtins that are checked. The
steps of an evaluation between the calls of builtins have no operation that may trap. So each
checked step is a plain one, and an evaluation ends as the plain one does, in a value or in an
error, or it goes on.

* `next_eq`, `run_eq`: checked steps and runs.
* `no_trap`: **no text and no arguments of a builtin lead to a trap**, in any session.
-/

namespace FlatLisp

/-! ## Runs with a number of steps -/

namespace Moment

/-- Goes on for at most as many steps as there is fuel. -/
def follow : Nat → Moment → Outcome Value
  | 0, _ => .exhausted
  | fuel + 1, m =>
    match m.outcome? with
    | some o => o
    | none =>
      match m.next with
      | some m => m.follow fuel
      | none => .exhausted

variable {m m' : Moment}

/-- Before another moment an evaluation has not ended. -/
theorem outcome_of_next (h : m.next = some m') : m.outcome? = none := by
  obtain ⟨control, waiting, s⟩ := m
  cases control with
  | form f => rfl
  | value v =>
    cases waiting with
    | nil => exact absurd h (by simp [next])
    | cons w k => rfl
  | failure e => exact absurd h (by simp [next])

/-- **Enough steps lead to the outcome** that a moment can reach. -/
theorem ends_follow (m : Moment) (o : Outcome Value) :
    Ends (fun n => m.follow n) o ↔ ∃ m', m.Reaches m' ∧ m'.outcome? = some o := by
  constructor
  · rintro ⟨hne, n, ho⟩
    induction n generalizing m with
    | zero => exact absurd ho.symm hne
    | succ n ih =>
      simp only [follow] at ho
      cases hout : m.outcome? with
      | some o' =>
        rw [hout] at ho
        exact ⟨m, .refl, ho ▸ hout⟩
      | none =>
        cases hnext : m.next with
        | none =>
          simp only [hout, hnext] at ho
          exact absurd ho.symm hne
        | some m₁ =>
          simp only [hout, hnext] at ho
          obtain ⟨m', hreach, hm'⟩ := ih m₁ ho
          exact ⟨m', .step hnext hreach, hm'⟩
  · rintro ⟨m', hreach, ho⟩
    refine ⟨(ends_of_outcome ho).1, ?_⟩
    induction hreach using Relation.ReflTransGen.head_induction_on with
    | refl => exact ⟨1, by simp only [follow, ho]⟩
    | head hnext _ ih =>
      obtain ⟨n, hn⟩ := ih
      exact ⟨n + 1, by simp only [follow, outcome_of_next hnext, hnext, hn]⟩

end Moment

namespace Checked

/-! ## Steps -/

/-- The callee and its arguments are there. -/
def applied (head : Form) (callee : Value) (arguments : List Value) (k : List Frame) (s : Session) :
    Except Trap Moment :=
  match callee with
  | .builtin b => do
    match ← call b arguments s with
    | (.ok v, s) => .ok ⟨.value v, k, s⟩
    | (.error e, s) => .ok ⟨.failure (.run e), k, s⟩
  | callee => .ok (Moment.applied head callee arguments k s)

/-- The next argument comes, or all are there. -/
def collect (head : Form) (callee : Value) (found : List Value) (rest : List Form) (k : List Frame)
    (s : Session) : Except Trap Moment :=
  match rest with
  | [] => applied head callee found.reverse k s
  | rest => .ok (Moment.collect head callee found rest k s)

/-- A frame takes the value that it waits for. -/
def resume (w : Frame) (v : Value) (k : List Frame) (s : Session) : Except Trap Moment :=
  match w with
  | .operator head rest => collect head v [] rest k s
  | .operand head callee found rest => collect head callee (v :: found) rest k s
  | w => .ok (Moment.resume w v k s)

/-- The next moment, if the evaluation has not ended. -/
def next (m : Moment) : Except Trap (Option Moment) :=
  match m.control, m.waiting with
  | .value v, w :: k => (resume w v k m.session).map some
  | _, _ => .ok m.next

/-- Goes on for at most as many steps as there is fuel. -/
def run : Nat → Moment → Except Trap (Outcome Value)
  | 0, _ => .ok .exhausted
  | fuel + 1, m =>
    match m.outcome? with
    | some o => .ok o
    | none => do
      match ← next m with
      | some m => run fuel m
      | none => .ok .exhausted

/-- Reads a whole program text, then evaluates it. -/
def evalSource (fuel : Nat) (source : String) (s : Session) : Except Trap (Outcome Value) :=
  match tokenize source with
  | .error (.trap t) => .error t
  | .error (.error e) => .ok (.failed (.lex e) s)
  | .ok ts =>
    match parse ts with
    | .error e => .ok (.failed (.parse e) s)
    | .ok fs => run fuel (.start fs s)

/-! ## Steps do not trap -/

theorem applied_eq (head : Form) (callee : Value) (arguments : List Value) (k : List Frame)
    (s : Session) :
    applied head callee arguments k s = .ok (Moment.applied head callee arguments k s) := by
  unfold applied
  split
  · next b =>
    rw [call_eq, Moment.applied]
    obtain ⟨r, s'⟩ := b.call arguments s
    cases r <;> rfl
  · rfl

theorem collect_eq (head : Form) (callee : Value) (found : List Value) (rest : List Form)
    (k : List Frame) (s : Session) :
    collect head callee found rest k s = .ok (Moment.collect head callee found rest k s) := by
  unfold collect
  split
  · exact applied_eq head callee found.reverse k s
  · rfl

theorem resume_eq (w : Frame) (v : Value) (k : List Frame) (s : Session) :
    resume w v k s = .ok (Moment.resume w v k s) := by
  cases w with
  | operator head rest => exact collect_eq head v [] rest k s
  | operand head callee found rest => exact collect_eq head callee (v :: found) rest k s
  | _ => rfl

/-- **A step never traps.** -/
theorem next_eq (m : Moment) : next m = .ok m.next := by
  unfold next
  split
  · next v w k hc hw =>
    rw [resume_eq, Moment.next, hc, hw]
    rfl
  · rfl

/-- **A run never traps.** -/
theorem run_eq (fuel : Nat) (m : Moment) : run fuel m = .ok (m.follow fuel) := by
  induction fuel generalizing m with
  | zero => rfl
  | succ fuel ih =>
    simp only [run, Moment.follow, next_eq]
    cases m.outcome? with
    | some o => rfl
    | none =>
      cases m.next with
      | none => rfl
      | some m' => exact ih m'

/-- **The evaluation of a text never traps**, and it has the outcomes of the plain one. -/
theorem evalSource_agree (source : String) (s : Session) :
    ∃ run : Nat → Outcome Value, (∀ n, evalSource n source s = .ok (run n)) ∧
      Agree run fun n => FlatLisp.evalSource n source s := by
  cases hts : FlatLisp.tokenize source with
  | error e =>
    refine ⟨fun _ => .failed (.lex e) s, fun n => ?_, ?_⟩
    · rw [evalSource, tokenize_eq, hts]
      rfl
    · simp only [FlatLisp.evalSource, readForms, hts]
      exact .refl _
  | ok ts =>
    cases hfs : parse ts with
    | error e =>
      refine ⟨fun _ => .failed (.parse e) s, fun n => ?_, ?_⟩
      · rw [evalSource, tokenize_eq, hts]
        simp only [sound_ok, hfs]
      · simp only [FlatLisp.evalSource, readForms, hts, hfs]
        exact .refl _
    | ok fs =>
      refine ⟨fun n => (Moment.start fs s).follow n, fun n => ?_, fun o => ?_⟩
      · rw [evalSource, tokenize_eq, hts]
        simp only [sound_ok, hfs]
        exact run_eq n _
      · simp only [FlatLisp.evalSource, readForms, hts, hfs]
        rw [Moment.ends_follow, ends_iff_reaches]

end Checked

/-- **No input leads to a trap.** Every text has tokens or an error in the lexer; every builtin,
called on any number of any values in any session, returns a value or an error; and the evaluation
of a text in a session ends in a value or an error, or goes on. In each case the result is that of
the definitions without checks. -/
theorem no_trap :
    (∀ source, Checked.Safe (Checked.tokenize source) ∧
        Checked.tokenize source = Checked.sound (tokenize source)) ∧
      (∀ (b : Builtin) (args : List Value) (s : Session), Checked.Safe (Checked.operate b args) ∧
        Checked.call b args s = .ok (b.call args s)) ∧
      ∀ (source : String) (s : Session), ∃ run : Nat → Outcome Value,
        (∀ n, Checked.evalSource n source s = .ok (run n)) ∧
          Agree run fun n => evalSource n source s := by
  refine ⟨fun source => ⟨?_, Checked.tokenize_eq source⟩, fun b args s => ⟨?_, Checked.call_eq b args s⟩,
    Checked.evalSource_agree⟩
  · rw [Checked.tokenize_eq]
    exact Checked.safe_sound _
  · rw [Checked.operate_eq]
    exact Checked.safe_sound _

end FlatLisp
