import FlatLisp.Proofs.Fuel
import Mathlib.Logic.Relation

/-!
# The moments of an evaluation

An evaluation passes through moments: a form is about to be evaluated, a value is there, or
the evaluation has failed (`Control`), and other forms wait for the value (`Frame`). From each
moment there is one step at most to the next (`Moment.next`). So one can speak of a session in
the midst of an evaluation, also of one that never ends.

* `agree_next`: **a step does not change the outcome** that a moment leads to.
* `ends_of_outcome`: a moment at which the evaluation has ended leads to its outcome.
-/

namespace FlatLisp

open Outcome

/-! ## Moments -/

/-- What a loop repeats: the test, the body, and the step of a counting loop. -/
structure Cycle where
  test : Form
  body : List Form
  step : Option Form

/-- What waits for a value. -/
inductive Frame where
  /-- The head of an application; `rest` are the arguments. -/
  | operator (head : Form) (rest : List Form)
  /-- An argument; `found` has the values of those before it, the last one first. -/
  | operand (head : Form) (callee : Value) (found : List Value) (rest : List Form)
  | target (name : String)
  | branches (yes no : Form)
  /-- A form of a body, or what was last before it. -/
  | body (fs : List Form)
  | start (c : Cycle)
  | test (c : Cycle) (last : Value)
  | round (c : Cycle)
  | step (c : Cycle) (last : Value)

/-- What an evaluation is at. -/
inductive Control where
  | form (f : Form)
  | value (v : Value)
  | failure (e : Error)

/-- A moment of an evaluation; the innermost frame comes first. -/
structure Moment where
  control : Control
  waiting : List Frame
  session : Session

namespace Moment

/-- The callee and its arguments are there. -/
def applied (head : Form) (callee : Value) (arguments : List Value) (k : List Frame) (s : Session) :
    Moment :=
  match callee with
  | .builtin b =>
    match b.call arguments s with
    | (.ok v, s) => ⟨.value v, k, s⟩
    | (.error e, s) => ⟨.failure (.run e), k, s⟩
  | .procedure p =>
    if arguments.length = p.params.length then
      ⟨.value .nil, .body p.body :: k, s.bind p.params arguments⟩
    else ⟨.failure (.run (.wrongCount p.name (.exactly p.params.length) arguments.length)), k, s⟩
  | v => ⟨.failure (.run (.notCallable head v.kind)), k, s⟩

/-- The next argument comes, or all are there; `found` has the last one first. -/
def collect (head : Form) (callee : Value) (found : List Value) (rest : List Form) (k : List Frame)
    (s : Session) : Moment :=
  match rest with
  | [] => applied head callee found.reverse k s
  | f :: rest => ⟨.form f, .operand head callee found rest :: k, s⟩

/-- The first step of a form. -/
def enter (f : Form) (k : List Frame) (s : Session) : Moment :=
  match f with
  | .literal v => ⟨.value v, k, s⟩
  | .symbol name =>
    match s.env.find? name with
    | some v => ⟨.value v, k, s⟩
    | none => ⟨.failure (.run (.unbound name)), k, s⟩
  | .apply [] => ⟨.failure (.run .emptyApplication), k, s⟩
  | .apply (head :: rest) => ⟨.form head, .operator head rest :: k, s⟩
  | .assign target value => ⟨.form value, .target target :: k, s⟩
  | .branch test yes no => ⟨.form test, .branches yes no :: k, s⟩
  | .whileLoop test body => ⟨.form test, .test ⟨test, body, none⟩ .nil :: k, s⟩
  | .forLoop start test step body => ⟨.form start, .start ⟨test, body, some step⟩ :: k, s⟩
  | .define name params body => ⟨.value .nil, k, s.define name (.procedure ⟨name, params, body⟩)⟩

/-- A frame takes the value that it waits for. -/
def resume (w : Frame) (v : Value) (k : List Frame) (s : Session) : Moment :=
  match w with
  | .operator head rest => collect head v [] rest k s
  | .operand head callee found rest => collect head callee (v :: found) rest k s
  | .target name => ⟨.value v, k, s.define name v⟩
  | .branches yes no => ⟨.form (if v.truthy then yes else no), k, s⟩
  | .body [] => ⟨.value v, k, s⟩
  | .body (f :: fs) => ⟨.form f, .body fs :: k, s⟩
  | .start c => ⟨.form c.test, .test c .nil :: k, s⟩
  | .test c last =>
    if v.truthy then ⟨.value last, .body c.body :: .round c :: k, s⟩ else ⟨.value last, k, s⟩
  | .round c =>
    match c.step with
    | none => ⟨.form c.test, .test c v :: k, s⟩
    | some f => ⟨.form f, .step c v :: k, s⟩
  | .step c last => ⟨.form c.test, .test c last :: k, s⟩

/-- The next moment, if the evaluation has not ended. -/
def next (m : Moment) : Option Moment :=
  match m.control, m.waiting with
  | .form f, k => some (enter f k m.session)
  | .value v, w :: k => some (resume w v k m.session)
  | .value _, [] => none
  | .failure _, _ => none

/-- The first moment of evaluating forms in order. -/
def start (fs : List Form) (s : Session) : Moment := ⟨.value .nil, [.body fs], s⟩

/-- The outcome of an evaluation that has ended. -/
def outcome? (m : Moment) : Option (Outcome Value) :=
  match m.control, m.waiting with
  | .value v, [] => some (.done v m.session)
  | .failure e, _ => some (.failed e m.session)
  | _, _ => none

/-- Any number of steps lead from one moment to another. -/
def Reaches : Moment → Moment → Prop := Relation.ReflTransGen fun m m' => m.next = some m'

theorem Reaches.step {m m' m'' : Moment} (h : m.next = some m') (h' : m'.Reaches m'') :
    m.Reaches m'' := Relation.ReflTransGen.head h h'

end Moment

/-! ## What a moment leads to -/

/-- Applies a callee to arguments. -/
def applyTo (fuel : Nat) (head : Form) (callee : Value) (arguments : List Value) (s : Session) :
    Outcome Value :=
  match callee with
  | .builtin b => .ofExcept (b.call arguments s)
  | .procedure p => call fuel p arguments s
  | v => .failed (.run (.notCallable head v.kind)) s

/-- What a frame makes of the value that it waits for. -/
def Frame.run (fuel : Nat) (w : Frame) (v : Value) (s : Session) : Outcome Value :=
  match w with
  | .operator head rest =>
    (evalEach fuel rest s).andThen fun arguments s => applyTo fuel head v arguments s
  | .operand head callee found rest =>
    (evalEach fuel rest s).andThen fun vs s => applyTo fuel head callee ((v :: found).reverse ++ vs) s
  | .target name => .done v (s.define name v)
  | .branches yes no => if v.truthy then eval fuel yes s else eval fuel no s
  | .body fs => evalBody fuel fs v s
  | .start c => loop fuel c.test c.body c.step .nil s
  | .test c last =>
    if v.truthy then
      (evalBody fuel c.body last s).andThen fun last s =>
        match c.step with
        | none => loop fuel c.test c.body none last s
        | some f => (eval fuel f s).andThen fun _ s => loop fuel c.test c.body (some f) last s
    else .done last s
  | .round c =>
    match c.step with
    | none => loop fuel c.test c.body none v s
    | some f => (eval fuel f s).andThen fun _ s => loop fuel c.test c.body (some f) v s
  | .step c last => loop fuel c.test c.body c.step last s

/-- What frames make of a value, the innermost one first. -/
def Frame.runAll (fuel : Nat) : List Frame → Value → Session → Outcome Value
  | [], v, s => .done v s
  | w :: k, v, s => (w.run fuel v s).andThen (Frame.runAll fuel k)

/-- What a moment leads to. -/
def Moment.run (m : Moment) (fuel : Nat) : Outcome Value :=
  match m.control with
  | .form f => (eval fuel f m.session).andThen (Frame.runAll fuel m.waiting)
  | .value v => Frame.runAll fuel m.waiting v m.session
  | .failure e => .failed e m.session

namespace Outcome

theorem andThen_done (o : Outcome Value) : (o.andThen fun v s => .done v s) = o := by
  cases o <;> rfl

theorem done_andThen {α β : Type} (a : α) (s : Session) (next : α → Session → Outcome β) :
    (done a s).andThen next = next a s := rfl

end Outcome

theorem steady_applyTo (head : Form) (callee : Value) (arguments : List Value) (s : Session) :
    Steady fun n => applyTo n head callee arguments s := by
  unfold applyTo
  split
  · exact steady_const _
  · exact steady_call _ arguments s
  · exact steady_const _

namespace Frame

/-- The end of a round of a loop. -/
theorem run_round (n : Nat) (c : Cycle) (v : Value) (s : Session) :
    (Frame.round c).run n v s =
      match c.step with
      | none => loop n c.test c.body none v s
      | some f => (eval n f s).andThen fun _ s => loop n c.test c.body (some f) v s := rfl

theorem steady_round (c : Cycle) (v : Value) (s : Session) :
    Steady fun n => (Frame.round c).run n v s := by
  simp only [run_round]
  cases c.step with
  | none => exact steady_loop c.test c.body none v s
  | some f => exact (steady_eval f s).andThen fun _ s => steady_loop c.test c.body (some f) v s

theorem steady_run (w : Frame) (v : Value) (s : Session) : Steady fun n => w.run n v s := by
  cases w with
  | operator head rest =>
    exact (steady_evalEach rest s).andThen fun arguments s => steady_applyTo head v arguments s
  | operand head callee found rest =>
    exact (steady_evalEach rest s).andThen fun vs s => steady_applyTo head callee _ s
  | target name => exact steady_const _
  | branches yes no =>
    simp only [run]
    split
    · exact steady_eval yes s
    · exact steady_eval no s
  | body fs => exact steady_evalBody fs v s
  | start c => exact steady_loop c.test c.body c.step .nil s
  | test c last =>
    simp only [run]
    split
    · exact (steady_evalBody c.body last s).andThen fun v s => steady_round c v s
    · exact steady_const _
  | round c => exact steady_round c v s
  | step c last => exact steady_loop c.test c.body c.step last s

theorem steady_runAll (k : List Frame) (v : Value) (s : Session) :
    Steady fun n => runAll n k v s := by
  induction k generalizing v s with
  | nil => exact steady_const _
  | cons w k ih => exact (steady_run w v s).andThen ih

end Frame

namespace Moment

theorem steady_run (m : Moment) : Steady m.run := by
  unfold run
  split
  · exact (steady_eval _ _).andThen fun v s => Frame.steady_runAll _ v s
  · exact Frame.steady_runAll _ _ _
  · exact steady_const _

/-- The moment with further frames behind those that wait. -/
def under (m : Moment) (k : List Frame) : Moment := { m with waiting := m.waiting ++ k }

end Moment

theorem Frame.runAll_append (n : Nat) (j k : List Frame) :
    runAll n (j ++ k) = fun v s => (runAll n j v s).andThen (runAll n k) := by
  induction j with
  | nil => rfl
  | cons w j ih =>
    funext v s
    rw [List.cons_append, runAll, ih, runAll, andThen_assoc]

namespace Moment

theorem run_under (n : Nat) (m : Moment) (k : List Frame) :
    (m.under k).run n = (m.run n).andThen (Frame.runAll n k) := by
  obtain ⟨control, waiting, s⟩ := m
  cases control with
  | form f => rw [run, run, andThen_assoc, under, Frame.runAll_append]
  | value v => rw [run, run, under, Frame.runAll_append]
  | failure e => rfl

/-! ## A step keeps the outcome -/

theorem applied_under (head : Form) (callee : Value) (arguments : List Value) (k : List Frame)
    (s : Session) : applied head callee arguments k s = (applied head callee arguments [] s).under k := by
  cases callee with
  | cell stamp head tail => rfl
  | atom a =>
    cases a with
    | builtin b =>
      simp only [applied]
      obtain ⟨r, s'⟩ := b.call arguments s
      cases r <;> rfl
    | procedure p => simp only [applied]; split <;> rfl
    | _ => rfl

theorem collect_under (head : Form) (callee : Value) (found : List Value) (rest : List Form)
    (k : List Frame) (s : Session) :
    collect head callee found rest k s = (collect head callee found rest [] s).under k := by
  cases rest with
  | nil => exact applied_under head callee found.reverse k s
  | cons f rest => rfl

theorem enter_under (f : Form) (k : List Frame) (s : Session) :
    enter f k s = (enter f [] s).under k := by
  cases f with
  | symbol name => simp only [enter]; cases s.env.find? name <;> rfl
  | apply items => cases items <;> rfl
  | _ => rfl

theorem resume_under (w : Frame) (v : Value) (k : List Frame) (s : Session) :
    resume w v k s = (resume w v [] s).under k := by
  cases w with
  | operator head rest => exact collect_under head v [] rest k s
  | operand head callee found rest => exact collect_under head callee (v :: found) rest k s
  | body fs => cases fs <;> rfl
  | test c last => simp only [resume]; split <;> rfl
  | round c => simp only [resume]; cases c.step <;> rfl
  | _ => rfl

/-- What follows a step may be left out of the comparison. -/
theorem agree_under {run : Nat → Outcome Value} (hrun : Steady run) {m : Moment} (h : Agree run m.run)
    (k : List Frame) :
    Agree (fun n => (run n).andThen (Frame.runAll n k)) (m.under k).run := by
  have hk : ∀ v s, Steady fun n => Frame.runAll n k v s := Frame.steady_runAll k
  have hunder : (m.under k).run = fun n => (m.run n).andThen (Frame.runAll n k) :=
    funext fun n => run_under n m k
  rw [hunder]
  exact Agree.andThen hrun m.steady_run hk hk h fun _ _ => .refl _

theorem runAll_one (n : Nat) (w : Frame) : Frame.runAll n [w] = fun v s => w.run n v s := by
  funext v s
  exact andThen_done (w.run n v s)

/-- A form for which one frame waits. -/
theorem run_form (f : Form) (w : Frame) (s : Session) :
    (⟨.form f, [w], s⟩ : Moment).run = fun n => (eval n f s).andThen fun v s => w.run n v s := by
  funext n
  rw [run, runAll_one]

/-- A value for which one frame waits. -/
theorem run_value (v : Value) (w : Frame) (s : Session) :
    (⟨.value v, [w], s⟩ : Moment).run = fun n => w.run n v s := by
  funext n
  rw [run, runAll_one]

/-- A callee is applied in one step; a procedure goes on with its body behind nil. -/
theorem agree_applied (head : Form) (callee : Value) (arguments : List Value) (s : Session) :
    Agree (fun n => applyTo n head callee arguments s) (applied head callee arguments [] s).run := by
  cases callee with
  | cell stamp head tail => exact .refl _
  | atom a =>
    cases a with
    | builtin b =>
      simp only [applied, applyTo]
      obtain ⟨r, s'⟩ := b.call arguments s
      cases r <;> exact .refl _
    | procedure p =>
      refine (agree_succ rfl).trans ?_
      simp only [applied, applyTo, call]
      split
      · rw [run_value]
        exact .refl _
      · exact .refl _
    | _ => exact .refl _

/-- The arguments are evaluated one after another, and then the callee is applied. -/
theorem agree_collect (head : Form) (callee : Value) (found : List Value) (rest : List Form)
    (s : Session) :
    Agree (fun n => (evalEach n rest s).andThen fun vs s => applyTo n head callee (found.reverse ++ vs) s)
      (collect head callee found rest [] s).run := by
  have happly : ∀ vs s, Steady fun n => applyTo n head callee (found.reverse ++ vs) s :=
    fun vs s => steady_applyTo head callee (found.reverse ++ vs) s
  have hrest := steady_evalEach rest s
  cases rest with
  | nil =>
    have hnil : Agree (fun n => evalEach n [] s) fun _ => .done [] s := agree_succ rfl
    refine (Agree.andThen hrest (steady_const _) happly happly hnil fun _ _ => .refl _).trans ?_
    simp only [done_andThen, List.append_nil]
    exact agree_applied head callee found.reverse s
  | cons f rest =>
    have hcons : Agree (fun n => evalEach n (f :: rest) s) fun n =>
        (eval n f s).andThen fun v s => (evalEach n rest s).andThen fun vs s => .done (v :: vs) s :=
      agree_succ rfl
    have hsteady : Steady fun n =>
        (eval n f s).andThen fun v s => (evalEach n rest s).andThen fun vs s => .done (v :: vs) s :=
      (steady_eval f s).andThen fun _ s => (steady_evalEach rest s).andThen fun _ _ => steady_const _
    refine (Agree.andThen hrest hsteady happly happly hcons fun _ _ => .refl _).trans ?_
    rw [collect, run_form]
    simp only [Frame.run, andThen_assoc, done_andThen, List.reverse_cons, List.append_assoc,
      List.singleton_append]
    exact .refl _

/-- A loop starts with its test. -/
theorem agree_cycle (c : Cycle) (last : Value) (s : Session) :
    Agree (fun n => loop n c.test c.body c.step last s)
      (⟨.form c.test, [.test c last], s⟩ : Moment).run := by
  rw [run_form]
  exact agree_succ rfl

theorem agree_enter (f : Form) (s : Session) :
    Agree (fun n => eval n f s) (enter f [] s).run := by
  refine (agree_succ rfl).trans ?_
  cases f with
  | literal l => exact .refl _
  | symbol name =>
    simp only [enter, eval]
    cases s.env.find? name <;> exact .refl _
  | apply items =>
    cases items with
    | nil => exact .refl _
    | cons head rest => rw [enter, run_form]; exact .refl _
  | assign target value => rw [enter, run_form]; exact .refl _
  | branch test yes no => rw [enter, run_form]; exact .refl _
  | whileLoop test body => exact agree_cycle ⟨test, body, none⟩ .nil s
  | forLoop start test step body => rw [enter, run_form]; exact .refl _
  | define name params body => exact .refl _

theorem agree_resume (w : Frame) (v : Value) (s : Session) :
    Agree (fun n => w.run n v s) (resume w v [] s).run := by
  cases w with
  | operator head rest => exact agree_collect head v [] rest s
  | operand head callee found rest => exact agree_collect head callee (v :: found) rest s
  | target name => exact .refl _
  | branches yes no =>
    have hrun : ∀ f, (⟨.form f, [], s⟩ : Moment).run = fun n => eval n f s :=
      fun f => funext fun n => andThen_done (eval n f s)
    simp only [resume, hrun, Frame.run]
    split <;> exact .refl _
  | body fs =>
    refine (agree_succ rfl).trans ?_
    cases fs with
    | nil => exact .refl _
    | cons f fs => rw [resume, run_form]; exact .refl _
  | start c => exact agree_cycle c .nil s
  | test c last =>
    simp only [resume, Frame.run]
    split
    · have hrun : (⟨.value last, [.body c.body, .round c], s⟩ : Moment).run = fun n =>
          (evalBody n c.body last s).andThen fun v s => (Frame.round c).run n v s :=
        funext fun n => congrArg (evalBody n c.body last s).andThen (runAll_one n (.round c))
      rw [hrun]
      exact .refl _
    · exact .refl _
  | round c =>
    simp only [resume, Frame.run_round]
    cases hstep : c.step with
    | none => simpa only [hstep] using agree_cycle c v s
    | some f =>
      simp only [run_form, Frame.run, hstep]
      exact .refl _
  | step c last => exact agree_cycle c last s

/-- **A step does not change the outcome.** -/
theorem agree_next {m m' : Moment} (h : m.next = some m') : Agree m.run m'.run := by
  obtain ⟨control, k, s⟩ := m
  cases control with
  | form f =>
    obtain rfl := Option.some.inj h
    simp only [enter_under f k]
    exact agree_under (steady_eval f s) (agree_enter f s) k
  | value v =>
    cases k with
    | nil => exact absurd h (by simp [next])
    | cons w k =>
      obtain rfl := Option.some.inj h
      simp only [resume_under w v k]
      exact agree_under (Frame.steady_run w v s) (agree_resume w v s) k
  | failure e => exact absurd h (by simp [next])

theorem agree_reaches {m m' : Moment} (h : m.Reaches m') : Agree m.run m'.run := by
  induction h with
  | refl => exact .refl _
  | tail _ h ih => exact ih.trans (agree_next h)

/-- An evaluation has ended with a value for which nothing waits, or with a failure. -/
theorem outcome_cases {m : Moment} {o : Outcome Value} (h : m.outcome? = some o) :
    (∃ v, m.control = .value v ∧ m.waiting = [] ∧ o = .done v m.session) ∨
      ∃ e, m.control = .failure e ∧ o = .failed e m.session := by
  obtain ⟨control, k, s⟩ := m
  cases control with
  | form f => exact absurd h (by simp [outcome?])
  | value v =>
    cases k with
    | nil => exact .inl ⟨v, rfl, rfl, (Option.some.inj h).symm⟩
    | cons w k => exact absurd h (by simp [outcome?])
  | failure e => exact .inr ⟨e, rfl, (Option.some.inj h).symm⟩

theorem ends_of_outcome {m : Moment} {o : Outcome Value} (h : m.outcome? = some o) : Ends m.run o := by
  obtain ⟨control, k, s⟩ := m
  rcases outcome_cases h with ⟨v, hc, hk, rfl⟩ | ⟨e, hc, rfl⟩
  · obtain rfl : control = .value v := hc
    obtain rfl : k = [] := hk
    exact ⟨by simp, 0, rfl⟩
  · obtain rfl : control = .failure e := hc
    exact ⟨by simp, 0, rfl⟩

end Moment

end FlatLisp
