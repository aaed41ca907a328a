import FlatLisp.Proofs.Joining
import FlatLisp.Proofs.Moments

/-!
# Loops

A loop goes in rounds. Each evaluates the test, and if that holds the body and the step
(`round`). So a loop ends where its test does not hold, or where its test or a round fails
(`LoopEnds`), and rounds that do the same but for their values make loops that do the same.

`Turns` are the rounds of a loop that are completed, with the values of the body in each.

* `ends_loop_iff`: **a loop ends as its rounds do.**
* `LoopEnds.carry`: loops whose rounds agree up to their values agree up to their values.
* `ends_loop_done_iff`: a loop that succeeds has the value of the last form of its last round.
* `counting_loop`: **a counting loop is its start and then a loop with the step as the last form
  of the body**, but for the value, which is that of the body.
-/

namespace FlatLisp

open Outcome

/-! ## Outcomes without their values -/

namespace Outcome

variable {α β : Type} {o : Outcome α} {e : Error} {s : Session}

theorem forget_eq_done : o.forget = .done () s ↔ ∃ a, o = .done a s := by
  cases o <;> simp [forget, andThen]

theorem forget_eq_failed : o.forget = .failed e s ↔ o = .failed e s := by
  cases o <;> simp [forget, andThen]

theorem forget_andThen (next : α → Session → Outcome β) :
    (o.andThen next).forget = o.andThen fun a s => (next a s).forget :=
  andThen_assoc o next _

/-- What does not look at a value goes on without it. -/
theorem andThen_forget (next : Session → Outcome β) :
    (o.andThen fun _ s => next s) = o.forget.andThen fun _ s => next s := by
  cases o <;> rfl

end Outcome

theorem Steady.forget {α : Type} {run : Nat → Outcome α} (h : Steady run) :
    Steady fun n => (run n).forget :=
  h.andThen fun _ _ => steady_const _

theorem Agree.forget {α : Type} {run run' : Nat → Outcome α} (h : Agree run run') :
    Agree (fun n => (run n).forget) fun n => (run' n).forget := by
  intro o
  simp only [ends_forget, h _]

/-! ## Rounds -/

/-- Evaluates the step of a loop, if it has one. -/
def evalStep (fuel : Nat) (step : Option Form) (s : Session) : Outcome Unit :=
  match step with
  | none => .done () s
  | some f => (eval fuel f s).forget

/-- A round of a loop behind its test: the body and then the step, to the value of the body. -/
def round (fuel : Nat) (body : List Form) (step : Option Form) (last : Value) (s : Session) :
    Outcome Value :=
  (evalBody fuel body last s).andThen fun v s => (evalStep fuel step s).andThen fun _ s => .done v s

variable {test : Form} {body body' : List Form} {step step' : Option Form} {last last' v : Value}
  {s s' : Session} {o : Outcome Value}

theorem steady_evalStep (step : Option Form) (s : Session) : Steady fun n => evalStep n step s := by
  cases step with
  | none => exact steady_const _
  | some f => exact (steady_eval f s).forget

theorem steady_round (body : List Form) (step : Option Form) (last : Value) (s : Session) :
    Steady fun n => round n body step last s :=
  (steady_evalBody body last s).andThen fun v s =>
    (steady_evalStep step s).andThen fun _ s => steady_const (.done v s)

/-- A loop evaluates its test, and then a round and what is left of it. -/
theorem loop_succ (n : Nat) (test : Form) (body : List Form) (step : Option Form) (last : Value)
    (s : Session) :
    loop (n + 1) test body step last s = (eval n test s).andThen fun v s =>
      if v.truthy then (round n body step last s).andThen fun v s => loop n test body step v s
      else .done last s := by
  rw [loop]
  congr 1
  funext v s
  split
  · rw [round, andThen_assoc]
    congr 1
    funext w s
    cases step with
    | none => rfl
    | some f =>
      simp only [evalStep, Outcome.forget, andThen_assoc]
      rfl
  · rfl

/-- How a loop ends, with `last` as its value so far. -/
inductive LoopEnds (test : Form) (body : List Form) (step : Option Form) :
    Value → Session → Outcome Value → Prop
  | stop {last v : Value} {s s' : Session} (htest : Ends (fun n => eval n test s) (.done v s'))
    (hv : v.truthy = false) : LoopEnds test body step last s (.done last s')
  | testFails {last : Value} {s s' : Session} {e : Error}
    (htest : Ends (fun n => eval n test s) (.failed e s')) :
    LoopEnds test body step last s (.failed e s')
  | roundFails {last v : Value} {s s' s'' : Session} {e : Error}
    (htest : Ends (fun n => eval n test s) (.done v s')) (hv : v.truthy = true)
    (hround : Ends (fun n => round n body step last s') (.failed e s'')) :
    LoopEnds test body step last s (.failed e s'')
  | again {last v w : Value} {s s' s'' : Session} {o : Outcome Value}
    (htest : Ends (fun n => eval n test s) (.done v s')) (hv : v.truthy = true)
    (hround : Ends (fun n => round n body step last s') (.done w s''))
    (h : LoopEnds test body step w s'' o) : LoopEnds test body step last s o

/-- A loop that ends within its fuel ends as its rounds do. -/
theorem loopEnds_of_fuel {n : Nat} (hne : loop n test body step last s ≠ .exhausted) :
    LoopEnds test body step last s (loop n test body step last s) := by
  induction n generalizing last s with
  | zero => exact absurd rfl hne
  | succ n ih =>
    rw [loop_succ] at hne ⊢
    cases htest : eval n test s with
    | exhausted => simp [htest, andThen] at hne
    | failed e s' => exact .testFails ⟨by simp, n, htest⟩
    | done v s' =>
      have htest' : Ends (fun n => eval n test s) (.done v s') := ⟨by simp, n, htest⟩
      rw [htest, done_andThen] at hne
      rw [done_andThen]
      cases hv : v.truthy with
      | false => exact .stop htest' hv
      | true =>
        simp only [hv, if_true] at hne ⊢
        cases hround : round n body step last s' with
        | exhausted => simp [hround, andThen] at hne
        | failed e s'' => exact .roundFails htest' hv ⟨by simp, n, hround⟩
        | done w s'' =>
          simp only [hround, done_andThen] at hne ⊢
          exact .again htest' hv ⟨by simp, n, hround⟩ (ih hne)

/-- A loop that goes on behind its test. -/
theorem ends_loop_of_test (htest : Ends (fun n => eval n test s) (.done v s'))
    (h : Ends (fun n => if v.truthy then (round n body step last s').andThen fun v s =>
      loop n test body step v s else .done last s') o) :
    Ends (fun n => loop n test body step last s) o := by
  refine (agree_succ rfl o).2 ?_
  simp only [loop_succ]
  refine (ends_andThen (steady_eval test s) fun v s => ?_).2 (.inl ⟨v, s', htest, h⟩)
  split
  · exact (steady_round body step last s).andThen fun v s => steady_loop test body step v s
  · exact steady_const _

/-- **A loop ends as its rounds do.** -/
theorem ends_loop_iff :
    Ends (fun n => loop n test body step last s) o ↔ LoopEnds test body step last s o := by
  constructor
  · rintro ⟨hne, n, rfl⟩
    exact loopEnds_of_fuel hne
  · intro h
    induction h with
    | stop htest hv =>
      refine ends_loop_of_test htest ?_
      simp [hv, Ends]
    | testFails htest =>
      obtain ⟨-, n, hn⟩ := htest
      refine ⟨by simp, n + 1, ?_⟩
      simp only [loop_succ, hn]
      rfl
    | roundFails htest hv hround =>
      refine ends_loop_of_test htest ?_
      simp only [hv, if_true]
      exact (ends_andThen (steady_round body step _ _) fun v s =>
        steady_loop test body step v s).2 (.inr ⟨_, _, hround, rfl⟩)
    | again htest hv hround _ ih =>
      refine ends_loop_of_test htest ?_
      simp only [hv, if_true]
      exact (ends_andThen (steady_round body step _ _) fun v s =>
        steady_loop test body step v s).2 (.inl ⟨_, _, hround, ih⟩)

/-! ## Rounds that agree -/

/-- **Loops whose rounds agree up to their values** agree up to their values. -/
theorem LoopEnds.carry
    (hround : ∀ last last' s, Agree (fun n => (round n body step last s).forget)
      fun n => (round n body' step' last' s).forget)
    (h : LoopEnds test body step last s o) (last' : Value) :
    ∃ o', LoopEnds test body' step' last' s o' ∧ o'.forget = o.forget := by
  induction h generalizing last' with
  | stop htest hv => exact ⟨_, .stop htest hv, rfl⟩
  | testFails htest => exact ⟨_, .testFails htest, rfl⟩
  | @roundFails last v s s' s'' e htest hv h =>
    obtain ⟨o', ho', he⟩ := ends_forget.1 ((hround last last' s' _).1 (ends_forget.2 ⟨_, h, rfl⟩))
    obtain rfl := forget_eq_failed.1 he
    exact ⟨_, .roundFails htest hv ho', rfl⟩
  | @again last v w s s' s'' o htest hv h _ ih =>
    obtain ⟨o', ho', hw⟩ := ends_forget.1 ((hround last last' s' _).1 (ends_forget.2 ⟨_, h, rfl⟩))
    obtain ⟨w', rfl⟩ := forget_eq_done.1 hw
    obtain ⟨o', hrest, heq⟩ := ih w'
    exact ⟨o', .again htest hv ho' hrest, heq⟩

theorem agree_loop_forget
    (hround : ∀ last last' s, Agree (fun n => (round n body step last s).forget)
      fun n => (round n body' step' last' s).forget) (test : Form) (last last' : Value) (s : Session) :
    Agree (fun n => (loop n test body step last s).forget)
      fun n => (loop n test body' step' last' s).forget := by
  intro o
  simp only [ends_forget, ends_loop_iff]
  constructor
  · rintro ⟨o, h, rfl⟩
    exact h.carry hround last'
  · rintro ⟨o, h, rfl⟩
    exact h.carry (fun last last' s => (hround last' last s).symm) last

/-- A body does the same whatever was last before it. -/
theorem evalBody_forget (n : Nat) (body : List Form) (last last' : Value) (s : Session) :
    (evalBody n body last s).forget = (evalBody n body last' s).forget := by
  cases body with
  | nil => cases n <;> rfl
  | cons f fs => rw [evalBody_last n f fs last last' s]

/-- A body of one form. -/
theorem agree_evalBody_one (f : Form) (last : Value) (s : Session) :
    Agree (fun n => evalBody n [f] last s) fun n => eval n f s := by
  refine (agree_evalBody_cons f [] last s).trans ?_
  refine (Agree.andThen (steady_eval f s) (steady_eval f s) (fun v s => steady_evalBody [] v s)
    (fun v s => steady_const (.done v s)) (.refl _) fun v s => agree_evalBody_nil v s).trans ?_
  simp only [andThen_done]
  exact .refl _

/-- Without its value a round is a body and a step. -/
theorem round_forget (n : Nat) (body : List Form) (step : Option Form) (last : Value) (s : Session) :
    (round n body step last s).forget =
      (evalBody n body last s).forget.andThen fun _ s => evalStep n step s := by
  rw [round, forget_andThen, ← andThen_forget]
  congr 1
  funext v s
  cases evalStep n step s <;> rfl

/-- **The step may be the last form of the body**, but for the value. -/
theorem agree_round_step (body : List Form) (f : Form) (last last' : Value) (s : Session) :
    Agree (fun n => (round n body (some f) last s).forget)
      fun n => (round n (body ++ [f]) none last' s).forget := by
  have hbody := steady_evalBody body last' s
  have hnone : ∀ n, (round n (body ++ [f]) none last' s).forget =
      (evalBody n (body ++ [f]) last' s).forget := fun n => by
    rw [round_forget]
    cases evalBody n (body ++ [f]) last' s <;> rfl
  simp only [round_forget _ _ (some f), hnone, evalBody_forget _ body last last' s, ← andThen_forget]
  refine Agree.symm ((agree_evalBody_append body [f] last' s).forget.trans ?_)
  simp only [forget_andThen]
  exact Agree.andThen hbody hbody (fun v s => (steady_evalBody [f] v s).forget)
    (fun _ s => (steady_eval f s).forget) (.refl _) fun v s => (agree_evalBody_one f v s).forget

/-! ## The value of a loop -/

/-- A run in two parts succeeds when both parts do. -/
theorem ends_andThen_done {α β : Type} {run : Nat → Outcome α} {next : Nat → α → Session → Outcome β}
    {b : β} (h : Steady run) (hnext : ∀ a s, Steady fun n => next n a s) :
    Ends (fun n => (run n).andThen (next n)) (.done b s') ↔
      ∃ a s, Ends run (.done a s) ∧ Ends (fun n => next n a s) (.done b s') := by
  rw [ends_andThen h hnext]
  simp

theorem ends_const {α : Type} {o o' : Outcome α} (h : o ≠ .exhausted) :
    Ends (fun _ => o) o' ↔ o' = o := by
  constructor
  · rintro ⟨-, -, rfl⟩
    rfl
  · rintro rfl
    exact ⟨h, 0, rfl⟩

/-- The value of a body is that of its last form, or what was last before it if it has none. -/
theorem ends_evalBody_done_iff : Ends (fun n => evalBody n body last s) (.done v s') ↔
    ∃ vs, Ends (fun n => evalEach n body s) (.done vs s') ∧ v = vs.getLast?.getD last := by
  induction body generalizing last s with
  | nil =>
    have heach : Agree (fun n => evalEach n [] s) fun _ => .done [] s := agree_succ rfl
    rw [agree_evalBody_nil last s _, ends_const (by simp)]
    simp only [heach _, ends_const (o := Outcome.done ([] : List Value) s) (by simp)]
    constructor
    · intro h
      obtain ⟨rfl, rfl⟩ := Outcome.done.inj h
      exact ⟨[], rfl, rfl⟩
    · rintro ⟨vs, h, rfl⟩
      obtain ⟨rfl, rfl⟩ := Outcome.done.inj h
      rfl
  | cons f fs ih =>
    have heach : Agree (fun n => evalEach n (f :: fs) s) fun n => (eval n f s).andThen fun v s =>
        (evalEach n fs s).andThen fun vs s => .done (v :: vs) s := agree_succ rfl
    have hf := steady_eval f s
    have hfs : ∀ v s, Steady fun n => (evalEach n fs s).andThen fun vs s => .done (v :: vs) s :=
      fun v s => (steady_evalEach fs s).andThen fun vs s => steady_const _
    rw [agree_evalBody_cons f fs last s _, ends_andThen_done hf fun v s => steady_evalBody fs v s]
    simp only [ih, heach _, ends_andThen_done hf hfs,
      ends_andThen_done (steady_evalEach fs _) fun vs s => steady_const (.done (_ :: vs) s),
      ends_const (o := Outcome.done _ _) (by simp)]
    constructor
    · rintro ⟨w, s₁, hw, vs, hvs, rfl⟩
      exact ⟨w :: vs, ⟨w, s₁, hw, vs, s', hvs, rfl⟩, by rw [List.getLast?_cons]; rfl⟩
    · rintro ⟨vs', ⟨w, s₁, hw, vs, s₂, hvs, h⟩, rfl⟩
      obtain ⟨rfl, rfl⟩ := Outcome.done.inj h
      exact ⟨w, s₁, hw, vs, hvs, by rw [List.getLast?_cons]; rfl⟩

theorem ends_round_done_iff : Ends (fun n => round n body step last s) (.done v s') ↔
    ∃ vs s₁, Ends (fun n => evalEach n body s) (.done vs s₁) ∧
      Ends (fun n => evalStep n step s₁) (.done () s') ∧ v = vs.getLast?.getD last := by
  have hstep : ∀ v s, Steady fun n => (evalStep n step s).andThen fun _ s => .done (v : Value) s :=
    fun v s => (steady_evalStep step s).andThen fun _ s => steady_const (.done v s)
  unfold round
  simp only [ends_andThen_done (steady_evalBody body last s) hstep, ends_evalBody_done_iff,
    ends_andThen_done (steady_evalStep step _) fun _ s => steady_const (.done _ s),
    ends_const (o := Outcome.done _ _) (by simp)]
  constructor
  · rintro ⟨w, s₁, ⟨vs, hvs, rfl⟩, u, s₂, hu, h⟩
    obtain ⟨rfl, rfl⟩ := Outcome.done.inj h
    exact ⟨vs, s₁, hvs, hu, rfl⟩
  · rintro ⟨vs, s₁, hvs, hu, rfl⟩
    exact ⟨_, s₁, ⟨vs, hvs, rfl⟩, (), s', hu, rfl⟩

/-- Completed rounds of a loop, with the values of the forms of the body in each. -/
inductive Turns (test : Form) (body : List Form) (step : Option Form) :
    Session → List (List Value) → Session → Prop
  | nil (s : Session) : Turns test body step s [] s
  | cons {s s₁ s₂ s₃ s' : Session} {v : Value} {vs : List Value} {vss : List (List Value)}
    (htest : Ends (fun n => eval n test s) (.done v s₁)) (hv : v.truthy = true)
    (hbody : Ends (fun n => evalEach n body s₁) (.done vs s₂))
    (hstep : Ends (fun n => evalStep n step s₂) (.done () s₃))
    (h : Turns test body step s₃ vss s') : Turns test body step s (vs :: vss) s'

/-- The loop makes these rounds, and then its test does not hold. -/
def Finishes (test : Form) (body : List Form) (step : Option Form) (s : Session)
    (vss : List (List Value)) (s' : Session) : Prop :=
  ∃ s₁ v, Turns test body step s vss s₁ ∧ Ends (fun n => eval n test s₁) (.done v s') ∧
    v.truthy = false

/-- The value of the last form in the last round, or nil if there is none. -/
def lastValue (vss : List (List Value)) : Value := (vss.getLast?.bind List.getLast?).getD .nil

variable {vss : List (List Value)}

/-- **A loop that succeeds finishes its rounds**, and its value is the last one that they leave. -/
theorem ends_loop_done_iff : Ends (fun n => loop n test body step last s) (.done v s') ↔
    ∃ vss, Finishes test body step s vss s' ∧
      v = vss.foldl (fun last vs => vs.getLast?.getD last) last := by
  rw [ends_loop_iff]
  constructor
  · intro h
    generalize ho : Outcome.done v s' = o at h
    induction h with
    | stop htest hv =>
      obtain ⟨rfl, rfl⟩ := Outcome.done.inj ho
      exact ⟨[], ⟨_, _, .nil _, htest, hv⟩, rfl⟩
    | testFails htest => exact absurd ho (by simp)
    | roundFails htest hv hround => exact absurd ho (by simp)
    | again htest hv hround _ ih =>
      obtain ⟨vs, s₁, hvs, hstep, rfl⟩ := ends_round_done_iff.1 hround
      obtain ⟨vss, ⟨s₂, u, hturns, hend, hu⟩, rfl⟩ := ih ho
      exact ⟨vs :: vss, ⟨s₂, u, .cons htest hv hvs hstep hturns, hend, hu⟩, rfl⟩
  · rintro ⟨vss, ⟨s₁, u, hturns, hend, hu⟩, rfl⟩
    induction hturns generalizing last with
    | nil s => exact .stop hend hu
    | cons htest hv hbody hstep _ ih =>
      exact .again htest hv (ends_round_done_iff.2 ⟨_, _, hbody, hstep, rfl⟩) (ih hend)

theorem length_of_ends_evalEach {vs : List Value}
    (h : Ends (fun n => evalEach n body s) (.done vs s')) : vs.length = body.length := by
  obtain ⟨-, n, hn⟩ := h
  induction n generalizing body s vs with
  | zero => exact absurd hn (by simp [evalEach])
  | succ n ih =>
    cases body with
    | nil =>
      obtain ⟨rfl, -⟩ := Outcome.done.inj hn
      rfl
    | cons f fs =>
      simp only [evalEach] at hn
      cases hf : eval n f s with
      | failed e s₁ => simp [hf, andThen] at hn
      | exhausted => simp [hf, andThen] at hn
      | done w s₁ =>
        rw [hf, done_andThen] at hn
        cases hfs : evalEach n fs s₁ with
        | failed e s₂ => simp [hfs, andThen] at hn
        | exhausted => simp [hfs, andThen] at hn
        | done ws s₂ =>
          rw [hfs, done_andThen] at hn
          obtain ⟨rfl, rfl⟩ := Outcome.done.inj hn
          rw [List.length_cons, List.length_cons, ih hfs]

/-- Every round evaluates the whole body. -/
theorem Turns.length_eq (h : Turns test body step s vss s') : ∀ vs ∈ vss, vs.length = body.length := by
  induction h with
  | nil s => simp
  | cons _ _ hbody _ _ ih =>
    intro vs hvs
    rcases List.mem_cons.1 hvs with rfl | hvs
    · exact length_of_ends_evalEach hbody
    · exact ih vs hvs

/-- What rounds of one length leave behind is the last value of the last of them. -/
theorem foldl_getLast {k : Nat} (h : ∀ vs ∈ vss, vs.length = k) :
    vss.foldl (fun last vs => vs.getLast?.getD last) .nil = lastValue vss := by
  rcases List.eq_nil_or_concat vss with rfl | ⟨init, vs, rfl⟩
  · rfl
  · rw [List.concat_eq_append] at h ⊢
    rw [List.foldl_append, lastValue, List.getLast?_append]
    cases hvs : vs.getLast? with
    | some v => simp [hvs]
    | none =>
      -- the body is empty, so no round has a value
      have hnil : vs = [] := List.getLast?_eq_none_iff.1 hvs
      have hk : k = 0 := by
        rw [← h vs (by simp), hnil]
        rfl
      have hinit : ∀ ws ∈ init, ws = [] := fun ws hws =>
        List.length_eq_zero_iff.1 (hk ▸ h ws (by simp [hws]))
      have hfold : ∀ init : List (List Value), (∀ ws ∈ init, ws = []) →
          init.foldl (fun last vs => vs.getLast?.getD last) Value.nil = .nil := by
        intro init hinit
        induction init with
        | nil => rfl
        | cons ws init ih =>
          obtain rfl := hinit ws (by simp)
          exact ih fun ws hws => hinit ws (by simp [hws])
      simp [hvs, hfold init hinit]

theorem ends_loop_nil_iff : Ends (fun n => loop n test body step .nil s) (.done v s') ↔
    ∃ vss, Finishes test body step s vss s' ∧ v = lastValue vss := by
  rw [ends_loop_done_iff]
  refine exists_congr fun vss => and_congr_right ?_
  rintro ⟨s₁, u, hturns, -⟩
  rw [foldl_getLast hturns.length_eq]

/-! ## Counting loops -/

/-- **A counting loop is its start and then a loop** whose body ends with the step: they end
together, in the same session, and with the same error if they fail. A counting loop and a loop
that succeed have the value of the last form of the body in the last round, or nil. -/
theorem counting_loop (start test step : Form) (body : List Form) (s : Session) :
    (∀ o, Ends (fun n => (eval n (.forLoop start test step body) s).forget) o ↔
      Ends (fun n => (evalForms n [start, .whileLoop test (body ++ [step])] s).forget) o) ∧
    (∀ v s', Ends (fun n => eval n (.forLoop start test step body) s) (.done v s') ↔
      ∃ u s₀ vss, Ends (fun n => eval n start s) (.done u s₀) ∧
        Finishes test body (some step) s₀ vss s' ∧ v = lastValue vss) ∧
    ∀ v s', Ends (fun n => eval n (.whileLoop test body) s) (.done v s') ↔
      ∃ vss, Finishes test body none s vss s' ∧ v = lastValue vss := by
  have hstart := steady_eval start s
  have hfor : Agree (fun n => eval n (.forLoop start test step body) s)
      fun n => (eval n start s).andThen fun _ s => loop n test body (some step) .nil s :=
    agree_succ rfl
  have hwhile : ∀ body s, Agree (fun n => eval n (.whileLoop test body) s)
      fun n => loop n test body none .nil s := fun _ _ => agree_succ rfl
  refine ⟨?_, fun v s' => ?_, fun v s' => ?_⟩
  · have hloop : ∀ s, Agree (fun n => (loop n test body (some step) .nil s).forget)
        fun n => (eval n (.whileLoop test (body ++ [step])) s).forget := fun s =>
      (agree_loop_forget (agree_round_step body step) test .nil .nil s).trans
        (hwhile (body ++ [step]) s).forget.symm
    have hforms : Agree (fun n => evalForms n [start, .whileLoop test (body ++ [step])] s)
        fun n => (eval n start s).andThen fun _ s => eval n (.whileLoop test (body ++ [step])) s := by
      refine (agree_evalBody_cons start _ .nil s).trans ?_
      exact Agree.andThen hstart hstart (fun v s => steady_evalBody _ v s) (fun v s => steady_eval _ s)
        (.refl _) fun v s => agree_evalBody_one _ v s
    refine hfor.forget.trans (.trans ?_ hforms.forget.symm)
    simp only [forget_andThen]
    exact Agree.andThen hstart hstart (fun _ s => (steady_loop test body (some step) .nil s).forget)
      (fun _ s => (steady_eval _ s).forget) (.refl _) fun _ s => hloop s
  · rw [hfor _, ends_andThen_done hstart fun _ s => steady_loop test body (some step) .nil s]
    simp only [ends_loop_nil_iff]
    constructor
    · rintro ⟨u, s₀, hu, vss, h⟩
      exact ⟨u, s₀, vss, hu, h⟩
    · rintro ⟨u, s₀, vss, hu, h⟩
      exact ⟨u, s₀, hu, vss, h⟩
  · rw [hwhile body s _, ends_loop_nil_iff]

end FlatLisp
