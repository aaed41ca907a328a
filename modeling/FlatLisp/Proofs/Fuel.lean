import FlatLisp.Eval

/-!
# Fuel

More fuel changes no outcome but an exhausted one. `o.Below o'` says that `o'` is `o` or that
the fuel of `o` was too little; a run, a function from fuel to outcomes, is *steady* when more
fuel only goes up in this order, and *ends* in the outcome that it has with enough fuel.

* `steady_eval`, `steady_evalBody`: **evaluation is steady**. `Steady.andThen` carries this over
  from the parts to the whole.
* `Ends.unique`: a steady run ends in one outcome at most.
* `ends_andThen`: a run in two parts ends as its first part does, or goes on with the second.
-/

namespace FlatLisp

variable {α β γ : Type}

namespace Outcome

/-! ## Outcomes with more fuel -/

/-- The second outcome is the first, unless the fuel of the first was too little. -/
def Below (o o' : Outcome α) : Prop := o = .exhausted ∨ o' = o

theorem Below.refl (o : Outcome α) : o.Below o := .inr rfl

theorem Below.exhausted (o : Outcome α) : Below .exhausted o := .inl rfl

theorem Below.andThen {o o' : Outcome α} {next next' : α → Session → Outcome β} (h : o.Below o')
    (hnext : ∀ a s, (next a s).Below (next' a s)) : (o.andThen next).Below (o'.andThen next') := by
  rcases h with rfl | rfl
  · exact .exhausted _
  · cases o' with
    | done a s => exact hnext a s
    | failed e s => exact .refl _
    | exhausted => exact .refl _

theorem andThen_assoc (o : Outcome α) (f : α → Session → Outcome β) (g : β → Session → Outcome γ) :
    (o.andThen f).andThen g = o.andThen fun a s => (f a s).andThen g := by
  cases o <;> rfl

end Outcome

open Outcome

/-! ## Evaluation with more fuel -/

/-- The fuel `m` changes no outcome that the fuel `n` leads to. -/
structure Suffices (n m : Nat) : Prop where
  eval : ∀ f s, (eval n f s).Below (eval m f s)
  evalEach : ∀ fs s, (evalEach n fs s).Below (evalEach m fs s)
  evalBody : ∀ fs last s, (evalBody n fs last s).Below (evalBody m fs last s)
  loop : ∀ test body step last s,
    (loop n test body step last s).Below (loop m test body step last s)
  call : ∀ p arguments s, (call n p arguments s).Below (call m p arguments s)

/-- Evaluation goes one level deeper with the fuel that its parts have there. -/
theorem Suffices.succ {n m : Nat} (h : Suffices n m) : Suffices (n + 1) (m + 1) where
  eval f s := by
    cases f with
    | literal l => exact .refl _
    | symbol name => exact .refl _
    | apply items =>
      cases items with
      | nil => exact .refl _
      | cons head rest =>
        simp only [FlatLisp.eval]
        refine (h.eval head s).andThen fun callee s => ?_
        refine (h.evalEach rest s).andThen fun arguments s => ?_
        split
        · exact .refl _
        · exact h.call _ arguments s
        · exact .refl _
    | assign target value =>
      simp only [FlatLisp.eval]
      exact (h.eval value s).andThen fun _ _ => .refl _
    | branch test yes no =>
      simp only [FlatLisp.eval]
      refine (h.eval test s).andThen fun v s => ?_
      split
      · exact h.eval yes s
      · exact h.eval no s
    | whileLoop test body => exact h.loop test body none .nil s
    | forLoop start test step body =>
      simp only [FlatLisp.eval]
      exact (h.eval start s).andThen fun _ s => h.loop test body (some step) .nil s
    | define name params body => exact .refl _
  evalEach fs s := by
    cases fs with
    | nil => exact .refl _
    | cons f fs =>
      simp only [FlatLisp.evalEach]
      exact (h.eval f s).andThen fun v s => (h.evalEach fs s).andThen fun _ _ => .refl _
  evalBody fs last s := by
    cases fs with
    | nil => exact .refl _
    | cons f fs =>
      simp only [FlatLisp.evalBody]
      exact (h.eval f s).andThen fun v s => h.evalBody fs v s
  loop test body step last s := by
    simp only [FlatLisp.loop]
    refine (h.eval test s).andThen fun v s => ?_
    split
    · refine (h.evalBody body last s).andThen fun last s => ?_
      cases step with
      | none => exact h.loop test body none last s
      | some f => exact (h.eval f s).andThen fun _ s => h.loop test body (some f) last s
    · exact .refl _
  call p arguments s := by
    simp only [FlatLisp.call]
    split
    · exact h.evalBody p.body .nil (s.bind p.params arguments)
    · exact .refl _

/-- **More fuel suffices.** -/
theorem suffices_of_le {n m : Nat} (h : n ≤ m) : Suffices n m := by
  induction n generalizing m with
  | zero =>
    exact ⟨fun _ _ => .exhausted _, fun _ _ => .exhausted _, fun _ _ _ => .exhausted _,
      fun _ _ _ _ _ => .exhausted _, fun _ _ _ => .exhausted _⟩
  | succ n ih =>
    obtain ⟨m, rfl⟩ : ∃ k, m = k + 1 := ⟨m - 1, by omega⟩
    exact (ih (by omega)).succ

/-! ## Runs -/

/-- More fuel only changes exhausted outcomes of the run. -/
def Steady (run : Nat → Outcome α) : Prop := ∀ n m, n ≤ m → (run n).Below (run m)

/-- With enough fuel the run has this outcome. -/
def Ends (run : Nat → Outcome α) (o : Outcome α) : Prop := o ≠ .exhausted ∧ ∃ fuel, run fuel = o

theorem steady_const (o : Outcome α) : Steady fun _ => o := fun _ _ _ => .refl o

theorem steady_eval (f : Form) (s : Session) : Steady fun fuel => eval fuel f s :=
  fun _ _ h => (suffices_of_le h).eval f s

theorem steady_evalBody (fs : List Form) (last : Value) (s : Session) :
    Steady fun fuel => evalBody fuel fs last s :=
  fun _ _ h => (suffices_of_le h).evalBody fs last s

theorem steady_evalEach (fs : List Form) (s : Session) : Steady fun n => evalEach n fs s :=
  fun _ _ h => (suffices_of_le h).evalEach fs s

theorem steady_loop (test : Form) (body : List Form) (step : Option Form) (last : Value)
    (s : Session) : Steady fun n => loop n test body step last s :=
  fun _ _ h => (suffices_of_le h).loop test body step last s

theorem steady_call (p : Procedure Form) (arguments : List Value) (s : Session) :
    Steady fun n => call n p arguments s :=
  fun _ _ h => (suffices_of_le h).call p arguments s

theorem steady_evalSource (source : String) (s : Session) :
    Steady fun fuel => evalSource fuel source s := by
  unfold evalSource
  cases readForms source with
  | ok fs => exact steady_evalBody fs .nil s
  | error e => exact steady_const _

section Runs

variable {run run' : Nat → Outcome α} {next next' : Nat → α → Session → Outcome β} {o : Outcome α}

theorem Steady.andThen (h : Steady run) (hnext : ∀ a s, Steady fun n => next n a s) :
    Steady fun n => (run n).andThen (next n) :=
  fun n m hnm => (h n m hnm).andThen fun a s => hnext a s n m hnm

/-- A run that has ended stays as it is. -/
theorem Steady.of_le (h : Steady run) {n m : Nat} (hnm : n ≤ m) (hn : run n ≠ .exhausted) :
    run m = run n :=
  (h n m hnm).resolve_left hn

/-- **A steady run ends in one outcome.** -/
theorem Ends.unique (h : Steady run) {o o' : Outcome α} (ho : Ends run o) (ho' : Ends run o') :
    o = o' := by
  obtain ⟨hne, n, rfl⟩ := ho
  obtain ⟨hne', m, rfl⟩ := ho'
  rcases Nat.le_total n m with hnm | hnm
  · exact (h.of_le hnm hne).symm
  · exact h.of_le hnm hne'

/-- A run that ends has the same outcome with any fuel that is enough. -/
theorem Ends.eventually (h : Steady run) (ho : Ends run o) :
    ∃ enough, ∀ n, enough ≤ n → run n = o := by
  obtain ⟨hne, n, rfl⟩ := ho
  exact ⟨n, fun m hnm => h.of_le hnm hne⟩

/-- **A run in two parts** ends as its first part does, or goes on with the second. -/
theorem ends_andThen (h : Steady run) (hnext : ∀ a s, Steady fun n => next n a s) {o : Outcome β} :
    Ends (fun n => (run n).andThen (next n)) o ↔
      (∃ a s, Ends run (.done a s) ∧ Ends (fun n => next n a s) o) ∨
        ∃ e s, Ends run (.failed e s) ∧ o = .failed e s := by
  constructor
  · rintro ⟨hne, n, rfl⟩
    cases hn : run n with
    | done a s =>
      simp only [hn, Outcome.andThen] at hne ⊢
      exact .inl ⟨a, s, ⟨by simp, n, hn⟩, hne, n, rfl⟩
    | failed e s => exact .inr ⟨e, s, ⟨by simp, n, hn⟩, by simp [hn, Outcome.andThen]⟩
    | exhausted => exact absurd (by simp [hn, Outcome.andThen]) hne
  · rintro (⟨a, s, ⟨hne, n, hn⟩, hne', m, rfl⟩ | ⟨e, s, ⟨-, n, hn⟩, rfl⟩)
    · -- the two parts have enough fuel together
      refine ⟨hne', max n m, ?_⟩
      have hrun := h.of_le (Nat.le_max_left n m) (hn ▸ hne)
      have hgo := (hnext a s).of_le (Nat.le_max_right n m) hne'
      simp only [hrun, hn, Outcome.andThen]
      exact hgo
    · exact ⟨by simp, n, by simp [hn, Outcome.andThen]⟩

/-- The runs end in the same outcomes. -/
def Agree (run run' : Nat → Outcome α) : Prop := ∀ o, Ends run o ↔ Ends run' o

theorem Agree.refl (run : Nat → Outcome α) : Agree run run := fun _ => .rfl

theorem Agree.trans {run'' : Nat → Outcome α} (h : Agree run run') (h' : Agree run' run'') :
    Agree run run'' := fun o => (h o).trans (h' o)

theorem Agree.symm (h : Agree run run') : Agree run' run := fun o => (h o).symm

/-- The fuel for the outermost level may be left out. -/
theorem agree_succ (h : run 0 = .exhausted) : Agree run fun n => run (n + 1) := by
  intro o
  constructor
  · rintro ⟨hne, n, rfl⟩
    cases n with
    | zero => exact absurd h hne
    | succ n => exact ⟨hne, n, rfl⟩
  · rintro ⟨hne, n, rfl⟩
    exact ⟨hne, n + 1, rfl⟩

/-- Runs whose parts agree agree. -/
theorem Agree.andThen (h : Steady run) (h' : Steady run') (hnext : ∀ a s, Steady fun n => next n a s)
    (hnext' : ∀ a s, Steady fun n => next' n a s) (hrun : Agree run run')
    (hgo : ∀ a s, Agree (fun n => next n a s) fun n => next' n a s) :
    Agree (fun n => (run n).andThen (next n)) fun n => (run' n).andThen (next' n) := by
  intro o
  rw [ends_andThen h hnext, ends_andThen h' hnext']
  simp only [hrun _, hgo _ _ _]

end Runs

end FlatLisp
