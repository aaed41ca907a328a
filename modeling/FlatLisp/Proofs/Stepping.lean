import FlatLisp.Proofs.Moments

/-!
# Evaluation step by step

With enough fuel an evaluation is a row of steps from moment to moment, and a row of steps to
an end is an evaluation. So what every step preserves holds of every evaluation, at every
moment of it.

* `lands_of_fuel`: an evaluation that ends within its fuel is a row of steps.
* `ends_iff_reaches`: **forms have an outcome exactly when their first moment leads to one
  with this outcome.**
-/

namespace FlatLisp

open Outcome

section Landing

variable {α β : Type} {o : Outcome α} {next : α → Session → Outcome β} {m m' : Moment}
  {give : α → Session → Moment} {give' : β → Session → Moment}

/-- From the moment `m`, steps lead to what the outcome says. -/
def Outcome.Lands (o : Outcome α) (give : α → Session → Moment) (m : Moment) : Prop :=
  match o with
  | .done a s => m.Reaches (give a s)
  | .failed e s => ∃ k, m.Reaches ⟨.failure e, k, s⟩
  | .exhausted => True

theorem Outcome.Lands.of_reaches (h : m.Reaches m') (ho : o.Lands give m') : o.Lands give m := by
  cases o with
  | done a s => exact Relation.ReflTransGen.trans h ho
  | failed e s =>
    obtain ⟨k, hk⟩ := ho
    exact ⟨k, Relation.ReflTransGen.trans h hk⟩
  | exhausted => trivial

theorem Outcome.Lands.step (h : m.next = some m') (ho : o.Lands give m') : o.Lands give m :=
  .of_reaches (.single h) ho

theorem Outcome.Lands.andThen (ho : o.Lands give m)
    (hnext : ∀ a s, (next a s).Lands give' (give a s)) : (o.andThen next).Lands give' m := by
  cases o with
  | done a s => exact .of_reaches ho (hnext a s)
  | failed e s => exact ho
  | exhausted => trivial

end Landing

/-- The moment at which a value is there. -/
def Moment.at (k : List Frame) (v : Value) (s : Session) : Moment := ⟨.value v, k, s⟩

/-- Evaluations that end with the fuel `n` are rows of steps. -/
structure LandsWithin (n : Nat) : Prop where
  eval : ∀ f k s, (eval n f s).Lands (Moment.at k) ⟨.form f, k, s⟩
  evalEach : ∀ head callee found rest k s, (evalEach n rest s).Lands
    (fun vs s => Moment.applied head callee (found.reverse ++ vs) k s)
    (Moment.collect head callee found rest k s)
  evalBody : ∀ fs last k s, (evalBody n fs last s).Lands (Moment.at k) ⟨.value last, .body fs :: k, s⟩
  loop : ∀ c last k s, (loop n c.test c.body c.step last s).Lands (Moment.at k)
    ⟨.form c.test, .test c last :: k, s⟩
  call : ∀ head p arguments k s, (call n p arguments s).Lands (Moment.at k)
    (Moment.applied head (.procedure p) arguments k s)

/-- One level deeper, evaluation makes some steps and then those of its parts. -/
theorem LandsWithin.succ {n : Nat} (h : LandsWithin n) : LandsWithin (n + 1) where
  eval f k s := by
    refine .step rfl ?_
    cases f with
    | literal l => exact .refl
    | symbol name =>
      simp only [FlatLisp.eval, Moment.enter]
      cases s.env.find? name with
      | some v => exact .refl
      | none => exact ⟨k, .refl⟩
    | apply items =>
      cases items with
      | nil => exact ⟨k, .refl⟩
      | cons head rest =>
        refine (h.eval head (.operator head rest :: k) s).andThen fun callee s => .step rfl ?_
        refine (h.evalEach head callee [] rest k s).andThen fun arguments s => ?_
        cases callee with
        | cell stamp first tail => exact ⟨k, .refl⟩
        | atom a =>
          cases a with
          | builtin b =>
            simp only [Moment.applied, List.reverse_nil, List.nil_append]
            obtain ⟨r, s'⟩ := b.call arguments s
            cases r with
            | ok v => exact .refl
            | error e => exact ⟨k, .refl⟩
          | procedure p => exact h.call head p arguments k s
          | _ => exact ⟨k, .refl⟩
    | assign target value =>
      exact (h.eval value (.target target :: k) s).andThen fun v s => .single rfl
    | branch test yes no =>
      refine (h.eval test (.branches yes no :: k) s).andThen fun v s => .step rfl ?_
      simp only [Moment.resume]
      split
      · exact h.eval yes k s
      · exact h.eval no k s
    | whileLoop test body => exact h.loop ⟨test, body, none⟩ .nil k s
    | forLoop start test step body =>
      exact (h.eval start (.start ⟨test, body, some step⟩ :: k) s).andThen fun _ s =>
        .step rfl (h.loop ⟨test, body, some step⟩ .nil k s)
    | define name params body => exact .refl
  evalEach head callee found rest k s := by
    cases rest with
    | nil =>
      simp only [FlatLisp.evalEach, Outcome.Lands, List.append_nil]
      exact .refl
    | cons f rest =>
      refine (h.eval f (.operand head callee found rest :: k) s).andThen fun v s => .step rfl ?_
      refine (h.evalEach head callee (v :: found) rest k s).andThen fun vs s => ?_
      simp only [Outcome.Lands, List.reverse_cons, List.append_assoc, List.singleton_append]
      exact .refl
  evalBody fs last k s := by
    refine .step rfl ?_
    cases fs with
    | nil => exact .refl
    | cons f fs =>
      exact (h.eval f (.body fs :: k) s).andThen fun v s => h.evalBody fs v k s
  loop c last k s := by
    refine (h.eval c.test (.test c last :: k) s).andThen fun v s => .step rfl ?_
    simp only [Moment.resume]
    split
    · refine (h.evalBody c.body last (.round c :: k) s).andThen fun last s => .step rfl ?_
      obtain ⟨test, body, step⟩ := c
      cases step with
      | none => exact h.loop ⟨test, body, none⟩ last k s
      | some f =>
        exact (h.eval f (.step ⟨test, body, some f⟩ last :: k) s).andThen fun _ s =>
          .step rfl (h.loop ⟨test, body, some f⟩ last k s)
    · exact .refl
  call head p arguments k s := by
    simp only [FlatLisp.call, Moment.applied]
    split
    · exact h.evalBody p.body .nil k (s.bind p.params arguments)
    · exact ⟨k, .refl⟩

/-- **An evaluation that ends within its fuel is a row of steps.** -/
theorem lands_of_fuel (n : Nat) : LandsWithin n := by
  induction n with
  | zero =>
    exact ⟨fun _ _ _ => trivial, fun _ _ _ _ _ _ => trivial, fun _ _ _ _ => trivial,
      fun _ _ _ _ => trivial, fun _ _ _ _ _ => trivial⟩
  | succ n ih => exact ih.succ

/-- **Forms have an outcome exactly when their first moment leads to it.** -/
theorem ends_iff_reaches (fs : List Form) (s : Session) (o : Outcome Value) :
    Ends (fun n => evalForms n fs s) o ↔
      ∃ m, (Moment.start fs s).Reaches m ∧ m.outcome? = some o := by
  constructor
  · rintro ⟨hne, n, rfl⟩
    have h := (lands_of_fuel n).evalBody fs .nil [] s
    change evalBody n fs .nil s ≠ .exhausted at hne
    change ∃ m, _ ∧ Moment.outcome? m = some (evalBody n fs .nil s)
    cases ho : evalBody n fs .nil s with
    | done v s' =>
      rw [ho] at h
      exact ⟨_, h, rfl⟩
    | failed e s' =>
      rw [ho] at h
      obtain ⟨k, hk⟩ := h
      exact ⟨_, hk, rfl⟩
    | exhausted => exact absurd ho hne
  · rintro ⟨m, hm, ho⟩
    have hrun : (Moment.start fs s).run = fun n => evalForms n fs s := Moment.run_value .nil _ s
    rw [← hrun]
    exact (Moment.agree_reaches hm o).2 (Moment.ends_of_outcome ho)

end FlatLisp
