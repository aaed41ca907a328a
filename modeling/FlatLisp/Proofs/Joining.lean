import FlatLisp.Load
import FlatLisp.Proofs.Concatenation
import FlatLisp.Proofs.Fuel

/-!
# Evaluating texts in a row

A body that consists of two parts is evaluated as the parts are, one after the other. With the
forms of joined texts this makes one evaluation out of several.

* `agree_evalBody_append`: a body in two parts.
* `agree_evalSources`: texts one after another, and all of their forms in one body.
* `joined_sources`: **evaluating texts joined by line ends is evaluating them one after
  another**, or loading files with these contents. A broken text behind readable ones fails
  before anything is evaluated.
-/

namespace FlatLisp

open Outcome

/-! ## Bodies -/

theorem agree_evalBody_nil (last : Value) (s : Session) :
    Agree (fun n => evalBody n [] last s) fun _ => .done last s :=
  agree_succ rfl

theorem agree_evalBody_cons (f : Form) (fs : List Form) (last : Value) (s : Session) :
    Agree (fun n => evalBody n (f :: fs) last s)
      fun n => (eval n f s).andThen fun v s => evalBody n fs v s :=
  agree_succ rfl

/-- The value of a body with a form does not depend on what was last before. -/
theorem evalBody_last (n : Nat) (f : Form) (fs : List Form) (last last' : Value) (s : Session) :
    evalBody n (f :: fs) last s = evalBody n (f :: fs) last' s := by
  cases n <;> rfl

/-- Behind no form the rest goes on at once. -/
theorem agree_evalBody_nil_andThen {α : Type} {next : Nat → Value → Session → Outcome α}
    (hnext : ∀ v s, Steady fun n => next n v s) (last : Value) (s : Session) :
    Agree (fun n => (evalBody n [] last s).andThen (next n)) fun n => next n last s :=
  Agree.andThen (steady_evalBody [] last s) (steady_const (.done last s)) hnext hnext
    (agree_evalBody_nil last s) fun _ _ => .refl _

/-- **A body in two parts.** -/
theorem agree_evalBody_append (fs gs : List Form) (last : Value) (s : Session) :
    Agree (fun n => evalBody n (fs ++ gs) last s)
      fun n => (evalBody n fs last s).andThen fun v s => evalBody n gs v s := by
  have hgs : ∀ v s, Steady fun n => evalBody n gs v s := steady_evalBody gs
  induction fs generalizing last s with
  | nil => exact (agree_evalBody_nil_andThen hgs last s).symm
  | cons f fs ih =>
    have hf := steady_eval f s
    have hfs : ∀ v s, Steady fun n => evalBody n fs v s := steady_evalBody fs
    -- the first form, then by induction the other forms of the first part
    refine (agree_evalBody_cons f (fs ++ gs) last s).trans ?_
    refine (Agree.andThen hf hf (fun v s => steady_evalBody (fs ++ gs) v s)
      (fun v s => (hfs v s).andThen hgs) (.refl _) fun v s => ih v s).trans ?_
    simp only [← andThen_assoc]
    exact (Agree.andThen (steady_evalBody (f :: fs) last s) (hf.andThen hfs) hgs hgs
      (agree_evalBody_cons f fs last s) fun _ _ => .refl _).symm

/-! ## Texts -/

/-- Evaluates texts one after another, up to the first that fails, to the value of the last one
that has a form, or to `last` if none has. -/
def evalSources (fuel : Nat) : List String → Value → Session → Outcome Value
  | [], last, s => .done last s
  | source :: sources, last, s =>
    (evalSource fuel source s).andThen fun v s =>
      evalSources fuel sources (if (formsOf source).isEmpty then last else v) s

theorem steady_evalSources (sources : List String) (last : Value) (s : Session) :
    Steady fun n => evalSources n sources last s := by
  induction sources generalizing last s with
  | nil => exact steady_const _
  | cons source sources ih => exact (steady_evalSource source s).andThen fun v s => ih _ s

/-- Texts one after another go on behind the first one, unless it fails. -/
theorem ends_evalSources_cons {source : String} {sources : List String} {last : Value} {s : Session}
    {o : Outcome Value} :
    Ends (fun n => evalSources n (source :: sources) last s) o ↔
      (∃ v s', Ends (fun n => evalSource n source s) (.done v s') ∧
        Ends (fun n => evalSources n sources (if (formsOf source).isEmpty then last else v) s') o) ∨
      ∃ e s', Ends (fun n => evalSource n source s) (.failed e s') ∧ o = .failed e s' :=
  ends_andThen (steady_evalSource source s) fun _ s => steady_evalSources sources _ s

theorem evalSource_eq {source : String} {fs : List Form} (h : readForms source = .ok fs) (n : Nat)
    (s : Session) : evalSource n source s = evalBody n fs .nil s := by
  rw [evalSource, h]
  rfl

/-- **Texts one after another** are evaluated like all of their forms in one body. -/
theorem agree_evalSources {sources : List String} (h : ∀ source ∈ sources, Readable source)
    (last : Value) (s : Session) :
    Agree (fun n => evalBody n (sources.flatMap formsOf) last s)
      fun n => evalSources n sources last s := by
  induction sources generalizing last s with
  | nil => exact agree_evalBody_nil last s
  | cons source sources ih =>
    have ih := ih fun s hs => h s (List.mem_cons_of_mem source hs)
    simp only [List.flatMap_cons, evalSources, evalSource_eq (h source (by simp)).eq]
    cases formsOf source with
    | nil =>
      exact (ih last s).trans
        (agree_evalBody_nil_andThen (fun _ s => steady_evalSources sources last s) .nil s).symm
    | cons f fs =>
      simp only [evalBody_last _ f fs .nil last]
      refine (agree_evalBody_append (f :: fs) _ last s).trans ?_
      have hfirst := steady_evalBody (f :: fs) last s
      exact Agree.andThen hfirst hfirst (fun v s => steady_evalBody _ v s)
        (fun v s => steady_evalSources sources v s) (.refl _) fun v s => ih v s

/-! ## Files -/

/-- The outcome without its value. -/
def Outcome.forget {α : Type} (o : Outcome α) : Outcome Unit := o.andThen fun _ s => .done () s

theorem ends_forget {α : Type} {run : Nat → Outcome α} {o : Outcome Unit} :
    Ends (fun n => (run n).forget) o ↔ ∃ o', Ends run o' ∧ o'.forget = o := by
  have hne : ∀ o : Outcome α, o.forget ≠ .exhausted ↔ o ≠ .exhausted := fun o => by
    cases o <;> simp [forget, Outcome.andThen]
  constructor
  · rintro ⟨h, n, rfl⟩
    exact ⟨run n, ⟨(hne _).1 h, n, rfl⟩, rfl⟩
  · rintro ⟨o', ⟨h, n, rfl⟩, rfl⟩
    exact ⟨(hne _).2 h, n, rfl⟩

/-- Files are loaded like their contents, one after another. -/
theorem loadFiles_eq {files : Files} {names sources : List String}
    (h : names.map files = sources.map .ok) (n : Nat) (last : Value) (s : Session) :
    loadFiles n files names s = (evalSources n sources last s).forget := by
  induction names generalizing sources last s with
  | nil =>
    obtain rfl := List.map_eq_nil_iff.1 h.symm
    rfl
  | cons name names ih =>
    obtain ⟨source, sources, rfl, hsource, hsources⟩ := List.map_eq_cons_iff.1 h.symm
    have hrun : runFile n files name s = evalSource n source s := by rw [runFile, ← hsource]
    simp only [loadFiles, evalSources, hrun]
    cases evalSource n source s with
    | done v s => exact ih hsources.symm _ s
    | failed e s => rfl
    | exhausted => rfl

/-! ## Joined texts -/

theorem readForms_intercalate {sources : List String} (h : ∀ source ∈ sources, Readable source) :
    readForms ("\n".intercalate sources) = .ok (sources.flatMap formsOf) := by
  rcases List.eq_nil_or_concat sources with rfl | ⟨init, last, rfl⟩
  · rw [String.intercalate_nil, readForms_eq]
    exact readFrom_eq_ok_iff.2 ⟨[], scan_nil 1, rfl⟩
  · rw [List.concat_eq_append] at h ⊢
    rw [readForms_joined (fun s hs => h s (by simp [hs])), (h last (by simp)).eq]
    simp [Except.map, Except.mapError]

/-- **Joined texts are evaluated one after another.** Readable texts joined by line ends have the
outcomes that they have one after another, and those of files with these contents but for the
value. If only the last text has an error, so has the joined text, with its lines counted from
the first text, and the session is as before. -/
theorem joined_sources (s : Session) :
    (∀ sources : List String, (∀ source ∈ sources, Readable source) → ∀ o,
        Ends (fun fuel => evalSource fuel ("\n".intercalate sources) s) o ↔
          Ends (fun fuel => evalSources fuel sources .nil s) o) ∧
      (∀ sources : List String, (∀ source ∈ sources, Readable source) →
        ∀ (files : Files) (names : List String), names.map files = sources.map .ok → ∀ o,
          Ends (fun fuel => loadFiles fuel files names s) o ↔
            ∃ o', Ends (fun fuel => evalSource fuel ("\n".intercalate sources) s) o' ∧ o'.forget = o) ∧
      ∀ (init : List String) (last : String) (e : Error), (∀ source ∈ init, Readable source) →
        readForms last = .error e → ∀ fuel,
          evalSource fuel ("\n".intercalate (init ++ [last])) s =
            .failed (e.shift ((textBefore init).toList.count '\n')) s := by
  have hjoined : ∀ sources : List String, (∀ source ∈ sources, Readable source) →
      Agree (fun fuel => evalSource fuel ("\n".intercalate sources) s)
        fun fuel => evalSources fuel sources .nil s := fun sources h => by
    simp only [evalSource_eq (readForms_intercalate h)]
    exact agree_evalSources h .nil s
  refine ⟨hjoined, fun sources h files names hfiles o => ?_, fun init last e h he fuel => ?_⟩
  · simp only [loadFiles_eq hfiles _ .nil s, ends_forget, hjoined sources h _]
  · rw [evalSource, readForms_joined h, he]
    rfl

end FlatLisp
