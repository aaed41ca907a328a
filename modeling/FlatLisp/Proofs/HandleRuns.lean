import FlatLisp.Proofs.Handles
import FlatLisp.Proofs.WriteTrace
import Mathlib.Logic.Relation

/-!
# Runs over many handles

Handles are made, cloned, written through, merged, and programs are evaluated through them, in any
order and number. The handles fall into classes: two are of one class if cloning leads from one to
the other. A log has all writes of a run, each with the handle that it was made through.

* `Handles.Action.effect`: **what an action does**: it makes a handle, or it writes through one.
* `Handles.Sound.step`: **what an action keeps**; an environment is what the writes through its
  handles make of the empty one.
* `Handles.Sound.same_iff`: two handles stand for one environment exactly when they are of one class.
* `Handles.reflects_writes`: **handles reflect the last writes of their class, and nothing else.**
-/

namespace FlatLisp

namespace Handles

variable {hs : Handles} {h k c : Nat}

/-! ## Actions -/

/-- What is done with handles. They are numbered in the order in which they are made. -/
inductive Action where
  | new
  | clone (h : Nat)
  | define (h : Nat) (name : String) (v : Value)
  | merge (h source : Nat)
  | register (h : Nat) (bs : List Builtin)
  | eval (h fuel : Nat) (source : String) (stamp : Nat)

/-- A write through a handle. -/
abbrev Write := Nat × String × Value

namespace Action

/-- The handles after an action. -/
def perform (hs : Handles) : Action → Handles
  | .new => hs.add .empty
  | .clone h => hs.share h
  | .define h name v => hs.define h name v
  | .merge h source => hs.merge h source
  | .register h bs => hs.register h bs
  | .eval h fuel source stamp => (hs.eval h fuel source stamp).2

/-- The handles that an action names. -/
def named : Action → List Nat
  | .new => []
  | .clone h | .define h _ _ | .register h _ | .eval h _ _ _ => [h]
  | .merge h source => [h, source]

/-- The handle that an action writes through. -/
def target? : Action → Option Nat
  | .new | .clone _ => none
  | .define h _ _ | .merge h _ | .register h _ | .eval h _ _ _ => some h

/-- The action makes a handle. -/
def makes : Action → Bool
  | .new | .clone _ => true
  | _ => false

/-- An evaluation has an end, and has the fuel for it. -/
def Ends (hs : Handles) : Action → Prop
  | .eval h fuel source stamp => (hs.eval h fuel source stamp).1 ≠ .exhausted
  | _ => True

/-- The handles are there, and the action ends. -/
structure Allowed (hs : Handles) (a : Action) : Prop where
  named : ∀ h ∈ a.named, hs.Has h
  ends : a.Ends hs

/-- What an action writes, in order. A merge copies the bindings of another environment in any
order, and nothing from an environment to itself. -/
inductive Writes (hs : Handles) : Action → List Write → Prop
  | new : Writes hs .new []
  | clone (h : Nat) : Writes hs (.clone h) []
  | define (h : Nat) (name : String) (v : Value) : Writes hs (.define h name v) [(h, name, v)]
  | merge {h source : Nat} {ws : List (String × Value)} : ¬ hs.Same h source →
    ws.Perm (hs.get source).bindings → Writes hs (.merge h source) (ws.map (Prod.mk h))
  | mergeSelf {h source : Nat} : hs.Same h source → Writes hs (.merge h source) []
  | register (h : Nat) (bs : List Builtin) :
    Writes hs (.register h bs) (bs.map fun b => (h, b.name, .builtin b))
  | eval {h fuel : Nat} {source : String} {stamp : Nat} {ws : List (String × Value)} {s : Session} :
    SourceStores source ⟨hs.get h, "", stamp⟩ ws s →
    Writes hs (.eval h fuel source stamp) (ws.map (Prod.mk h))

/-- What an action does to the handles, with the writes that it makes. -/
inductive Effect (hs : Handles) (a : Action) : List Write → Handles → Prop
  | made : a = .new → Effect hs a [] (hs.add .empty)
  | cloned {h : Nat} : a = .clone h → hs.Has h → Effect hs a [] (hs.share h)
  | wrote {h : Nat} (ws : List (String × Value)) : a.target? = some h → a.makes = false → hs.Has h →
    Effect hs a (ws.map (Prod.mk h)) (hs.set h ((hs.get h).defineAll ws))

variable {a : Action} {us : List Write}

/-- An evaluation that ends leaves the environment that its writes make. -/
theorem exists_eval {h fuel : Nat} {source : String} {stamp : Nat}
    (hends : Ends hs (.eval h fuel source stamp)) : ∃ ws s,
      SourceStores source ⟨hs.get h, "", stamp⟩ ws s ∧
        (hs.eval h fuel source stamp).2 = hs.set h s.env := by
  simp only [Ends, Handles.eval] at hends ⊢
  cases ho : evalSource fuel source ⟨hs.get h, "", stamp⟩ with
  | done v s =>
    obtain ⟨ws, hws⟩ := exists_sourceStores (congrArg Outcome.session? ho)
    exact ⟨ws, s, hws, rfl⟩
  | failed e s =>
    obtain ⟨ws, hws⟩ := exists_sourceStores (congrArg Outcome.session? ho)
    exact ⟨ws, s, hws, rfl⟩
  | exhausted => exact absurd ho hends

/-- An action that ends has made its writes. -/
theorem Allowed.exists_writes (ha : a.Allowed hs) : ∃ us, a.Writes hs us := by
  cases a with
  | new => exact ⟨_, .new⟩
  | clone h => exact ⟨_, .clone h⟩
  | define h name v => exact ⟨_, .define h name v⟩
  | merge h source =>
    by_cases hsame : hs.Same h source
    · exact ⟨_, .mergeSelf hsame⟩
    · exact ⟨_, .merge hsame (.refl _)⟩
  | register h bs => exact ⟨_, .register h bs⟩
  | eval h fuel source stamp =>
    obtain ⟨ws, s, hws, -⟩ := exists_eval ha.ends
    exact ⟨_, .eval hws⟩

theorem Allowed.has_target (ha : a.Allowed hs) (htarget : a.target? = some h) : hs.Has h := by
  refine ha.named h ?_
  cases a <;> simp only [target?, Option.some.injEq, reduceCtorEq] at htarget <;>
    simp [Action.named, htarget]

/-- **What an action does**: it makes a handle, or it writes through one. -/
theorem effect (ha : a.Allowed hs) (hw : a.Writes hs us) : a.Effect hs us (a.perform hs) := by
  cases hw with
  | new => exact .made rfl
  | clone h => exact .cloned rfl (ha.named h (by simp [named]))
  | define h name v => exact .wrote [(name, v)] rfl rfl (ha.has_target rfl)
  | @merge h source ws hsame hws =>
    have heffect : Effect hs (.merge h source) _ _ := .wrote ws rfl rfl (ha.has_target rfl)
    rwa [Environment.defineAll_eq_merge hws, ← merge_eq_set] at heffect
  | @mergeSelf h source hsame =>
    have heffect : Effect hs (.merge h source) _ _ := .wrote [] rfl rfl (ha.has_target rfl)
    have hnone : hs.set h ((hs.get h).defineAll []) = hs.merge h source := by
      rw [merge_of_same hsame]
      exact set_get_self hs h
    rwa [hnone] at heffect
  | register h bs =>
    have heffect : Effect hs (.register h bs) _ _ :=
      .wrote (bs.map fun b => (b.name, .builtin b)) rfl rfl (ha.has_target rfl)
    rwa [List.map_map] at heffect
  | @eval h fuel source stamp ws s hws =>
    obtain ⟨ws', s', hws', hs'⟩ := exists_eval ha.ends
    obtain ⟨-, rfl⟩ := hws.unique hws'
    have heffect : Effect hs (.eval h fuel source stamp) _ _ :=
      .wrote ws rfl rfl (ha.has_target rfl)
    rw [← hws.env_eq, ← hs'] at heffect
    exact heffect

end Action

/-! ## Runs -/

/-- How many handles the actions make. -/
def made (as : List Action) : Nat := as.countP Action.makes

/-- One of the actions makes `k` as a clone of `h`. -/
def ClonedFrom (as : List Action) (h k : Nat) : Prop :=
  ∃ before behind, as = before ++ .clone h :: behind ∧ k = made before

/-- Cloning leads from one handle to the other. -/
def SameClass (as : List Action) : Nat → Nat → Prop := Relation.EqvGen (ClonedFrom as)

/-- From no handles, the actions lead to these, and make the writes of the log, in order. -/
inductive Run : List Action → List Write → Handles → Prop
  | start : Run [] [] .empty
  | step {as : List Action} {log us : List Write} {hs : Handles} {a : Action} : Run as log hs →
    a.Allowed hs → a.Writes hs us → Run (as ++ [a]) (log ++ us) (a.perform hs)

variable {as : List Action} {log : List Write} {a : Action} {us : List Write} {hs' : Handles}

theorem made_append (as : List Action) (a : Action) :
    made (as ++ [a]) = made as + if a.makes then 1 else 0 := by
  simp [made, List.countP_append, List.countP_singleton]

/-- The clones of a longer run. -/
theorem clonedFrom_append : ClonedFrom (as ++ [a]) h k ↔
    ClonedFrom as h k ∨ a = .clone h ∧ k = made as := by
  constructor
  · rintro ⟨before, behind, has, hk⟩
    rcases List.eq_nil_or_concat behind with rfl | ⟨behind, b, rfl⟩
    · obtain ⟨rfl, hab⟩ := List.append_inj' has rfl
      exact .inr ⟨by simpa using hab, hk⟩
    · rw [List.concat_eq_append, ← List.cons_append, ← List.append_assoc] at has
      obtain ⟨rfl, -⟩ := List.append_inj' has rfl
      exact .inl ⟨before, behind, rfl, hk⟩
  · rintro (⟨before, behind, rfl, hk⟩ | ⟨rfl, hk⟩)
    · exact ⟨before, behind ++ [a], by simp, hk⟩
    · exact ⟨as, [], rfl, hk⟩

theorem SameClass.append (hhk : SameClass as h k) (a : Action) : SameClass (as ++ [a]) h k :=
  Relation.EqvGen.mono (fun _ _ hclone => clonedFrom_append.2 (.inl hclone)) h k hhk

/-! ## What a run keeps -/

/-- The writes that were made through handles which stand for one environment with `h`. -/
def through (hs : Handles) (h : Nat) (log : List Write) : List (String × Value) :=
  (log.filter fun w => hs.Same w.1 h).map Prod.snd

theorem mem_through {b : String × Value} :
    b ∈ hs.through h log ↔ ∃ w ∈ log, hs.Same w.1 h ∧ w.2 = b := by
  simp only [through, List.mem_map, List.mem_filter, decide_eq_true_eq, and_assoc]

theorem through_set (h k : Nat) (e : Environment) (log : List Write) :
    (hs.set h e).through k log = hs.through k log := by
  simp only [through, same_set]

theorem through_write (hs : Handles) (h k : Nat) (log : List Write) (ws : List (String × Value)) :
    hs.through k (log ++ ws.map (Prod.mk h)) =
      hs.through k log ++ if hs.Same h k then ws else [] := by
  rw [through, List.filter_append, List.map_append, List.filter_map, List.map_map]
  congr 1
  split <;> next hsame => simp [Function.comp_def, hsame]

/-- What holds of the handles in a run. -/
structure Sound (as : List Action) (log : List Write) (hs : Handles) : Prop where
  wellFormed : hs.WellFormed
  size : hs.owner.size = made as
  clones : ∀ h k, ClonedFrom as h k → hs.Has h ∧ hs.Has k ∧ hs.Same h k
  classes : ∀ h k, hs.Has h → hs.Has k → hs.Same h k → SameClass as h k
  logged : ∀ w ∈ log, hs.Has w.1
  bindings : ∀ h, hs.Has h → hs.get h = Environment.empty.defineAll (hs.through h log)

namespace Sound

theorem start : Sound [] [] .empty where
  wellFormed := by simp [WellFormed, Handles.empty]
  size := rfl
  clones := by
    rintro h k ⟨before, behind, has, -⟩
    simp at has
  classes := by simp [Has, Handles.empty]
  logged := by simp
  bindings := by simp [Has, Handles.empty]

/-- A further handle takes nothing from what was written through the others. -/
theorem through_push (hsound : Sound as log hs) (hpush : hs'.owner = hs.owner.push c)
    (hh : hs.Has h) : hs'.through h log = hs.through h log := by
  refine congrArg (List.map Prod.snd) (List.filter_congr fun w hw => ?_)
  rw [decide_eq_decide]
  exact same_push hpush (hsound.logged w hw) hh

theorem logged_push (hsound : Sound as log hs) (hpush : hs'.owner = hs.owner.push c) :
    ∀ w ∈ log, hs'.Has w.1 := fun w hw => (has_push hpush).2 (.inl (hsound.logged w hw))

theorem clones_push (hsound : Sound as log hs) (hpush : hs'.owner = hs.owner.push c)
    (hhk : ClonedFrom as h k) : hs'.Has h ∧ hs'.Has k ∧ hs'.Same h k := by
  obtain ⟨hh, hk, hsame⟩ := hsound.clones h k hhk
  exact ⟨(has_push hpush).2 (.inl hh), (has_push hpush).2 (.inl hk), (same_push hpush hh hk).2 hsame⟩

/-- A new handle is in a class of its own, through which nothing was written. -/
theorem new (hsound : Sound as log hs) : Sound (as ++ [.new]) log (hs.add .empty) where
  wellFormed := hsound.wellFormed.add .empty
  size := by simp [owner_add, made_append, Action.makes, hsound.size]
  clones := by
    intro h k hhk
    rcases clonedFrom_append.1 hhk with hhk | ⟨hnew, -⟩
    · exact hsound.clones_push (owner_add hs _) hhk
    · exact absurd hnew (by simp)
  classes := by
    intro h k hh hk hsame
    rcases (has_push (owner_add hs _)).1 hh with hh | rfl <;>
      rcases (has_push (owner_add hs _)).1 hk with hk | rfl
    · exact (hsound.classes h k hh hk ((same_push (owner_add hs _) hh hk).1 hsame)).append _
    · exact absurd hsame.symm (not_same_add hsound.wellFormed hh _)
    · exact absurd hsame (not_same_add hsound.wellFormed hk _)
    · exact .refl _
  logged := hsound.logged_push (owner_add hs _)
  bindings := by
    intro h hh
    rw [get_add hsound.wellFormed]
    rcases (has_push (owner_add hs _)).1 hh with hh | rfl
    · rw [if_neg (Nat.ne_of_lt hh), hsound.bindings h hh, hsound.through_push (owner_add hs _) hh]
    · have hnone : (hs.add .empty).through hs.owner.size log = [] := by
        simp only [through, List.map_eq_nil_iff, List.filter_eq_nil_iff, decide_eq_true_eq]
        exact fun w hw hsame => not_same_add hsound.wellFormed (hsound.logged w hw) _ hsame.symm
      rw [if_pos rfl, hnone]
      rfl

/-- A clone is of the class of the handle that it was made from. -/
theorem clone (hsound : Sound as log hs) (hh : hs.Has h) :
    Sound (as ++ [.clone h]) log (hs.share h) := by
  obtain ⟨c, hc⟩ := hh.exists_owner
  have hpush := owner_share hc
  have hnew : (hs.share h).Has hs.owner.size := (has_push hpush).2 (.inr rfl)
  have hcloned : (hs.share h).Same h hs.owner.size := by
    rw [Same, owner_push hpush hh, hc, hpush, Array.getElem?_push_size]
  have hclass : SameClass (as ++ [.clone h]) h hs.owner.size :=
    .rel _ _ (clonedFrom_append.2 (.inr ⟨rfl, hsound.size⟩))
  -- every handle is of one class with an old one
  have hold : ∀ k, (hs.share h).Has k → ∃ l, hs.Has l ∧ (hs.share h).Same l k ∧
      SameClass (as ++ [.clone h]) l k := by
    intro k hk
    rcases (has_push hpush).1 hk with hk | rfl
    · exact ⟨k, hk, .refl _ k, .refl k⟩
    · exact ⟨h, hh, hcloned, hclass⟩
  refine ⟨hsound.wellFormed.share hh, ?_, ?_, ?_, hsound.logged_push hpush, ?_⟩
  · simp [hpush, made_append, Action.makes, hsound.size]
  · intro g k hgk
    rcases clonedFrom_append.1 hgk with hgk | ⟨heq, rfl⟩
    · exact hsound.clones_push hpush hgk
    · obtain rfl : h = g := by simpa using heq
      rw [← hsound.size]
      exact ⟨(has_push hpush).2 (.inl hh), hnew, hcloned⟩
  · intro g k hg hk hsame
    obtain ⟨g', hg', hsameg, hclassg⟩ := hold g hg
    obtain ⟨k', hk', hsamek, hclassk⟩ := hold k hk
    have hsame' := (same_push hpush hg' hk').1 ((hsameg.trans hsame).trans hsamek.symm)
    exact (hclassg.symm.trans _ _ _ ((hsound.classes g' k' hg' hk' hsame').append _)).trans _ _ _ hclassk
  · intro k hk
    obtain ⟨l, hl, hsame, -⟩ := hold k hk
    have hthrough : (hs.share h).through k log = (hs.share h).through l log := by
      refine congrArg (List.map Prod.snd) (List.filter_congr fun w hw => ?_)
      rw [decide_eq_decide, Same, Same, hsame]
    rw [← hsame.get_eq, get_share hh, if_neg (Nat.ne_of_lt hl), hsound.bindings l hl, hthrough,
      hsound.through_push hpush hl]

/-- Writes through a handle are seen through its class, and through no other. -/
theorem write (hsound : Sound as log hs) (ha : a.makes = false) (hh : hs.Has h)
    (ws : List (String × Value)) : Sound (as ++ [a]) (log ++ ws.map (Prod.mk h))
      (hs.set h ((hs.get h).defineAll ws)) where
  wellFormed := hsound.wellFormed.set h _
  size := by simp [made_append, ha, hsound.size]
  clones := by
    intro g k hgk
    rw [has_set, has_set, same_set]
    rcases clonedFrom_append.1 hgk with hgk | ⟨rfl, -⟩
    · exact hsound.clones g k hgk
    · exact absurd ha (by simp [Action.makes])
  classes := by
    intro g k hg hk hsame
    exact (hsound.classes g k (has_set.1 hg) (has_set.1 hk) (same_set.1 hsame)).append a
  logged := by
    intro w hw
    rw [has_set]
    rcases List.mem_append.1 hw with hw | hw
    · exact hsound.logged w hw
    · obtain ⟨b, -, rfl⟩ := List.mem_map.1 hw
      exact hh
  bindings := by
    intro k hk
    have hk := has_set.1 hk
    rw [get_set hsound.wellFormed hh]
    rw [through_set, through_write, Environment.defineAll_append, ← hsound.bindings k hk]
    split
    · next hsame => rw [hsame.get_eq]
    · rfl

/-- **What an action keeps.** -/
theorem step (hsound : Sound as log hs) (ha : a.Allowed hs) (hw : a.Writes hs us) :
    Sound (as ++ [a]) (log ++ us) (a.perform hs) := by
  have heffect := Action.effect ha hw
  generalize a.perform hs = hs' at heffect ⊢
  cases heffect with
  | made heq =>
    subst heq
    rw [List.append_nil]
    exact hsound.new
  | cloned heq hh =>
    subst heq
    rw [List.append_nil]
    exact hsound.clone hh
  | wrote ws htarget hmakes hh => exact hsound.write hmakes hh ws

end Sound

/-- **What a run keeps.** -/
theorem Run.sound (hrun : Run as log hs) : Sound as log hs := by
  induction hrun with
  | start => exact .start
  | step _ ha hw ih => exact ih.step ha hw

/-- **Two handles stand for one environment exactly when they are of one class.** -/
theorem Sound.same_iff (hsound : Sound as log hs) (hh : hs.Has h) (hk : hs.Has k) :
    hs.Same h k ↔ SameClass as h k := by
  refine ⟨hsound.classes h k hh hk, fun hclass => ?_⟩
  clear hh hk
  induction hclass with
  | rel h k hclone => exact (hsound.clones h k hclone).2.2
  | refl h => exact .refl hs h
  | symm h k _ ih => exact ih.symm
  | trans h k l _ _ ih ih' => exact ih.trans ih'

/-! ## What is seen through a handle -/

/-- The last write of the name through the class of the handle gives it the value. -/
def LastThrough (as : List Action) (h : Nat) (log : List Write) (name : String) (v : Value) : Prop :=
  ∃ before k behind, log = before ++ (k, name, v) :: behind ∧ SameClass as k h ∧
    ∀ w ∈ behind, SameClass as w.1 h → w.2.1 ≠ name

/-- The handle shows the last writes of its class. -/
structure Reflects (as : List Action) (log : List Write) (hs : Handles) (h : Nat) : Prop where
  find : ∀ name v, (hs.get h).find? name = some v ↔ LastThrough as h log name v
  contains : ∀ name, (hs.get h).contains name = true ↔
    ∃ w ∈ log, SameClass as w.1 h ∧ w.2.1 = name
  members : ∀ name, name ∈ (hs.get h).names ↔ ∃ w ∈ log, SameClass as w.1 h ∧ w.2.1 = name
  nodup : (hs.get h).names.Nodup

/-- The last of the writes that were made through one environment, in the log. -/
theorem lastWrite_through {name : String} {v : Value} :
    LastWrite (hs.through h log) name v ↔ ∃ before k behind, log = before ++ (k, name, v) :: behind ∧
      hs.Same k h ∧ ∀ w ∈ behind, hs.Same w.1 h → w.2.1 ≠ name := by
  constructor
  · rintro ⟨before, behind, hthrough, hlast⟩
    obtain ⟨before', rest, hfilter, -, hrest⟩ := List.map_eq_append_iff.1 hthrough
    obtain ⟨⟨k, name', v'⟩, behind', rfl, hw, rfl⟩ := List.map_eq_cons_iff.1 hrest
    obtain ⟨log', rest', rfl, -, hrest'⟩ := List.filter_eq_append_iff.1 hfilter
    obtain ⟨skipped, behind'', rfl, -, hk, rfl⟩ := List.filter_eq_cons_iff.1 hrest'
    obtain ⟨rfl, rfl⟩ := Prod.mk.inj hw
    refine ⟨log' ++ skipped, k, behind'', by simp, of_decide_eq_true hk, fun w hw hsame => ?_⟩
    exact hlast w.2 (mem_through.2 ⟨w, hw, hsame, rfl⟩)
  · rintro ⟨before, k, behind, rfl, hsame, hlast⟩
    refine ⟨hs.through h before, hs.through h behind, by simp [through, hsame], fun b hb => ?_⟩
    obtain ⟨w, hw, hsame', rfl⟩ := mem_through.1 hb
    exact hlast w hw hsame'

theorem Sound.reflects (hsound : Sound as log hs) (hh : hs.Has h) : Reflects as log hs h := by
  have hclass : ∀ w ∈ log, hs.Same w.1 h ↔ SameClass as w.1 h :=
    fun w hw => hsound.same_iff (hsound.logged w hw) hh
  have hwritten : ∀ name, ((hs.get h).find? name).isSome ↔
      ∃ w ∈ log, SameClass as w.1 h ∧ w.2.1 = name := by
    intro name
    rw [hsound.bindings h hh, Environment.isSome_defineAll_iff, Environment.find?_empty]
    constructor
    · rintro (hmem | hnone)
      · obtain ⟨b, hb, rfl⟩ := List.mem_map.1 hmem
        obtain ⟨w, hw, hsame, rfl⟩ := mem_through.1 hb
        exact ⟨w, hw, (hclass w hw).1 hsame, rfl⟩
      · exact absurd hnone (by simp)
    · rintro ⟨w, hw, hsame, rfl⟩
      exact .inl (List.mem_map_of_mem (mem_through.2 ⟨w, hw, (hclass w hw).2 hsame, rfl⟩))
  refine ⟨fun name v => ?_, fun name => ?_, fun name => ?_, Environment.nodup_names _⟩
  · rw [hsound.bindings h hh, Environment.find?_defineAll_iff, Environment.find?_empty,
      lastWrite_through]
    constructor
    · rintro (⟨before, k, behind, rfl, hsame, hlast⟩ | ⟨-, hnone⟩)
      · refine ⟨before, k, behind, rfl, (hclass (k, name, v) (by simp)).1 hsame, fun w hw hwh => ?_⟩
        exact hlast w hw ((hclass w (by simp [hw])).2 hwh)
      · exact absurd hnone (by simp)
    · rintro ⟨before, k, behind, rfl, hsame, hlast⟩
      refine .inl ⟨before, k, behind, rfl, (hclass (k, name, v) (by simp)).2 hsame, fun w hw hwh => ?_⟩
      exact hlast w hw ((hclass w (by simp [hw])).1 hwh)
  · rw [Environment.contains_eq, hwritten]
  · rw [Environment.mem_names, hwritten]

/-- **An action changes nothing outside the class that it writes to.** -/
theorem Sound.get_perform (hsound : Sound as log hs) (ha : a.Allowed hs) (hk : hs.Has k)
    (hother : ∀ h, a.target? = some h → ¬ SameClass as h k) : (a.perform hs).get k = hs.get k := by
  obtain ⟨us, hw⟩ := ha.exists_writes
  have heffect := Action.effect ha hw
  generalize a.perform hs = hs' at heffect ⊢
  cases heffect with
  | made _ => rw [get_add hsound.wellFormed, if_neg (Nat.ne_of_lt hk)]
  | cloned _ hh => rw [get_share hh, if_neg (Nat.ne_of_lt hk)]
  | wrote ws htarget _ hh =>
    have hne := mt (hsound.same_iff hh hk).1 (hother _ htarget)
    exact get_set_of_not_same hsound.wellFormed hh hne

/-! ## The main result -/

/-- **Handles reflect the last writes of their class, and nothing else.** Cloning makes the classes,
and two handles stand for one environment exactly when they are of one class. Through a handle one
sees the last write to each name that was made through its class, and no other name. Every action
that ends has its writes, and changes nothing for the other classes. Merging is the union in which
the source wins, with its laws. -/
theorem reflects_writes (hrun : Run as log hs) :
    (∀ h k, hs.Has h → hs.Has k → (hs.Same h k ↔ SameClass as h k)) ∧
      (∀ h, hs.Has h → Reflects as log hs h) ∧
      (∀ a : Action, a.Allowed hs → (∃ us, a.Writes hs us) ∧
        ∀ k, hs.Has k → (∀ h, a.target? = some h → ¬ SameClass as h k) →
          (a.perform hs).get k = hs.get k) ∧
      ∀ h f, hs.Has h → hs.Has f → MergeLaws hs h f :=
  have hsound := hrun.sound
  ⟨fun _ _ => hsound.same_iff, fun _ => hsound.reflects,
    fun _ ha => ⟨ha.exists_writes, fun _ => hsound.get_perform ha⟩,
    fun _ _ => merge_laws hsound.wellFormed⟩

section Merged

/-- A function without parameters and body. -/
def idle : Value := .procedure ⟨"f", [], []⟩

/-- Two handles of one class, and one of another between them. -/
def three (e : Environment) : Handles := ⟨#[0, 1, 0], #[e, .empty]⟩

theorem run_three : Run [.new, .new, .clone 0] [] (three .empty) := by
  have hone := Run.start.step (a := .new) ⟨by decide, trivial⟩ .new
  have htwo := hone.step (a := .new) ⟨by decide, trivial⟩ .new
  exact htwo.step (a := .clone 0) ⟨by decide, trivial⟩ (.clone 0)

/-- A program defines a function through the clone. -/
theorem run_evaluated : Run [.new, .new, .clone 0, .eval 2 4 "(defn f ())" 0] [(2, "f", idle)]
    (three (Environment.empty.define "f" idle)) := by
  have hread : readForms "(defn f ())" = .ok [.define "f" [] []] := by
    have hcut : Lexeme.cut 1 "(defn f ())".toList = .ok [(1, .leftParen), (1, .word "defn"),
        (1, .word "f"), (1, .leftParen), (1, .rightParen), (1, .rightParen)] := by cbv
    rw [readForms, tokenize, hcut]
    rfl
  have heval : (three .empty).eval 2 4 "(defn f ())" 0 =
      (.done .nil ⟨Environment.empty.define "f" idle, "", 0⟩,
        three (Environment.empty.define "f" idle)) := by
    simp only [Handles.eval, evalSource, hread]
    rfl
  have hstores : SourceStores "(defn f ())" ⟨(three .empty).get 2, "", 0⟩ [("f", idle)]
      ⟨Environment.empty.define "f" idle, "", 0⟩ :=
    .run hread (.step rfl (.step rfl (.step rfl (.refl _)))) rfl
  have hends : (Action.eval 2 4 "(defn f ())" 0).Ends (three .empty) := by
    simp only [Action.Ends, heval]
    simp
  have hstep := run_three.step ⟨by decide, hends⟩ (.eval hstores)
  rw [Action.perform, heval] at hstep
  exact hstep

/-- The class of the clone is then merged into the other one, over a binding there. -/
theorem reflects_writes_merged :
    ∃ hs, Run [.new, .new, .clone 0, .eval 2 4 "(defn f ())" 0, .define 1 "f" .nil, .merge 1 2]
        [(2, "f", idle), (1, "f", .nil), (1, "f", idle)] hs ∧
      hs.Has 0 ∧ hs.Has 1 ∧ hs.Same 0 2 ∧ ¬ hs.Same 1 0 ∧ (hs.get 0).find? "f" = some idle ∧
      (hs.get 1).find? "f" = some idle := by
  have hdefined := run_evaluated.step (a := .define 1 "f" .nil) ⟨by decide, trivial⟩
    (.define _ _ _)
  have hmerge : Action.Writes ((three (Environment.empty.define "f" idle)).define 1 "f" .nil)
      (.merge 1 2) ([("f", idle)].map (Prod.mk 1)) := .merge (by decide) (.of_eq rfl)
  have hmerged : Run [.new, .new, .clone 0, .eval 2 4 "(defn f ())" 0, .define 1 "f" .nil, .merge 1 2]
      [(2, "f", idle), (1, "f", .nil), (1, "f", idle)]
      (((three (Environment.empty.define "f" idle)).define 1 "f" .nil).merge 1 2) :=
    hdefined.step ⟨by decide, trivial⟩ hmerge
  obtain ⟨hclasses, hreflects, -⟩ := reflects_writes hmerged
  have hclone := (hclasses 2 0 (by decide) (by decide)).1 rfl
  have hother := mt (hclasses 1 0 (by decide) (by decide)).2 (by decide)
  have hzero := ((hreflects 0 (by decide)).find "f" idle).2
    ⟨[], 2, [(1, "f", .nil), (1, "f", idle)], rfl, hclone, by simp [hother]⟩
  have hone := ((hreflects 1 (by decide)).find "f" idle).2
    ⟨[(2, "f", idle), (1, "f", .nil)], 1, [], rfl, .refl 1, by simp⟩
  exact ⟨_, hmerged, by decide, by decide, rfl, by decide, hzero, hone⟩

end Merged

end Handles

end FlatLisp
