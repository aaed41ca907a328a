import FlatLisp.Environment.Handles
import FlatLisp.Proofs.LastWrite

/-!
# Handles that share environments

A handle stands for an environment, and others may stand for the same one. What is seen through a
handle changes when an environment is replaced through a handle that stands for the same one, and
only then (`Handles.get_set`).

* `Handles.merge_eq_set`: the writes of a merge come to the union of two environments.
* `Handles.merge_laws`: **merging is the union in which the source wins**.
-/

namespace FlatLisp

namespace Handles

/-! ## Handles and environments -/

variable {hs : Handles} {h k c : Nat} {e : Environment}

/-- The handle was made. -/
def Has (hs : Handles) (h : Nat) : Prop := h < hs.owner.size

instance (hs : Handles) (h : Nat) : Decidable (hs.Has h) := inferInstanceAs (Decidable (_ < _))

/-- Both handles stand for one environment. -/
def Same (hs : Handles) (h k : Nat) : Prop := hs.owner[h]? = hs.owner[k]?

instance (hs : Handles) (h k : Nat) : Decidable (hs.Same h k) := inferInstanceAs (Decidable (_ = _))

/-- Every handle stands for an environment that there is. -/
def WellFormed (hs : Handles) : Prop := ∀ h c : Nat, hs.owner[h]? = some c → c < hs.environments.size

theorem Has.exists_owner (hh : hs.Has h) : ∃ c, hs.owner[h]? = some c :=
  ⟨_, Array.getElem?_eq_getElem hh⟩

theorem get_of_owner (hc : hs.owner[h]? = some c) : hs.get h = (hs.environments[c]?).getD .empty := by
  simp [get, hc]

theorem Same.refl (hs : Handles) (h : Nat) : hs.Same h h := Eq.refl _

theorem Same.get_eq (hhk : hs.Same h k) : hs.get h = hs.get k := by
  rw [get, get, hhk]

@[simp]
theorem owner_set (hs : Handles) (h : Nat) (e : Environment) : (hs.set h e).owner = hs.owner := by
  unfold set
  split <;> rfl

@[simp]
theorem same_set : (hs.set h e).Same k c ↔ hs.Same k c := by
  simp only [Same, owner_set]

@[simp]
theorem has_set : (hs.set h e).Has k ↔ hs.Has k := by
  simp only [Has, owner_set]

theorem size_set (hs : Handles) (h : Nat) (e : Environment) :
    (hs.set h e).environments.size = hs.environments.size := by
  unfold set
  split <;> simp

theorem WellFormed.set (hwf : hs.WellFormed) (h : Nat) (e : Environment) :
    (hs.set h e).WellFormed := by
  intro k c hc
  rw [owner_set] at hc
  rw [size_set]
  exact hwf k c hc

/-- An environment is replaced for all handles that stand for it, and for no others. -/
theorem get_set (hwf : hs.WellFormed) (hh : hs.Has h) (e : Environment) (k : Nat) :
    (hs.set h e).get k = if hs.Same h k then e else hs.get k := by
  obtain ⟨c, hc⟩ := hh.exists_owner
  have hbound := hwf h c hc
  simp only [Handles.set, get, Same, hc]
  cases hk : hs.owner[k]? with
  | none => simp
  | some d =>
    by_cases hcd : c = d
    · subst hcd
      simp [hbound]
    · simp [hcd]

theorem get_set_of_not_same (hwf : hs.WellFormed) (hh : hs.Has h) (hk : ¬ hs.Same h k) :
    (hs.set h e).get k = hs.get k := by
  rw [get_set hwf hh, if_neg hk]

theorem set_of_owner (hc : hs.owner[h]? = some c) (e : Environment) :
    hs.set h e = { hs with environments := hs.environments.setIfInBounds c e } := by
  simp only [Handles.set, hc]

theorem set_of_none (hc : hs.owner[h]? = none) (e : Environment) : hs.set h e = hs := by
  simp only [Handles.set, hc]

theorem set_get_self (hs : Handles) (h : Nat) : hs.set h (hs.get h) = hs := by
  cases hc : hs.owner[h]? with
  | none => exact set_of_none hc _
  | some c =>
    have hself : hs.environments.setIfInBounds c (hs.get h) = hs.environments := by
      refine Array.ext_getElem? fun i => ?_
      rw [get_of_owner hc, Array.getElem?_setIfInBounds]
      split
      · next hci =>
        subst hci
        by_cases hbound : c < hs.environments.size <;> simp [hbound]
      · rfl
    rw [set_of_owner hc, hself]

theorem set_set (hs : Handles) (h : Nat) (e e' : Environment) :
    (hs.set h e).set h e' = hs.set h e' := by
  cases hc : hs.owner[h]? with
  | none => rw [set_of_none hc]
  | some c =>
    have hc' : (hs.set h e).owner[h]? = some c := by rw [owner_set, hc]
    rw [set_of_owner hc', set_of_owner hc, set_of_owner hc, Array.setIfInBounds_setIfInBounds]

theorem get_add (hwf : hs.WellFormed) (e : Environment) (k : Nat) :
    (hs.add e).get k = if k = hs.owner.size then e else hs.get k := by
  by_cases hk : k = hs.owner.size
  · simp [get, add, hk]
  · rw [if_neg hk]
    simp only [get, add, Array.getElem?_push, if_neg hk]
    cases hc : hs.owner[k]? with
    | none => rfl
    | some c =>
      have hbound := hwf k c hc
      simp [Nat.ne_of_lt hbound]

theorem get_share (hh : hs.Has h) (k : Nat) :
    (hs.share h).get k = if k = hs.owner.size then hs.get h else hs.get k := by
  obtain ⟨c, hc⟩ := hh.exists_owner
  by_cases hk : k = hs.owner.size
  · simp [get, share, hc, hk]
  · simp [get, share, hc, hk, Array.getElem?_push]

theorem WellFormed.add (hwf : hs.WellFormed) (e : Environment) : (hs.add e).WellFormed := by
  intro k c hc
  simp only [Handles.add, Array.getElem?_push, Array.size_push] at hc ⊢
  split at hc
  · have := Option.some.inj hc
    omega
  · have := hwf k c hc
    omega

theorem WellFormed.share (hwf : hs.WellFormed) (hh : hs.Has h) : (hs.share h).WellFormed := by
  obtain ⟨d, hd⟩ := hh.exists_owner
  intro k c hc
  simp only [Handles.share, hd, Array.getElem?_push] at hc ⊢
  split at hc
  · obtain rfl := Option.some.inj hc
    exact hwf h d hd
  · exact hwf k c hc

/-! ## Merging -/

variable {f g m : Nat}

/-- What is written through a handle is seen through it, or is not kept at all. -/
theorem get_set_self (hs : Handles) (h : Nat) :
    (∀ e, hs.set h e = hs) ∨ ∀ e, (hs.set h e).get h = e := by
  cases hc : hs.owner[h]? with
  | none => exact .inl fun e => set_of_none hc e
  | some c =>
    by_cases hbound : c < hs.environments.size
    · refine .inr fun e => ?_
      have hc' : (hs.set h e).owner[h]? = some c := by rw [owner_set, hc]
      rw [get_of_owner hc', set_of_owner hc]
      simp [hbound]
    · refine .inl fun e => ?_
      rw [set_of_owner hc, Array.setIfInBounds, dif_neg hbound]

/-- Writes through a handle, one by one. -/
theorem foldl_define (hs : Handles) (h : Nat) (ws : List (String × Value)) :
    ws.foldl (fun hs (name, v) => hs.define h name v) hs = hs.set h ((hs.get h).defineAll ws) := by
  induction ws generalizing hs with
  | nil => exact (set_get_self hs h).symm
  | cons w ws ih =>
    obtain ⟨name, v⟩ := w
    have hdefine : hs.define h name v = hs.set h ((hs.get h).define name v) := rfl
    simp only [List.foldl_cons, ih, hdefine, set_set, Environment.defineAll_cons]
    rcases get_set_self hs h with hlost | hkept
    · rw [hlost, hlost]
    · rw [hkept]

/-- The writes of a merge come to the union of the two environments, also within one class. -/
theorem merge_eq_set (hs : Handles) (h f : Nat) :
    hs.merge h f = hs.set h ((hs.get h).merge (hs.get f)) := by
  unfold merge
  split
  · next hf => rw [← Same.get_eq hf, Environment.merge_self, set_get_self]
  · rw [foldl_define, Environment.defineAll_eq_merge (.refl _)]

theorem WellFormed.merge (hwf : hs.WellFormed) (h f : Nat) : (hs.merge h f).WellFormed := by
  rw [merge_eq_set]
  exact hwf.set h _

theorem get_merge (hwf : hs.WellFormed) (hh : hs.Has h) (f k : Nat) :
    (hs.merge h f).get k = if hs.Same h k then (hs.get h).merge (hs.get f) else hs.get k := by
  rw [merge_eq_set, get_set hwf hh]

theorem get_merge_of_not_same (hwf : hs.WellFormed) (hh : hs.Has h) (hk : ¬ hs.Same h k) (f : Nat) :
    (hs.merge h f).get k = hs.get k := by
  rw [get_merge hwf hh, if_neg hk]

theorem get_merge_self (hwf : hs.WellFormed) (hh : hs.Has h) (f : Nat) :
    (hs.merge h f).get h = (hs.get h).merge (hs.get f) := by
  rw [get_merge hwf hh, if_pos (Same.refl hs h)]

/-- A merge within one class changes nothing. -/
theorem merge_of_same (hf : hs.Same h f) : hs.merge h f = hs := if_pos hf

/-- Two merges from other classes are one merge of what they have together. -/
theorem merge_merge (hwf : hs.WellFormed) (hh : hs.Has h) (hg : ¬ hs.Same h g) (f : Nat) :
    (hs.merge h f).merge h g = hs.set h ((hs.get h).merge ((hs.get f).merge (hs.get g))) := by
  rw [merge_eq_set, get_merge_self hwf hh, get_merge_of_not_same hwf hh hg, Environment.merge_merge,
    merge_eq_set, set_set]

/-- A fresh handle stands for an environment of its own. -/
theorem not_same_add (hwf : hs.WellFormed) (hk : hs.Has k) (e : Environment) :
    ¬ (hs.add e).Same hs.owner.size k := by
  obtain ⟨c, hc⟩ := hk.exists_owner
  have hbound := hwf k c hc
  have hne : k ≠ hs.owner.size := Nat.ne_of_lt hk
  simp only [Same, add, Array.getElem?_push, if_neg hne, hc, if_pos]
  intro heq
  have := Option.some.inj heq
  omega

section Push

variable {hs' : Handles} (hpush : hs'.owner = hs.owner.push c)
include hpush

theorem has_push : hs'.Has k ↔ hs.Has k ∨ k = hs.owner.size := by
  simp only [Has, hpush, Array.size_push]
  omega

theorem owner_push (hk : hs.Has k) : hs'.owner[k]? = hs.owner[k]? := by
  rw [hpush, Array.getElem?_push, if_neg (Nat.ne_of_lt hk)]

/-- A further handle does not change which of the others stand for one environment. -/
theorem same_push (hh : hs.Has h) (hk : hs.Has k) : hs'.Same h k ↔ hs.Same h k := by
  rw [Same, Same, owner_push hpush hh, owner_push hpush hk]

end Push

theorem owner_add (hs : Handles) (e : Environment) :
    (hs.add e).owner = hs.owner.push hs.environments.size := rfl

theorem owner_share (hc : hs.owner[h]? = some c) : (hs.share h).owner = hs.owner.push c := by
  simp only [share, hc]

theorem Has.add (hk : hs.Has k) (e : Environment) : (hs.add e).Has k :=
  (has_push (owner_add hs e)).2 (.inl hk)

theorem has_add_self (hs : Handles) (e : Environment) : (hs.add e).Has hs.owner.size :=
  (has_push (owner_add hs e)).2 (.inr rfl)

/-- Adds a handle to a fresh environment that holds what is behind `f`, and then behind `g`. -/
def gather (hs : Handles) (f g : Nat) : Handles :=
  ((hs.add .empty).merge hs.owner.size f).merge hs.owner.size g

/-- What it means to merge the environment behind `f` into the one behind `h`. -/
structure MergeLaws (hs : Handles) (h f : Nat) : Prop where
  /-- The source wins. -/
  union : ∀ k, hs.Same h k → ∀ name, ((hs.merge h f).get k).find? name =
    ((hs.get f).find? name).or ((hs.get h).find? name)
  /-- The source stays as it was. -/
  source : ∀ k, hs.Same f k → (hs.merge h f).get k = hs.get f
  /-- The bindings may be copied one by one, in any order. -/
  order : ∀ ws : List (String × Value), ws.Perm (hs.get f).bindings →
    ws.foldl (fun hs (name, v) => hs.define h name v) hs = hs.merge h f
  self : hs.Same h f → hs.merge h f = hs
  twice : (hs.merge h f).merge h f = hs.merge h f
  /-- Two merges are one from an environment that has what both sources have. -/
  row : ∀ g m, ¬ hs.Same h g → hs.get m = (hs.get f).merge (hs.get g) →
    (hs.merge h f).merge h g = hs.merge h m
  /-- A fresh environment may gather what both sources have. -/
  fresh : ∀ g k, hs.Has g → ¬ hs.Same h g → hs.Has k →
    ((hs.gather f g).merge h hs.owner.size).get k = ((hs.merge h f).merge h g).get k

theorem merge_twice (hwf : hs.WellFormed) (hh : hs.Has h) (f : Nat) :
    (hs.merge h f).merge h f = hs.merge h f := by
  by_cases hf : hs.Same h f
  · rw [merge_of_same hf, merge_of_same hf]
  · rw [merge_merge hwf hh hf, Environment.merge_self, merge_eq_set]

/-- What the handles show after gathering: the fresh one has both, the others are as they were. -/
theorem get_gather (hwf : hs.WellFormed) (hf : hs.Has f) (hg : hs.Has g) :
    (hs.gather f g).get hs.owner.size = (hs.get f).merge (hs.get g) ∧
      ∀ k, hs.Has k → (hs.gather f g).get k = hs.get k := by
  have hn := has_add_self hs .empty
  have hadd := hwf.add .empty
  have hold : ∀ k, hs.Has k → (hs.add .empty).get k = hs.get k := fun k hk => by
    rw [get_add hwf, if_neg (Nat.ne_of_lt hk)]
  have hfirst : ∀ k, hs.Has k → ((hs.add .empty).merge hs.owner.size f).get k = hs.get k :=
    fun k hk => by rw [get_merge_of_not_same hadd hn (not_same_add hwf hk _), hold k hk]
  have hmerge := hadd.merge hs.owner.size f
  have hn' : ((hs.add .empty).merge hs.owner.size f).Has hs.owner.size := by
    rw [merge_eq_set]
    exact has_set.2 hn
  constructor
  · rw [gather, get_merge_self hmerge hn', get_merge_self hadd hn, hfirst g hg, hold f hf,
      get_add hwf, if_pos rfl, Environment.empty_merge]
  · intro k hk
    have hne : ¬ ((hs.add .empty).merge hs.owner.size f).Same hs.owner.size k :=
      fun hsame => not_same_add hwf hk _ (same_set.1 (merge_eq_set .. ▸ hsame))
    rw [gather, get_merge_of_not_same hmerge hn' hne, hfirst k hk]

/-- **Merging is the union in which the source wins.** -/
theorem merge_laws (hwf : hs.WellFormed) (hh : hs.Has h) (hf : hs.Has f) : MergeLaws hs h f where
  union := by
    intro k hk name
    rw [get_merge hwf hh, if_pos hk, Environment.find?_merge]
  source := by
    intro k hk
    by_cases hsame : hs.Same h f
    · rw [merge_of_same hsame, hk.get_eq]
    · have hne : ¬ hs.Same h k := fun h' => hsame (h'.trans hk.symm)
      rw [get_merge_of_not_same hwf hh hne, hk.get_eq]
  order := by
    intro ws hws
    rw [foldl_define, Environment.defineAll_eq_merge hws, merge_eq_set]
  self := merge_of_same
  twice := merge_twice hwf hh f
  row := by
    intro g m hg hgm
    rw [merge_merge hwf hh hg, merge_eq_set, hgm]
  fresh := by
    intro g k hg hne hk
    obtain ⟨hn, hold⟩ := get_gather hwf hf hg
    have hgather : (hs.gather f g).WellFormed :=
      ((hwf.add .empty).merge hs.owner.size f).merge hs.owner.size g
    have hh' : (hs.gather f g).Has h := by
      rw [gather, merge_eq_set, merge_eq_set]
      exact has_set.2 (has_set.2 (hh.add .empty))
    have hsame : (hs.gather f g).Same h k ↔ hs.Same h k := by
      rw [gather, merge_eq_set, merge_eq_set, same_set, same_set, same_push (owner_add hs _) hh hk]
    rw [get_merge hgather hh', hn, hold h hh, hold k hk, merge_merge hwf hh hne, get_set hwf hh]
    simp only [hsame]

end Handles

end FlatLisp
