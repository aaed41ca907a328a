import FlatLisp.Environment
import Mathlib.Data.List.Basic

/-!
# The last write

A row of writes leaves for every name the last value that was written. Where no name is written
twice, the order does not matter (`Environment.defineAll_eq_merge`): to copy all bindings of a
table one by one is to merge it, whichever comes first. Merging is associative and idempotent.

* `Environment.find?_defineAll_iff`: **a name has the value that was written last.**
-/

namespace FlatLisp

/-- The last write of the name gives it the value. -/
def LastWrite (ws : List (String × Value)) (name : String) (v : Value) : Prop :=
  ∃ before behind, ws = before ++ (name, v) :: behind ∧ ∀ w ∈ behind, w.1 ≠ name

namespace Environment

variable {ws us : List (String × Value)} {e f : Environment} {name : String} {v : Value}

theorem defineAll_cons (e : Environment) (name : String) (v : Value) (ws : List (String × Value)) :
    e.defineAll ((name, v) :: ws) = (e.define name v).defineAll ws := rfl

theorem defineAll_append (e : Environment) (ws us : List (String × Value)) :
    e.defineAll (ws ++ us) = (e.defineAll ws).defineAll us := List.foldl_append

theorem find?_defineAll_of_notMem (h : name ∉ ws.map Prod.fst) (e : Environment) :
    (e.defineAll ws).find? name = e.find? name := by
  induction ws generalizing e with
  | nil => rfl
  | cons w ws ih =>
    rw [List.map_cons, List.mem_cons, not_or] at h
    rw [defineAll_cons, ih h.2, find?_define, if_neg (Ne.symm h.1)]

/-- **A name has the value that was written last**, or the old one if it was not written. -/
theorem find?_defineAll_iff : (e.defineAll ws).find? name = some v ↔
    LastWrite ws name v ∨ name ∉ ws.map Prod.fst ∧ e.find? name = some v := by
  constructor
  · intro h
    induction ws generalizing e with
    | nil => exact .inr ⟨by simp, h⟩
    | cons w ws ih =>
      rcases ih h with ⟨before, behind, rfl, hlast⟩ | ⟨hws, hfind⟩
      · exact .inl ⟨w :: before, behind, rfl, hlast⟩
      · rw [find?_define] at hfind
        split at hfind
        · next heq =>
          obtain rfl := Option.some.inj hfind
          refine .inl ⟨[], ws, by simp [← heq], fun u hu hname => hws ?_⟩
          exact hname ▸ List.mem_map_of_mem hu
        · next hne =>
          refine .inr ⟨?_, hfind⟩
          rw [List.map_cons, List.mem_cons, not_or]
          exact ⟨Ne.symm hne, hws⟩
  · rintro (⟨before, behind, rfl, hlast⟩ | ⟨hws, hfind⟩)
    · have hbehind : name ∉ behind.map Prod.fst := by
        rintro hmem
        obtain ⟨w, hw, hname⟩ := List.mem_map.1 hmem
        exact hlast w hw hname
      rw [defineAll_append, defineAll_cons, find?_defineAll_of_notMem hbehind, find?_define,
        if_pos rfl]
    · rw [find?_defineAll_of_notMem hws, hfind]

theorem find?_defineAll_cases (h : (e.defineAll ws).find? name = some v) :
    (name, v) ∈ ws ∨ e.find? name = some v := by
  rcases find?_defineAll_iff.1 h with ⟨before, behind, rfl, -⟩ | ⟨-, hfind⟩
  · exact .inl (by simp)
  · exact .inr hfind

/-- The bound names are those that were written and those that were bound before. -/
theorem isSome_defineAll_iff : ((e.defineAll ws).find? name).isSome ↔
    name ∈ ws.map Prod.fst ∨ (e.find? name).isSome := by
  induction ws generalizing e with
  | nil => simp [defineAll]
  | cons w ws ih =>
    rw [defineAll_cons, ih, find?_define, List.map_cons, List.mem_cons]
    split
    · next heq => simp [heq]
    · next hne => simp [Ne.symm hne]

theorem isSome_find?_defineAll (h : (e.find? name).isSome) (ws : List (String × Value)) :
    ((e.defineAll ws).find? name).isSome := isSome_defineAll_iff.2 (.inr h)

/-- Where no name is written twice, every write is the last one of its name. -/
theorem lastWrite_iff_mem (h : (ws.map Prod.fst).Nodup) : LastWrite ws name v ↔ (name, v) ∈ ws := by
  constructor
  · rintro ⟨before, behind, rfl, -⟩
    simp
  · intro hmem
    obtain ⟨before, behind, rfl⟩ := List.append_of_mem hmem
    refine ⟨before, behind, rfl, fun w hw hname => ?_⟩
    rw [List.map_append, List.nodup_append] at h
    have hbehind := (List.nodup_cons.1 h.2.1).1
    exact hbehind (List.mem_map.2 ⟨w, hw, hname⟩)

/-! ## Merging -/

theorem mem_bindings : (name, v) ∈ e.bindings ↔ e.find? name = some v := by
  simp [bindings, find?]

theorem map_fst_bindings (e : Environment) : e.bindings.map Prod.fst = e.names :=
  Std.ExtTreeMap.map_fst_toList_eq_keys

/-- No name is listed twice. -/
theorem nodup_names (e : Environment) : e.names.Nodup := Std.ExtTreeMap.nodup_keys

/-- **To merge a table is to copy its bindings**, in any order. -/
theorem defineAll_eq_merge (h : ws.Perm f.bindings) (e : Environment) :
    e.defineAll ws = e.merge f := by
  have hnames : (ws.map Prod.fst).Perm f.names := f.map_fst_bindings ▸ h.map Prod.fst
  ext name v : 2
  rw [find?_defineAll_iff, lastWrite_iff_mem (hnames.nodup_iff.2 f.nodup_names), h.mem_iff,
    mem_bindings, find?_merge, Option.or_eq_some_iff, hnames.mem_iff, mem_names,
    Option.not_isSome_iff_eq_none]

theorem merge_self (e : Environment) : e.merge e = e := by
  ext name : 1
  rw [find?_merge, Option.or_self]

theorem merge_merge (e f g : Environment) : (e.merge f).merge g = e.merge (f.merge g) := by
  ext name : 1
  simp only [find?_merge, Option.or_assoc]

theorem empty_merge (e : Environment) : empty.merge e = e := by
  ext name : 1
  rw [find?_merge, find?_empty, Option.or_none]

end Environment

end FlatLisp
