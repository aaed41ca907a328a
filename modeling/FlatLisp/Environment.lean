import FlatLisp.Value
import Std.Data.ExtTreeMap

/-!
# The environment

One flat table from names to values. Two tables with the same bindings are equal.
-/

namespace FlatLisp

structure Environment where
  table : Std.ExtTreeMap String Value compare

namespace Environment

def empty : Environment := ⟨∅⟩

/-- The value bound to a name. -/
def find? (e : Environment) (name : String) : Option Value := e.table[name]?

/-- The name is bound. -/
def contains (e : Environment) (name : String) : Bool := e.table.contains name

/-- Binds a name, in the place of an earlier binding. -/
def define (e : Environment) (name : String) (v : Value) : Environment :=
  ⟨e.table.insert name v⟩

/-- The bound names in the order of their code points. -/
def names (e : Environment) : List String := e.table.keys

/-- The bindings in the order of their names. -/
def bindings (e : Environment) : List (String × Value) := e.table.toList

/-- The bindings of both, those of `f` where both bind a name. -/
def merge (e f : Environment) : Environment := ⟨e.table ∪ f.table⟩

/-- Binds names to values in order. -/
def defineAll (e : Environment) (bindings : List (String × Value)) : Environment :=
  bindings.foldl (fun e (name, v) => e.define name v) e

@[ext]
theorem ext_find {e f : Environment} (h : ∀ name, e.find? name = f.find? name) : e = f := by
  cases e; cases f
  simp only [find?] at h
  simp [Std.ExtTreeMap.ext_getElem? h]

@[simp]
theorem find?_empty (name : String) : empty.find? name = none := by simp [empty, find?]

theorem find?_define (e : Environment) (m : String) (v : Value) (n : String) :
    (e.define m v).find? n = if m = n then some v else e.find? n := by
  simp [define, find?, Std.ExtTreeMap.getElem?_insert]

theorem find?_merge (e f : Environment) (n : String) :
    (e.merge f).find? n = (f.find? n).or (e.find? n) := by
  simp [merge, find?, Std.ExtTreeMap.getElem?_union]

theorem contains_eq (e : Environment) (n : String) : e.contains n = (e.find? n).isSome := by
  simp [contains, find?]

theorem mem_names {e : Environment} {n : String} : n ∈ e.names ↔ (e.find? n).isSome := by
  simp [names, find?]

end Environment

end FlatLisp
