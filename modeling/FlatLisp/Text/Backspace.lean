import FlatLisp.Text.Cluster

/-!
# Backspaces

A typed line may contain backspaces. `Backspace.apply` gives the line that they leave: each
takes back the last cluster that is still there. One at the start of the line takes back
nothing. That is what the line editor `rustyline` makes of lines that do not come from a terminal.

The size of a cluster is kept in a single byte, so of a cluster of 256 bytes or more only
the remainder modulo 256 is taken back.
-/

namespace FlatLisp

namespace Backspace

/-- The backspace character. -/
def key : Char := '\x08'

/-- What is typed so far. -/
structure Typed where
  /-- The text, last character first. -/
  text : List Char
  /-- The sizes in bytes of the clusters that can be taken back, last one first. -/
  sizes : List Nat

namespace Typed

/-- Takes characters away from a text, which has its last character first, until `n` bytes
are gone. -/
def dropBytes : Nat → List Char → List Char
  | 0, cs => cs
  | _ + 1, [] => []
  | n + 1, c :: cs => dropBytes (n + 1 - c.utf8Size) cs

/-- The size of a cluster, as far as a byte can hold it. -/
def size (cluster : List Char) : Nat := (String.ofList cluster).utf8ByteSize % 256

/-- Types a cluster; a backspace takes back the last one. -/
def type (t : Typed) (cluster : List Char) : Typed :=
  if cluster = [key] then
    match t.sizes with
    | [] => t
    | n :: sizes => ⟨dropBytes n t.text, sizes⟩
  else ⟨cluster.reverse ++ t.text, size cluster :: t.sizes⟩

end Typed

/-- The line that its backspaces leave, where `split` cuts lines into clusters. -/
def apply (split : List Char → List (List Char)) (line : String) : String :=
  .ofList ((split line.toList).foldl Typed.type ⟨[], []⟩).text.reverse

/-- Clusters other than a backspace are typed one behind another. -/
theorem Typed.foldl_type {clusters : List (List Char)} (h : [key] ∉ clusters) (t : Typed) :
    (clusters.foldl Typed.type t).text = clusters.flatten.reverse ++ t.text := by
  induction clusters generalizing t with
  | nil => rfl
  | cons cluster clusters ih =>
    obtain ⟨hne, hrest⟩ := not_or.1 (mt List.mem_cons.2 h)
    rw [List.foldl_cons, ih hrest, Typed.type, if_neg (Ne.symm hne)]
    simp

/-- **A line without backspaces stays as it is.** -/
theorem apply_of_notMem {split : List Char → List (List Char)} (hsplit : Cluster.Documented split)
    {line : String} (h : key ∉ line.toList) : apply split line = line := by
  have hclusters : [key] ∉ split line.toList := by
    intro hmem
    have hkey : key ∈ (split line.toList).flatten := List.mem_flatten.2 ⟨[key], hmem, by simp⟩
    rw [hsplit.flatten] at hkey
    exact h hkey
  simp [apply, Typed.foldl_type hclusters, hsplit.flatten]

end Backspace

end FlatLisp
