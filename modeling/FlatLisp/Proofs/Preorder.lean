import FlatLisp.Form.Outline
import Mathlib.Data.List.Forall2

/-!
# Forms in preorder

The nodes of a form are the form itself and those inside it at any depth. In preorder a node
stands before the nodes inside it, and these before what stands behind it in the text. Nodes are
numbered by that order (`Form.Numbered`): the children of a node are a forest whose first number is
the next one.

* `Form.forest_induction`: induction over the nodes of a forest.
* `Form.outline_eq`: what is drawn of a node, and its children in the order of the text.
* `Form.numbered_iff`: **the number of a node is its place in preorder.**
-/

namespace FlatLisp

namespace Form

variable {f g : Form} {fs : List Form} {n m c : Nat}

/-! ## Nodes -/

theorem sizeOf_lt_of_mem_children (h : g ∈ f.children) : sizeOf g < sizeOf f := by
  cases f with
  | literal l => exact absurd h List.not_mem_nil
  | symbol name => exact absurd h List.not_mem_nil
  | apply items =>
    have hlt := List.sizeOf_lt_of_mem h
    simp only [children] at hlt
    simp only [apply.sizeOf_spec]
    omega
  | assign target value =>
    obtain rfl := List.mem_singleton.1 h
    simp only [assign.sizeOf_spec]
    omega
  | branch test yes no =>
    simp only [children, List.mem_cons, List.not_mem_nil, or_false] at h
    rcases h with rfl | rfl | rfl <;> simp only [branch.sizeOf_spec] <;> omega
  | whileLoop test body =>
    simp only [children, List.mem_cons] at h
    rcases h with rfl | h
    · simp only [whileLoop.sizeOf_spec]
      omega
    · have hlt := List.sizeOf_lt_of_mem h
      simp only [whileLoop.sizeOf_spec]
      omega
  | forLoop start test step body =>
    simp only [children, List.mem_cons] at h
    rcases h with rfl | rfl | rfl | h
    · simp only [forLoop.sizeOf_spec]
      omega
    · simp only [forLoop.sizeOf_spec]
      omega
    · simp only [forLoop.sizeOf_spec]
      omega
    · have hlt := List.sizeOf_lt_of_mem h
      simp only [forLoop.sizeOf_spec]
      omega
  | define name params body =>
    have hlt := List.sizeOf_lt_of_mem h
    simp only [children] at hlt
    simp only [define.sizeOf_spec]
    omega

/-- What passes from the children of a form to the form holds of every form. -/
theorem children_induction {P : Form → Prop} (h : ∀ f, (∀ g ∈ f.children, P g) → P f) (f : Form) :
    P f :=
  h f fun g _ => children_induction h g
termination_by f
decreasing_by exact sizeOf_lt_of_mem_children ‹_›

/-- Induction over forests: a forest grows by a root with a forest below it. -/
theorem forest_induction {motive : List Form → Prop} (nil : motive [])
    (cons : ∀ f fs, motive f.children → motive fs → motive (f :: fs)) (fs : List Form) :
    motive fs := by
  have hforest : ∀ fs : List Form, (∀ f ∈ fs, motive f.children) → motive fs := by
    intro fs hfs
    induction fs with
    | nil => exact nil
    | cons f fs ih =>
      obtain ⟨hf, hfs⟩ := List.forall_mem_cons.1 hfs
      exact cons f fs hf (ih hfs)
  have htree : ∀ f : Form, motive f.children :=
    children_induction fun f ih => hforest f.children ih
  exact hforest fs fun f _ => htree f

/-- The form and all forms inside it, in preorder. -/
def nodes (f : Form) : List Form := f :: f.children.attach.flatMap fun g => g.1.nodes
termination_by f
decreasing_by exact sizeOf_lt_of_mem_children g.2

theorem nodes_eq (f : Form) : f.nodes = f :: f.children.flatMap nodes := by
  rw [nodes, List.flatMap_subtype (g := nodes) (fun _ _ => rfl), List.unattach_attach]

/-- The number of nodes of several forms. -/
def nodeCount (fs : List Form) : Nat := (fs.flatMap nodes).length

theorem nodeCount_cons (f : Form) (fs : List Form) :
    nodeCount (f :: fs) = f.nodes.length + nodeCount fs := by
  rw [nodeCount, List.flatMap_cons, List.length_append, nodeCount]

theorem length_nodes (f : Form) : f.nodes.length = 1 + nodeCount f.children := by
  rw [nodes_eq, List.length_cons, nodeCount, Nat.add_comm]

/-! ## What is drawn of a node -/

def style : Form → NodeStyle
  | .literal _ | .symbol _ => .plain
  | .apply _ => .dot
  | _ => .box

def label : Form → String
  | .literal v => v.label
  | .symbol name => name
  | .apply _ => ""
  | .assign target _ => "set " ++ target
  | .branch _ _ _ => "if"
  | .whileLoop _ _ => "while"
  | .forLoop _ _ _ _ => "for"
  | .define name params _ => "defn " ++ name ++ " (" ++ " ".intercalate params ++ ")"

/-- A dot has no label. -/
theorem label_of_dot (h : f.style = .dot) : f.label = "" := by
  cases f with
  | apply items => rfl
  | _ => cases h

theorem outlines_eq (fs : List Form) : outlines fs = fs.map outline := by
  induction fs with
  | nil => rfl
  | cons f fs ih => rw [outlines, ih, List.map_cons]

/-- **An outline has the children of the form**, in the order of the text. -/
theorem outline_eq (f : Form) : f.outline = .node f.style f.label (f.children.map outline) := by
  cases f <;> simp [outline, style, label, children, outlines_eq]

theorem sizeAll_map_outline (fs : List Form) : Outline.sizeAll (fs.map outline) = nodeCount fs := by
  induction fs using forest_induction with
  | nil => rfl
  | cons f fs ihf ih =>
    rw [List.map_cons, Outline.sizeAll, outline_eq, Outline.size, ihf, ih, nodeCount_cons,
      length_nodes]

theorem size_outline (f : Form) : f.outline.size = f.nodes.length := by
  rw [outline_eq, Outline.size, sizeAll_map_outline, length_nodes]

/-! ## Numbers -/

/-- The numbers of the roots of a forest whose first number is `n`, in the order of the text. -/
def roots (n : Nat) : List Form → List Nat
  | [] => []
  | f :: fs => n :: roots (n + f.nodes.length) fs

/-- The node `g` has the number `m` in a forest whose first number is `n`. -/
inductive Numbered : Nat → List Form → Nat → Form → Prop
  | head (n : Nat) (f : Form) (fs : List Form) : Numbered n (f :: fs) n f
  | inside {n m : Nat} {f g : Form} (fs : List Form) :
    Numbered (n + 1) f.children m g → Numbered n (f :: fs) m g
  | behind {n m : Nat} {f g : Form} {fs : List Form} :
    Numbered (n + f.nodes.length) fs m g → Numbered n (f :: fs) m g

/-- The node `c` is a child of the node `p`. -/
def Parent (fs : List Form) (p c : Nat) : Prop :=
  ∃ f, Numbered 0 fs p f ∧ c ∈ roots (p + 1) f.children

theorem length_roots (n : Nat) (fs : List Form) : (roots n fs).length = fs.length := by
  induction fs generalizing n with
  | nil => rfl
  | cons f fs ih => rw [roots, List.length_cons, ih, List.length_cons]

theorem le_of_mem_roots (h : c ∈ roots n fs) : n ≤ c := by
  induction fs generalizing n with
  | nil => cases h
  | cons f fs ih =>
    rcases List.mem_cons.1 h with rfl | h
    · exact Nat.le_refl _
    · exact Nat.le_of_add_right_le (ih h)

theorem numbered_cons : Numbered n (f :: fs) m g ↔
    (m = n ∧ g = f) ∨ Numbered (n + 1) f.children m g ∨ Numbered (n + f.nodes.length) fs m g := by
  constructor
  · intro h
    cases h with
    | head => exact .inl ⟨rfl, rfl⟩
    | inside _ h => exact .inr (.inl h)
    | behind h => exact .inr (.inr h)
  · rintro (⟨rfl, rfl⟩ | h | h)
    · exact .head m g fs
    · exact .inside fs h
    · exact .behind h

/-- What has a number below a node has it in the forest. -/
theorem Numbered.trans {p : Nat} (h : Numbered n fs p f) (hg : Numbered (p + 1) f.children m g) :
    Numbered n fs m g := by
  induction h with
  | head n f fs => exact .inside fs hg
  | inside fs _ ih => exact .inside fs (ih hg)
  | behind _ ih => exact .behind (ih hg)

/-- The roots have their numbers in the order of the text. -/
theorem numbered_roots (n : Nat) (fs : List Form) :
    List.Forall₂ (Numbered n fs) (roots n fs) fs := by
  induction fs generalizing n with
  | nil => exact .nil
  | cons f fs ih => exact .cons (.head n f fs) ((ih _).imp fun _ _ => .behind)

/-- **The number of a node is its place in preorder.** -/
theorem numbered_iff : Numbered n fs m g ↔ ∃ i, m = n + i ∧ (fs.flatMap nodes)[i]? = some g := by
  induction fs using forest_induction generalizing n m g with
  | nil => exact iff_of_false nofun (by simp)
  | cons f fs ihf ih =>
    have hlength := length_nodes f
    rw [numbered_cons, ihf, ih, List.flatMap_cons]
    constructor
    · rintro (⟨rfl, rfl⟩ | ⟨i, rfl, hi⟩ | ⟨i, rfl, hi⟩)
      · exact ⟨0, rfl, by rw [nodes_eq]; rfl⟩
      · have hlt := (List.getElem?_eq_some_iff.1 hi).1
        refine ⟨i + 1, by omega, ?_⟩
        rw [List.getElem?_append_left (by rw [hlength, nodeCount]; omega), nodes_eq]
        exact hi
      · refine ⟨f.nodes.length + i, by omega, ?_⟩
        rwa [List.getElem?_append_right (Nat.le_add_right _ _), Nat.add_sub_cancel_left]
    · rintro ⟨i, rfl, hi⟩
      rcases Nat.lt_or_ge i f.nodes.length with hlt | hge
      · rw [List.getElem?_append_left hlt, nodes_eq] at hi
        cases i with
        | zero => exact .inl ⟨rfl, (Option.some.inj hi).symm⟩
        | succ i => exact .inr (.inl ⟨i, by omega, hi⟩)
      · rw [List.getElem?_append_right hge] at hi
        exact .inr (.inr ⟨_, by omega, hi⟩)

theorem Numbered.mem_nodes (h : Numbered n fs m g) : g ∈ fs.flatMap nodes := by
  obtain ⟨i, -, hget⟩ := numbered_iff.1 h
  exact List.mem_of_getElem? hget

end Form

end FlatLisp
