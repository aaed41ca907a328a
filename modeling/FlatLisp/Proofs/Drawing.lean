import FlatLisp.Proofs.Preorder
import FlatLisp.Proofs.Reload
import FlatLisp.Proofs.Searching
import FlatLisp.Proofs.Statements
import Mathlib.Data.List.Nodup

/-!
# Drawings

A drawing tells of each node of a forest, and of an edge from each parent to each child. What is
said of the nodes below a parent (`childStatements`) and of the nodes of a forest
(`forestStatements`) differs in the edges to the roots, of which a forest has none.

* `Form.declared_forest`: the nodes are declared once each, in the order of their numbers.
* `Form.leaving_forestEdges`: the edges that lead away from a node lead to its children in order.
* `Form.mem_forestEdges`: **there is an edge from each parent to each child, and no other.**
* `Form.perm_forestTargets`: each node is a root or is led to by an edge, and this once.
* `Outline.drawing_exact`: **a drawing shows the forest exactly**, and the trees can be put
  together again from its lines.
-/

namespace FlatLisp

namespace Form

open Outline

variable {f g : Form} {fs : List Form} {n p c : Nat}

/-! ## Nodes -/

/-- What is said of nodes, with their numbers from `n` on. -/
def declared (n : Nat) (fs : List Form) : List (Nat × NodeStyle × String) :=
  (fs.zipIdx n).map fun (f, i) => (i, f.style, f.label)

theorem declared_append (n : Nat) (fs gs : List Form) :
    declared n (fs ++ gs) = declared n fs ++ declared (n + fs.length) gs := by
  rw [declared, List.zipIdx_append, List.map_append, declared, declared]

theorem declared_cons (n : Nat) (f : Form) (fs : List Form) :
    declared n ((f :: fs).flatMap nodes) = (n, f.style, f.label) ::
      (declared (n + 1) (f.children.flatMap nodes) ++
        declared (n + f.nodes.length) (fs.flatMap nodes)) := by
  rw [List.flatMap_cons, declared_append, nodes_eq, declared, List.zipIdx_cons, List.map_cons,
    List.cons_append]
  rfl

theorem declared_children (p n : Nat) (fs : List Form) :
    (childStatements p n (fs.map outline)).filterMap Statement.node? =
      declared n (fs.flatMap nodes) := by
  induction fs using forest_induction generalizing p n with
  | nil => rfl
  | cons f fs ihf ih =>
    have hnode : Statement.node? (.node n f.style f.label) = some (n, f.style, f.label) := rfl
    rw [List.map_cons, childStatements, List.filterMap_append, List.filterMap_cons_none rfl,
      size_outline, outline_eq, statements, List.filterMap_cons_some hnode, ihf, ih, declared_cons,
      List.cons_append]

/-- **The nodes are declared once each**, in the order of their numbers. -/
theorem declared_forest (n : Nat) (fs : List Form) :
    (forestStatements n (fs.map outline)).filterMap Statement.node? =
      declared n (fs.flatMap nodes) := by
  induction fs generalizing n with
  | nil => rfl
  | cons f fs ih =>
    have hnode : Statement.node? (.node n f.style f.label) = some (n, f.style, f.label) := rfl
    rw [List.map_cons, forestStatements, List.filterMap_append, size_outline, outline_eq,
      statements, List.filterMap_cons_some hnode, declared_children, ih, declared_cons,
      List.cons_append]

/-! ## Edges -/

def edges (n : Nat) (f : Form) : List (Nat × Nat) :=
  (f.outline.statements n).filterMap Statement.edge?

def childEdges (p n : Nat) (fs : List Form) : List (Nat × Nat) :=
  (childStatements p n (fs.map outline)).filterMap Statement.edge?

def forestEdges (n : Nat) (fs : List Form) : List (Nat × Nat) :=
  (forestStatements n (fs.map outline)).filterMap Statement.edge?

theorem edges_eq (n : Nat) (f : Form) : edges n f = childEdges n (n + 1) f.children := by
  rw [edges, outline_eq, statements, List.filterMap_cons_none rfl, childEdges]

theorem childEdges_cons (p n : Nat) (f : Form) (fs : List Form) :
    childEdges p n (f :: fs) = edges n f ++ (p, n) :: childEdges p (n + f.nodes.length) fs := by
  have hedge : Statement.edge? (.edge p n) = some (p, n) := rfl
  rw [childEdges, List.map_cons, childStatements, List.filterMap_append,
    List.filterMap_cons_some hedge, size_outline, edges, childEdges]

theorem forestEdges_cons (n : Nat) (f : Form) (fs : List Form) :
    forestEdges n (f :: fs) = edges n f ++ forestEdges (n + f.nodes.length) fs := by
  rw [forestEdges, List.map_cons, forestStatements, List.filterMap_append, size_outline, edges,
    forestEdges]

/-- Besides the edges of a forest there is one to each root. -/
theorem perm_childEdges (p n : Nat) (fs : List Form) :
    (childEdges p n fs).Perm (forestEdges n fs ++ (roots n fs).map (p, ·)) := by
  induction fs generalizing n with
  | nil => exact .nil
  | cons f fs ih =>
    rw [childEdges_cons, forestEdges_cons, roots, List.map_cons, List.append_assoc]
    exact ((ih _).cons _).append_left _ |>.trans (List.perm_middle.symm.append_left _)

theorem mem_childEdges {e : Nat × Nat} :
    e ∈ childEdges p n fs ↔ e ∈ forestEdges n fs ∨ (e.1 = p ∧ e.2 ∈ roots n fs) := by
  obtain ⟨a, b⟩ := e
  rw [(perm_childEdges p n fs).mem_iff, List.mem_append, List.mem_map]
  simp [and_comm, eq_comm]

/-- An edge leads from a node to one of its children. -/
theorem numbered_of_mem_forestEdges {e : Nat × Nat} (h : e ∈ forestEdges n fs) :
    ∃ f, Numbered n fs e.1 f ∧ e.2 ∈ roots (e.1 + 1) f.children := by
  induction fs using forest_induction generalizing n with
  | nil => exact absurd h List.not_mem_nil
  | cons f fs ihf ih =>
    rw [forestEdges_cons, List.mem_append, edges_eq, mem_childEdges] at h
    rcases h with (h | ⟨rfl, h⟩) | h
    · obtain ⟨g, hg, hmem⟩ := ihf h
      exact ⟨g, .inside fs hg, hmem⟩
    · exact ⟨f, .head _ f fs, h⟩
    · obtain ⟨g, hg, hmem⟩ := ih h
      exact ⟨g, .behind hg, hmem⟩

/-- The edges that lead away from a node. -/
def leaving (p : Nat) (es : List (Nat × Nat)) : List (Nat × Nat) := es.filter (·.1 = p)

theorem leaving_append (p : Nat) (es es' : List (Nat × Nat)) :
    leaving p (es ++ es') = leaving p es ++ leaving p es' := List.filter_append _ _

theorem leaving_forestEdges_of_notMem (h : p < n ∨ n + nodeCount fs ≤ p) :
    leaving p (forestEdges n fs) = [] := by
  rw [leaving, List.filter_eq_nil_iff]
  intro e he hp
  obtain ⟨f, hf, -⟩ := numbered_of_mem_forestEdges he
  obtain ⟨i, hi, hget⟩ := numbered_iff.1 hf
  have hlt := (List.getElem?_eq_some_iff.1 hget).1
  have hp := of_decide_eq_true hp
  rw [nodeCount] at h
  omega

theorem leaving_childEdges_of_ne {q : Nat} (h : q ≠ p) (n : Nat) (fs : List Form) :
    leaving p (childEdges q n fs) = leaving p (forestEdges n fs) := by
  induction fs generalizing n with
  | nil => rfl
  | cons f fs ih =>
    have hedge : leaving p ((q, n) :: childEdges q (n + f.nodes.length) fs) =
        leaving p (childEdges q (n + f.nodes.length) fs) :=
      List.filter_cons_of_neg (by simpa using h)
    rw [childEdges_cons, forestEdges_cons, leaving_append, leaving_append, hedge, ih]

theorem leaving_edges_of_lt (h : p < n) (f : Form) : leaving p (edges n f) = [] := by
  rw [edges_eq, leaving_childEdges_of_ne (Nat.ne_of_gt h)]
  exact leaving_forestEdges_of_notMem (.inl (Nat.lt_succ_of_lt h))

theorem leaving_childEdges_self (hp : p < n) (fs : List Form) :
    leaving p (childEdges p n fs) = (roots n fs).map (p, ·) := by
  induction fs generalizing n with
  | nil => rfl
  | cons f fs ih =>
    have hedge : leaving p ((p, n) :: childEdges p (n + f.nodes.length) fs) =
        (p, n) :: leaving p (childEdges p (n + f.nodes.length) fs) :=
      List.filter_cons_of_pos (by simp)
    rw [childEdges_cons, leaving_append, leaving_edges_of_lt hp, List.nil_append, hedge,
      ih (Nat.lt_add_right _ hp), roots, List.map_cons]

/-- **The edges that lead away from a node lead to its children**, in the order of the text. -/
theorem leaving_forestEdges (h : Numbered n fs p f) :
    leaving p (forestEdges n fs) = (roots (p + 1) f.children).map (p, ·) := by
  induction h with
  | head n f fs =>
    have hbehind : n < n + f.nodes.length := by rw [length_nodes]; omega
    rw [forestEdges_cons, leaving_append, edges_eq, leaving_childEdges_self (Nat.lt_succ_self n),
      leaving_forestEdges_of_notMem (.inl hbehind), List.append_nil]
  | @inside n p g f fs hin ih =>
    obtain ⟨i, rfl, hget⟩ := numbered_iff.1 hin
    have hlt : i < nodeCount g.children := (List.getElem?_eq_some_iff.1 hget).1
    have hbehind : n + 1 + i < n + g.nodes.length := by rw [length_nodes]; omega
    rw [forestEdges_cons, leaving_append, edges_eq, leaving_childEdges_of_ne (by omega), ih,
      leaving_forestEdges_of_notMem (.inl hbehind), List.append_nil]
  | @behind n p g f fs hin ih =>
    obtain ⟨i, rfl, -⟩ := numbered_iff.1 hin
    have hlength := length_nodes g
    rw [forestEdges_cons, leaving_append, edges_eq, leaving_childEdges_of_ne (by omega), ih,
      leaving_forestEdges_of_notMem (.inr (by omega)), List.nil_append]

/-- **There is an edge from each parent to each child, and no other.** -/
theorem mem_forestEdges : (p, c) ∈ forestEdges 0 fs ↔ Parent fs p c := by
  constructor
  · exact numbered_of_mem_forestEdges
  · rintro ⟨f, hf, hc⟩
    have hmem : (p, c) ∈ leaving p (forestEdges 0 fs) := by
      rw [leaving_forestEdges hf]
      exact List.mem_map_of_mem hc
    exact List.mem_of_mem_filter hmem

/-! ## Where edges lead -/

/-- With one edge to each root, the edges lead to each node once. -/
theorem perm_targets (p n : Nat) (fs : List Form) :
    ((childEdges p n fs).map Prod.snd).Perm (List.range' n (nodeCount fs)) := by
  induction fs using forest_induction generalizing p n with
  | nil => exact .nil
  | cons f fs ihf ih =>
    have hsplit : List.range' n (nodeCount (f :: fs)) =
        n :: List.range' (n + 1) (nodeCount f.children) ++
          List.range' (n + f.nodes.length) (nodeCount fs) := by
      rw [nodeCount_cons, ← List.range'_append_1, length_nodes, Nat.add_comm 1, List.range'_succ]
    rw [childEdges_cons, List.map_append, List.map_cons, hsplit, edges_eq]
    exact List.perm_middle.trans (((ihf n (n + 1)).append (ih p _)).cons n)

/-- **Each node is a root or is led to by an edge**, and this once. -/
theorem perm_forestTargets (n : Nat) (fs : List Form) :
    ((forestEdges n fs).map Prod.snd ++ roots n fs).Perm (List.range' n (nodeCount fs)) := by
  have hperm : ((childEdges n n fs).map Prod.snd).Perm _ := (perm_childEdges n n fs).map Prod.snd
  have hroots : ((roots n fs).map (n, ·)).map Prod.snd = roots n fs := by
    rw [List.map_map]
    exact List.map_id _
  rw [List.map_append, hroots] at hperm
  exact hperm.symm.trans (perm_targets n n fs)

/-! ## Labels on one line -/

/-- No label goes over the end of its line. -/
def OneLine (fs : List Form) : Prop := ∀ f ∈ fs.flatMap nodes, '\n' ∉ f.label.toList

theorem newline_notMem_name {name : String} (h : IsName name) : '\n' ∉ name.toList :=
  fun hmem => absurd (h.not_delimiter _ hmem) (by decide)

theorem notMem_intercalate {c : Char} {separator : List Char} {pieces : List (List Char)}
    (hsep : c ∉ separator) (h : ∀ piece ∈ pieces, c ∉ piece) :
    c ∉ separator.intercalate pieces := by
  induction pieces with
  | nil => exact List.not_mem_nil
  | cons piece pieces ih =>
    obtain ⟨hpiece, hpieces⟩ := List.forall_mem_cons.1 h
    rcases eq_or_ne pieces [] with rfl | hne
    · rwa [List.intercalate_singleton]
    · rw [List.intercalate_cons_of_ne_nil hne, List.mem_append, List.mem_append]
      exact not_or_intro (not_or_intro hpiece hsep) (ih hpieces)

theorem newline_notMem_literal : ∀ {v : Value}, v.WellFormed → '\n' ∉ v.label.toList
  | .number x, h => by
    intro hmem
    have hmem : '\n' ∈ x.text.toList := by
      simpa [Value.label, Value.text, Value.write, Atom.text] using hmem
    exact absurd (Number.numeralChar_of_mem_text h.1 hmem).not_delimiter (by decide)
  | .string s, _ => by
    obtain ⟨ps, hps, -⟩ := Quoted.encode_pieces s
    simp [Value.label, hps, Quoted.Piece.newline_notMem_text]

theorem newline_notMem_label (h : f.WellFormed) : '\n' ∉ f.label.toList := by
  cases f with
  | literal v => exact newline_notMem_literal h
  | symbol name => exact newline_notMem_name h
  | assign target value => simp [label, newline_notMem_name h.1]
  | define name params body =>
    have hparams : '\n' ∉ (" ".intercalate params).toList := by
      rw [String.toList_intercalate]
      refine notMem_intercalate (by decide) fun p hp => ?_
      obtain ⟨q, hq, rfl⟩ := List.mem_map.1 hp
      exact newline_notMem_name (h.2.1 q hq)
    simpa [label, newline_notMem_name h.1] using hparams
  | _ => simp [label]

/-- What is read from a text has its labels on one line. -/
theorem oneLine_of_readForms {source : String} (h : readForms source = .ok fs) : OneLine fs := by
  intro g hg
  obtain ⟨f, hf, hg⟩ := List.mem_flatMap.1 hg
  exact newline_notMem_label ((inside_of_mem_nodes hg).wellFormed (wellFormed_of_readForms h f hf))

end Form

namespace Outline

open Form

variable {fs : List Form}

/-! ## The lines of a drawing -/

/-- The lines of a drawing, around those of its trees. -/
def frame (lines : List String) : List String := "digraph G \x7b" :: settings ++ lines ++ ["\x7d"]

/-- What the lines of a forest say. -/
def saying (fs : List Form) : List Statement := forestStatements 0 (fs.map outline)

theorem graph_outlines (fs : List Form) :
    graph (outlines fs) = "\n".intercalate (frame ((saying fs).map Statement.line)) := by
  rw [graph, outlines_eq, forestLines_eq, saying, frame]

/-- A drawing tells of a node if and only if there is one with that number in the forest. -/
theorem node_mem_saying {n : Nat} {style : NodeStyle} {label : String} :
    .node n style label ∈ saying fs ↔
      ∃ f, Numbered 0 fs n f ∧ f.style = style ∧ f.label = label := by
  have hnode : .node n style label ∈ saying fs ↔
      (n, style, label) ∈ (saying fs).filterMap Statement.node? := by
    rw [List.mem_filterMap]
    constructor
    · exact fun hs => ⟨_, hs, rfl⟩
    · rintro ⟨s, hs, h⟩
      cases s with
      | node m style' label' =>
        obtain ⟨rfl, rfl, rfl⟩ : m = n ∧ style' = style ∧ label' = label := by
          simpa [Statement.node?] using h
        exact hs
      | edge parent child => cases h
  rw [hnode, saying, declared_forest, declared, List.mem_map, Prod.exists]
  simp only [List.mk_mem_zipIdx_iff_getElem?, numbered_iff, Nat.zero_add, Prod.mk.injEq]
  constructor
  · rintro ⟨f, i, hget, rfl, rfl, rfl⟩
    exact ⟨f, ⟨i, rfl, hget⟩, rfl, rfl⟩
  · rintro ⟨f, ⟨i, rfl, hget⟩, rfl, rfl⟩
    exact ⟨f, _, hget, rfl, rfl, rfl⟩

theorem read?_of_mem_saying {s : Statement} (hs : s ∈ saying fs) :
    Statement.read? s.line = some s := by
  refine Statement.read?_line ?_
  cases s with
  | node n style label =>
    obtain ⟨f, -, rfl, rfl⟩ := node_mem_saying.1 hs
    exact label_of_dot
  | edge parent child => trivial

/-- Besides the lines of the trees none says anything. -/
theorem filterMap_read?_frame (fs : List Form) :
    (frame ((saying fs).map Statement.line)).filterMap Statement.read? = saying fs := by
  have hsaying : ((saying fs).map Statement.line).filterMap Statement.read? = saying fs := by
    rw [List.filterMap_map]
    exact (List.filterMap_congr fun s hs => read?_of_mem_saying hs).trans List.filterMap_some
  have hfront : ("digraph G \x7b" :: settings).filterMap Statement.read? = [] := rfl
  have hback : ["\x7d"].filterMap Statement.read? = [] := rfl
  rw [frame, List.filterMap_append, List.filterMap_append, hfront, hsaying, hback, List.nil_append,
    List.append_nil]

theorem rebuild_frame (fs : List Form) :
    rebuild (frame ((saying fs).map Statement.line)) = fs.map outline := by
  rw [rebuild, filterMap_read?_frame, saying, foldl_attach_forest, List.append_nil,
    List.reverse_reverse]

theorem newline_notMem_line {s : Statement} (hfs : OneLine fs) (hs : s ∈ saying fs) :
    '\n' ∉ s.line.toList := by
  have hname : ∀ n, '\n' ∉ (nodeName n).toList := by
    intro n hmem
    rw [toList_nodeName, List.mem_append] at hmem
    rcases hmem with hmem | hmem
    · exact absurd hmem (by decide)
    · exact absurd (Decimal.isDigit_of_mem_digits hmem) (by decide)
  cases s with
  | node n style label =>
    obtain ⟨f, hf, rfl, rfl⟩ := node_mem_saying.1 hs
    have hlabel : '\n' ∉ f.label.toList := hfs f hf.mem_nodes
    cases hstyle : f.style <;> simp [Statement.line, nodeLine, hname n, hlabel]
  | edge parent child => simp [Statement.line, edgeLine, hname parent, hname child]

/-- **The lines of the text are those of the frame.** -/
theorem pieces_graph (hfs : OneLine fs) : Builtin.pieces (graph (outlines fs)) "\n" =
    frame ((saying fs).map Statement.line) := by
  rw [graph_outlines]
  refine Builtin.pieces_intercalate rfl (by simp [frame]) fun line hline hoccurs => ?_
  have hmem : '\n' ∈ line.toList :=
    (Builtin.occurs_iff_toList.1 hoccurs).subset (by decide : '\n' ∈ "\n".toList)
  rw [frame, List.mem_append, List.mem_append, List.mem_singleton] at hline
  rcases hline with (hline | hline) | rfl
  · have hfront : ∀ l ∈ "digraph G \x7b" :: settings, '\n' ∉ l.toList := by decide
    exact hfront line hline hmem
  · obtain ⟨s, hs, rfl⟩ := List.mem_map.1 hline
    exact newline_notMem_line hfs hs hmem
  · exact absurd hmem (by decide)

/-- The statements are those of a forest: its nodes with their numbers in preorder, and an edge
from each parent to each child. -/
structure Draws (fs : List Form) (ss : List Statement) : Prop where
  nodes : ss.filterMap Statement.node? = declared 0 (fs.flatMap Form.nodes)
  edge_iff : ∀ p c, (p, c) ∈ ss.filterMap Statement.edge? ↔ Parent fs p c
  edges_nodup : (ss.filterMap Statement.edge?).Nodup
  /-- The edges that lead away from a node lead to its children in their order. -/
  inOrder : ∀ p f, Numbered 0 fs p f → ∃ cs, List.Forall₂ (Numbered 0 fs) cs f.children ∧
    leaving p (ss.filterMap Statement.edge?) = cs.map (p, ·)
  roots : List.Forall₂ (Numbered 0 fs) (roots 0 fs) fs
  count : (ss.filterMap Statement.edge?).length + fs.length = nodeCount fs
  not_inner : ∀ c ∈ Form.roots 0 fs, ∀ p, (p, c) ∉ ss.filterMap Statement.edge?
  /-- A node that is no root is led to by one edge, from a smaller number. -/
  inner : ∀ c < nodeCount fs, c ∉ Form.roots 0 fs →
    ∃ p < c, ∀ q, (q, c) ∈ ss.filterMap Statement.edge? ↔ q = p

theorem draws_saying (fs : List Form) : Draws fs (saying fs) := by
  have hperm := perm_forestTargets 0 fs
  obtain ⟨htargets, -, hdisjoint⟩ := List.nodup_append'.1 (hperm.nodup_iff.2 List.nodup_range')
  refine ⟨declared_forest 0 fs, fun p c => mem_forestEdges, .of_map Prod.snd htargets,
    fun p f hf => ⟨_, (numbered_roots _ _).imp fun _ _ => hf.trans, leaving_forestEdges hf⟩,
    numbered_roots 0 fs, ?_, fun c hc p hp => ?_, fun c hlt hc => ?_⟩
  · have hlength := hperm.length_eq
    rwa [List.length_append, List.length_map, length_roots, List.length_range'] at hlength
  · exact hdisjoint (List.mem_map_of_mem hp) hc
  · have hmem : c ∈ (forestEdges 0 fs).map Prod.snd ++ roots 0 fs :=
      hperm.mem_iff.2 (by rw [List.mem_range'_1]; omega)
    obtain ⟨⟨p, c⟩, hp, rfl⟩ := List.mem_map.1 ((List.mem_append.1 hmem).resolve_right hc)
    obtain ⟨f, hf, hc⟩ := mem_forestEdges.1 hp
    refine ⟨p, le_of_mem_roots hc, fun q => ⟨fun hq => ?_, fun hq => hq ▸ hp⟩⟩
    exact congrArg Prod.fst (List.inj_on_of_nodup_map htargets hq hp rfl)

/-- **A drawing shows the forest exactly.** Its lines are statements, one to each line: that there
is a node, for each node of the forest once and with its number in preorder, and that there is an
edge, for each parent and child once. The trees can be put together again from these lines, which
are the lines of the text if no label goes over the end of its line. -/
theorem drawing_exact (fs : List Form) : ∃ ss : List Statement,
    graph (outlines fs) = "\n".intercalate (frame (ss.map Statement.line)) ∧
    (∀ s ∈ ss, Statement.read? s.line = some s) ∧
    (∀ m f, Numbered 0 fs m f ↔ (fs.flatMap Form.nodes)[m]? = some f) ∧ Draws fs ss ∧
    rebuild (frame (ss.map Statement.line)) = fs.map outline ∧
    (OneLine fs → Builtin.pieces (graph (outlines fs)) "\n" = frame (ss.map Statement.line)) ∧
    ∀ source, readForms source = .ok fs → OneLine fs := by
  refine ⟨saying fs, graph_outlines fs, fun s hs => read?_of_mem_saying hs, fun m f => ?_,
    draws_saying fs, rebuild_frame fs, pieces_graph, fun source h => oneLine_of_readForms h⟩
  have hplace : Numbered 0 fs m f ↔ ∃ i, m = 0 + i ∧ (fs.flatMap Form.nodes)[i]? = some f :=
    numbered_iff
  simpa using hplace

/-- A program with two roots. -/
def twoRoots : List Form :=
  [.apply [.symbol "prn", .literal (.string "hi")], .assign "x" (.symbol "y")]

theorem drawing_exact_twoRoots : OneLine twoRoots ∧
    rebuild (Builtin.pieces (graph (outlines twoRoots)) "\n") = twoRoots.map outline := by
  have hone : OneLine twoRoots := by
    simp only [OneLine, twoRoots, List.flatMap_cons, List.flatMap_nil, nodes_eq, children]
    decide
  obtain ⟨ss, -, -, -, -, hrebuild, hpieces, -⟩ := drawing_exact twoRoots
  exact ⟨hone, by rw [hpieces hone, hrebuild]⟩

end Outline

end FlatLisp
