import FlatLisp.Form.Outline
import FlatLisp.Proofs.NumeralGrammar

/-!
# The lines of a drawing

The lines of a drawing are statements: one declares a node, another one an edge. They can be read
again (`Outline.Statement.read?`), and since the line of an edge follows the lines of the child
that it leads to, a stack of finished trees is enough to put the trees together (`Outline.rebuild`).

* `Outline.lines_eq`, `Outline.forestLines_eq`: what the lines of trees say.
* `Outline.Statement.read?_line`: **a line says what it was written for.**
* `Outline.foldl_attach_forest`: the trees are put together from their statements.
-/

namespace FlatLisp

namespace Outline

/-! ## Statements -/

/-- What a line of a drawing says. -/
inductive Statement where
  | node (n : Nat) (style : NodeStyle) (label : String)
  | edge (parent child : Nat)
deriving DecidableEq

namespace Statement

def line : Statement → String
  | .node n style label => nodeLine n style label
  | .edge parent child => edgeLine parent child

def node? : Statement → Option (Nat × NodeStyle × String)
  | .node n style label => some (n, style, label)
  | .edge _ _ => none

def edge? : Statement → Option (Nat × Nat)
  | .node _ _ _ => none
  | .edge parent child => some (parent, child)

end Statement

mutual

/-- What the lines of a tree say whose root has the number `n`. -/
def statements (n : Nat) : Outline → List Statement
  | .node style label children => .node n style label :: childStatements n (n + 1) children

def childStatements (parent n : Nat) : List Outline → List Statement
  | [] => []
  | t :: ts => t.statements n ++ .edge parent n :: childStatements parent (n + t.size) ts

end

def forestStatements (n : Nat) : List Outline → List Statement
  | [] => []
  | t :: ts => t.statements n ++ forestStatements (n + t.size) ts

mutual

theorem lines_eq (n : Nat) : ∀ t : Outline, t.lines n = (t.statements n).map Statement.line
  | .node style label children => by
    rw [lines, statements, List.map_cons, childLines_eq n (n + 1) children]
    rfl

theorem childLines_eq (parent n : Nat) : ∀ ts : List Outline,
    childLines parent n ts = (childStatements parent n ts).map Statement.line
  | [] => rfl
  | t :: ts => by
    rw [childLines, childStatements, lines_eq n t, childLines_eq parent (n + t.size) ts,
      List.map_append, List.map_cons]
    rfl

end

theorem forestLines_eq (n : Nat) (ts : List Outline) :
    forestLines n ts = (forestStatements n ts).map Statement.line := by
  induction ts generalizing n with
  | nil => rfl
  | cons t ts ih => rw [forestLines, forestStatements, lines_eq, ih, List.map_append]

/-! ## Reading lines -/

theorem toList_nodeName (n : Nat) : (nodeName n).toList = "node".toList ++ Decimal.digits n := by
  rw [nodeName, String.toList_append, Nat.toString_eq_repr, Nat.toList_repr, Decimal.digits]

/-- What follows a text. -/
def after? (front cs : List Char) : Option (List Char) :=
  if front.isPrefixOf cs then some (cs.drop front.length) else none

/-- What a text follows at the end. -/
def before? (back cs : List Char) : Option (List Char) :=
  (after? back.reverse cs.reverse).map List.reverse

theorem after?_append (front rest : List Char) : after? front (front ++ rest) = some rest := by
  rw [after?, if_pos (List.isPrefixOf_iff_prefix.2 (List.prefix_append _ _)), List.drop_left]

theorem before?_append (rest back : List Char) : before? back (rest ++ back) = some rest := by
  rw [before?, List.reverse_append, after?_append, Option.map_some, List.reverse_reverse]

/-- Reads the name of a node: its number, and what follows. -/
def readName (cs : List Char) : Option (Nat × List Char) :=
  (after? "node".toList cs).map fun rest =>
    (Decimal.ofDigits (rest.takeWhile Char.isDigit), rest.dropWhile Char.isDigit)

theorem readName_nodeName (n : Nat) {rest : List Char}
    (hrest : ∀ c ∈ rest.head?, c.isDigit = false) :
    readName ((nodeName n).toList ++ rest) = some (n, rest) := by
  obtain ⟨htake, hdrop⟩ := span_append (fun _ hc => Decimal.isDigit_of_mem_digits hc) hrest
  rw [readName, toList_nodeName, List.append_assoc, after?_append, Option.map_some, htake, hdrop,
    Decimal.ofDigits_digits]

namespace Statement

/-- Reads what is said of a node, from behind its name. -/
def readOf (n : Nat) (cs : List Char) : Option Statement :=
  match after? " [label=\"".toList cs with
  | some rest => (before? "\"];".toList rest).map fun label => .node n .plain (.ofList label)
  | none =>
    match after? " [shape=box, label=\"".toList cs with
    | some rest => (before? "\"];".toList rest).map fun label => .node n .box (.ofList label)
    | none =>
      match after? " -> ".toList cs with
      | some rest => (readName rest).bind fun p => if p.2 = [';'] then some (.edge n p.1) else none
      | none =>
        if cs = " [shape=circle, label=\"\", height=.2, width=.2];".toList then
          some (.node n .dot "")
        else none

/-- Reads a line. -/
def read? (line : String) : Option Statement :=
  (readName line.toList).bind fun p => readOf p.1 p.2

theorem read?_of_toList {line : String} {n : Nat} {rest : List Char} {s : Statement}
    (hline : line.toList = (nodeName n).toList ++ rest)
    (hrest : ∀ c ∈ rest.head?, c.isDigit = false) (hread : readOf n rest = some s) :
    read? line = some s := by
  rw [read?, hline, readName_nodeName n hrest, Option.bind_some, hread]

/-- A node that is drawn as a dot has no label. -/
def Plain : Statement → Prop
  | .node _ style label => style = .dot → label = ""
  | .edge _ _ => True

/-- **A line says what it was written for.** -/
theorem read?_line {s : Statement} (h : s.Plain) : read? s.line = some s := by
  cases s with
  | node n style label =>
    cases style with
    | plain =>
      have hline : (line (.node n .plain label)).toList =
          (nodeName n).toList ++ (" [label=\"".toList ++ (label.toList ++ "\"];".toList)) := by
        simp [line, nodeLine]
      refine read?_of_toList hline (by simp) ?_
      rw [readOf, after?_append]
      simp only [before?_append, Option.map_some, String.ofList_toList]
    | box =>
      have hline : (line (.node n .box label)).toList = (nodeName n).toList ++
          (" [shape=box, label=\"".toList ++ (label.toList ++ "\"];".toList)) := by
        simp [line, nodeLine]
      have hplain : after? " [label=\"".toList
          (" [shape=box, label=\"".toList ++ (label.toList ++ "\"];".toList)) = none := rfl
      refine read?_of_toList hline (by simp) ?_
      rw [readOf, hplain, after?_append]
      simp only [before?_append, Option.map_some, String.ofList_toList]
    | dot =>
      obtain rfl : label = "" := h rfl
      have hline : (line (.node n .dot "")).toList =
          (nodeName n).toList ++ " [shape=circle, label=\"\", height=.2, width=.2];".toList := by
        simp [line, nodeLine]
      exact read?_of_toList hline (by simp) rfl
  | edge parent child =>
    have hline : (line (.edge parent child)).toList =
        (nodeName parent).toList ++ (" -> ".toList ++ ((nodeName child).toList ++ ";".toList)) := by
      simp [line, edgeLine]
    have hplain : after? " [label=\"".toList
        (" -> ".toList ++ ((nodeName child).toList ++ ";".toList)) = none := rfl
    have hbox : after? " [shape=box, label=\"".toList
        (" -> ".toList ++ ((nodeName child).toList ++ ";".toList)) = none := rfl
    refine read?_of_toList hline (by simp) ?_
    rw [readOf, hplain, hbox, after?_append]
    dsimp only
    rw [readName_nodeName child (by simp)]
    rfl

end Statement

/-! ## Putting trees together -/

/-- Reads a statement, with a stack of the trees so far: a node is a new tree, and an edge makes the
tree on top of the stack the last child of the next one. -/
def attach : List Outline → Statement → List Outline
  | stack, .node _ style label => .node style label [] :: stack
  | child :: .node style label children :: stack, .edge _ _ =>
    .node style label (children ++ [child]) :: stack
  | stack, .edge _ _ => stack

/-- The trees that lines tell of. -/
def rebuild (lines : List String) : List Outline :=
  ((lines.filterMap Statement.read?).foldl attach []).reverse

mutual

theorem foldl_attach_statements (n : Nat) (stack : List Outline) :
    ∀ t : Outline, (t.statements n).foldl attach stack = t :: stack
  | .node style label children => by
    rw [statements, List.foldl_cons, attach, foldl_attach_children n (n + 1) style label [] stack,
      List.nil_append]

theorem foldl_attach_children (parent n : Nat) (style : NodeStyle) (label : String)
    (front stack : List Outline) : ∀ ts : List Outline,
    (childStatements parent n ts).foldl attach (.node style label front :: stack) =
      .node style label (front ++ ts) :: stack
  | [] => by rw [childStatements, List.foldl_nil, List.append_nil]
  | t :: ts => by
    rw [childStatements, List.foldl_append, foldl_attach_statements n _ t, List.foldl_cons, attach,
      foldl_attach_children parent (n + t.size) style label (front ++ [t]) stack ts,
      List.append_assoc, List.singleton_append]

end

theorem foldl_attach_forest (n : Nat) (stack ts : List Outline) :
    (forestStatements n ts).foldl attach stack = ts.reverse ++ stack := by
  induction ts generalizing n stack with
  | nil => rfl
  | cons t ts ih =>
    rw [forestStatements, List.foldl_append, foldl_attach_statements, ih, List.reverse_cons,
      List.append_assoc, List.singleton_append]

end Outline

end FlatLisp
