import FlatLisp.Form.Printer

/-!
# Forms as a graph

The outline of a form is its tree with a label and a shape for every node. `Outline.graph`
writes outlines in the DOT language: nodes are numbered in preorder across all trees, the
lines of a child follow the line of its parent, and an edge line follows the lines of the
child that it leads to.
-/

namespace FlatLisp

/-- How a node is drawn. -/
inductive NodeStyle where
  /-- A leaf, drawn in the default shape. -/
  | plain
  | box
  /-- A small circle without a label. -/
  | dot
deriving DecidableEq, Inhabited

/-- A labelled tree. -/
inductive Outline where
  | node (style : NodeStyle) (label : String) (children : List Outline)
deriving Inhabited

/-- The label of a literal: a string stands between quotes that are escaped once more, another
value as it is printed. -/
def Value.label : Value → String
  | .string s => "\\\"" ++ Quoted.encode s ++ "\\\""
  | v => v.text

mutual

/-- The outline of a form. -/
def Form.outline : Form → Outline
  | .literal v => .node .plain v.label []
  | .symbol name => .node .plain name []
  | .apply items => .node .dot "" (Form.outlines items)
  | .assign target value => .node .box ("set " ++ target) [value.outline]
  | .branch test yes no => .node .box "if" [test.outline, yes.outline, no.outline]
  | .whileLoop test body => .node .box "while" (test.outline :: Form.outlines body)
  | .forLoop start test step body =>
    .node .box "for" (start.outline :: test.outline :: step.outline :: Form.outlines body)
  | .define name params body =>
    .node .box ("defn " ++ name ++ " (" ++ " ".intercalate params ++ ")") (Form.outlines body)

/-- The outlines of a list of forms. -/
def Form.outlines : List Form → List Outline
  | [] => []
  | f :: fs => f.outline :: Form.outlines fs

end

namespace Outline

mutual

/-- The number of nodes of a tree. -/
def size : Outline → Nat
  | .node _ _ children => 1 + sizeAll children

/-- The number of nodes of a list of trees. -/
def sizeAll : List Outline → Nat
  | [] => 0
  | t :: ts => t.size + sizeAll ts

end

/-- The name of the node with the given number. -/
def nodeName (n : Nat) : String := "node" ++ toString n

/-- The line that declares a node. -/
def nodeLine (n : Nat) (style : NodeStyle) (label : String) : String :=
  nodeName n ++ match style with
  | .plain => " [label=\"" ++ label ++ "\"];"
  | .box => " [shape=box, label=\"" ++ label ++ "\"];"
  | .dot => " [shape=circle, label=\"\", height=.2, width=.2];"

/-- The line that declares an edge. -/
def edgeLine (parent child : Nat) : String := nodeName parent ++ " -> " ++ nodeName child ++ ";"

mutual

/-- The lines of a tree whose root has number `n`. -/
def lines (n : Nat) : Outline → List String
  | .node style label children => nodeLine n style label :: childLines n (n + 1) children

/-- The lines of the children of node `parent`, the first of which has number `n`. -/
def childLines (parent n : Nat) : List Outline → List String
  | [] => []
  | t :: ts => t.lines n ++ edgeLine parent n :: childLines parent (n + t.size) ts

end

/-- The lines of several trees, the first of which has number `n`. -/
def forestLines (n : Nat) : List Outline → List String
  | [] => []
  | t :: ts => t.lines n ++ forestLines (n + t.size) ts

/-- The settings that hold for the whole graph, behind an empty line. -/
def settings : List String :=
  ["",
   "        graph [fontname = \"monospace\"];",
   "        node [fontname = \"monospace\"];",
   "        edge [fontname = \"monospace\"];"]

/-- Several trees as one graph in the DOT language. -/
def graph (ts : List Outline) : String :=
  "\n".intercalate ("digraph G \x7b" :: settings ++ forestLines 0 ts ++ ["\x7d"])

end Outline

end FlatLisp
