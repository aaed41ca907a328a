import FlatLisp.Builtin
import FlatLisp.Number.Basic

/-!
# Forms and values

A program is a list of forms. A form is a literal, a symbol, an application, or one of the five
special forms. Programs are data: a literal holds any value, and a value may be a procedure,
whose body is a list of forms. The reader makes literals of numbers and strings only; whoever
puts forms together otherwise may use all others.

A value is an atom or a cell. Cells chain through their tails; a chain that ends in nil is a
proper list. A cell carries a stamp, its identity: a session never makes two cells with one
stamp, and every copy of a cell keeps it. It also carries a flag that says whether its chain is
proper. The flag is taken from the tail when the cell is made, so nobody has to walk to the end
of a chain to know it.
-/

namespace FlatLisp

/-- A function of the program: its name, parameters and body, which is a list of forms. -/
structure Procedure (F : Type) where
  name : String
  params : List String
  body : List F
deriving Inhabited

mutual

inductive Form where
  /-- A value that stands for itself. -/
  | literal (v : Value)
  | symbol (name : String)
  /-- Applies the first item to the others. -/
  | apply (items : List Form)
  | assign (target : String) (value : Form)
  | branch (test yes no : Form)
  | whileLoop (test : Form) (body : List Form)
  | forLoop (start test step : Form) (body : List Form)
  | define (name : String) (params : List String) (body : List Form)

inductive Atom where
  | number (x : Number)
  | string (s : String)
  | bool (b : Bool)
  | builtin (b : Builtin)
  | procedure (p : Procedure Form)
  | nil

inductive Value where
  | atom (a : Atom)
  | cell (stamp : Nat) (head tail : Value)
with
  /-- The chain ends in nil. -/
  @[computed_field] isProper : Value → Bool
    | .atom a => match a with
      | .nil => true
      | _ => false
    | .cell _ _ tail => tail.isProper

end

instance : Inhabited Form := ⟨.symbol ""⟩

instance : Inhabited Value := ⟨.atom .nil⟩

/-- Induction along the cells of a value. -/
@[induction_eliminator]
theorem Value.cell_induction {motive : Value → Prop} (atom : ∀ a, motive (.atom a))
    (cell : ∀ stamp head tail, motive head → motive tail → motive (.cell stamp head tail)) :
    ∀ v, motive v
  | .atom a => atom a
  | .cell stamp head tail =>
    cell stamp head tail (cell_induction atom cell head) (cell_induction atom cell tail)

/-- The forms directly inside a form, in the order of the text. -/
def Form.children : Form → List Form
  | .literal _ | .symbol _ => []
  | .apply items => items
  | .assign _ value => [value]
  | .branch test yes no => [test, yes, no]
  | .whileLoop test body => test :: body
  | .forLoop start test step body => start :: test :: step :: body
  | .define _ _ body => body

end FlatLisp
