import FlatLisp.Value

/-!
# Chains of cells

The views of a chain: the heads of its cells in order (`heads`), the atom that it ends in
(`last`), the number of its cells (`cellCount`), and the value behind an index (`nth`).
`ofList` builds a chain of fresh cells.
-/

namespace FlatLisp

namespace Value

/-- The heads of a chain, behind those of `found`, which has the last one first. -/
def headsFrom (found : List Value) : Value → List Value
  | .atom _ => found.reverse
  | .cell _ head tail => headsFrom (head :: found) tail

/-- The heads of the cells of a chain, in order. -/
def heads (v : Value) : List Value := headsFrom [] v

/-- The atom that a chain ends in. -/
def last : Value → Atom
  | .atom a => a
  | .cell _ _ tail => tail.last

/-- The number of cells of a chain, added to `n`. -/
def countFrom (n : Nat) : Value → Nat
  | .atom _ => n
  | .cell _ _ tail => countFrom (n + 1) tail

/-- The number of cells of a chain. -/
def cellCount (v : Value) : Nat := countFrom 0 v

/-- The head of the cell with an index. Behind the end of a proper list there is nil, and
another end is returned as the reason why there is nothing. -/
def nth : Nat → Value → Except Atom Value
  | 0, .cell _ head _ => .ok head
  | n + 1, .cell _ _ tail => nth n tail
  | _, .nil => .ok .nil
  | _, .atom a => .error a

/-- Puts cells in front of a chain; `items` has the head of the last cell first. The cells
are stamped upward from `stamp`. -/
def prepend (stamp : Nat) : List Value → Value → Value
  | [], tail => tail
  | head :: items, tail => prepend (stamp + 1) items (.cell stamp head tail)

/-- A chain of fresh cells for `items` in front of `tail`, stamped upward from `stamp`. -/
def ofList (stamp : Nat) (items : List Value) (tail : Value) : Value :=
  prepend stamp items.reverse tail

end Value

end FlatLisp
