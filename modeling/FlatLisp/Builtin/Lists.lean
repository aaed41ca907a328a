import FlatLisp.Builtin.Operation
import FlatLisp.Value.Chain

/-!
# Cells and lists
-/

namespace FlatLisp

namespace Builtin

/-- The head of a cell; nil of nil. -/
def headOf : Value → Result
  | .cell _ head _ => .ok (.value head)
  | .nil => .ok (.value .nil)
  | v => .error (.notCell .car v)

/-- The tail of a cell; nil of nil. -/
def tailOf : Value → Result
  | .cell _ _ tail => .ok (.value tail)
  | .nil => .ok (.value .nil)
  | v => .error (.notCell .cdr v)

/-- The element of a list at an index. The index is looked at first. -/
def element (v index : Value) : Result := do
  let i ← Builtin.nth.integerArgument 1 index
  if i < 0 then .error (.negativeIndex i)
  else
    match v.nth i.toNat with
    | .ok head => return .value head
    | .error reached => .error (.notList reached)

/-- The number of elements of a proper list. -/
def lengthOf (v : Value) : Result :=
  if v.isProper then .ok (.value (.number (.ofInt v.cellCount))) else .error (.notProper v)

end Builtin

end FlatLisp
