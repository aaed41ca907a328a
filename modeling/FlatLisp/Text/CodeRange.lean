/-!
# Ranges of code points

A table of a character property is a list of closed ranges.
-/

namespace FlatLisp

/-- The code points from `first` to `last`, both included. -/
structure CodeRange where
  first : Nat
  last : Nat

namespace CodeRange

def contains (r : CodeRange) (n : Nat) : Bool := decide (r.first ≤ n ∧ n ≤ r.last)

/-- The character lies in one of the ranges. -/
def anyContains (rs : List CodeRange) (c : Char) : Bool := rs.any (·.contains c.toNat)

end CodeRange

end FlatLisp
