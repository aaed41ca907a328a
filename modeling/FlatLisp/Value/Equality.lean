import FlatLisp.Value

/-!
# Equality of values

Values are compared by structure: numbers by value, builtins by name, procedures by
parameters and body, and forms part by part. Two cells with equal heads and one stamp are equal
without a look at their tails. This shows only where a tail holds a NaN, which differs from
itself.
-/

namespace FlatLisp

mutual

/-- Equality of forms, with literals compared as values. -/
def Form.same : Form → Form → Bool
  | .literal v, .literal w => v.same w
  | .symbol n, .symbol m => n == m
  | .apply fs, .apply gs => Form.sameAll fs gs
  | .assign n f, .assign m g => n == m && f.same g
  | .branch f₁ f₂ f₃, .branch g₁ g₂ g₃ => f₁.same g₁ && f₂.same g₂ && f₃.same g₃
  | .whileLoop f fs, .whileLoop g gs => f.same g && Form.sameAll fs gs
  | .forLoop f₁ f₂ f₃ fs, .forLoop g₁ g₂ g₃ gs =>
    f₁.same g₁ && f₂.same g₂ && f₃.same g₃ && Form.sameAll fs gs
  | .define n ps fs, .define m qs gs => n == m && ps == qs && Form.sameAll fs gs
  | _, _ => false
termination_by structural f => f

/-- Equality of lists of forms, item by item. -/
def Form.sameAll : List Form → List Form → Bool
  | [], [] => true
  | f :: fs, g :: gs => f.same g && Form.sameAll fs gs
  | _, _ => false
termination_by structural fs => fs

/-- Two procedures take the same parameters and have equal bodies. Their names do not count. -/
def Procedure.same (p q : Procedure Form) : Bool :=
  p.params == q.params && Form.sameAll p.body q.body
termination_by structural p

def Atom.same : Atom → Atom → Bool
  | .number x, .number y => x.same y
  | .string s, .string t => s == t
  | .bool a, .bool b => a == b
  | .builtin a, .builtin b => a == b
  | .procedure p, .procedure q => p.same q
  | .nil, .nil => true
  | _, _ => false
termination_by structural a => a

/-- Equality as programs see it. -/
def Value.same : Value → Value → Bool
  | .atom a, .atom b => a.same b
  | .cell i head tail, .cell j head' tail' => head.same head' && (i == j || tail.same tail')
  | _, _ => false
termination_by structural v => v

end

end FlatLisp
