import FlatLisp.Builtin.Arithmetic
import FlatLisp.Builtin.Lists
import FlatLisp.Builtin.Texts
import FlatLisp.Value.Equality

/-!
# Calling builtins

The operation of every builtin, and its call in a session.
-/

namespace FlatLisp

namespace Builtin

/-- What a builtin does. Templates are filled in with a library of regular expressions. -/
def operation (b : Builtin) (E : Template.Expressions := .plain) : Operation :=
  match b with
  | .add => add.onNumbers fun l r => .number (l.add r)
  | .sub => sub.onNumbers fun l r => .number (l.sub r)
  | .mul => mul.onNumbers fun l r => .number (l.mul r)
  | .div => div.onNumbers fun l r => .number (l.div r)
  | .modulo => modulo.onIntegers remainder
  | .bitAnd => bitAnd.onBits fun l r => l &&& r
  | .bitOr => bitOr.onBits fun l r => l ||| r
  | .bitXor => bitXor.onBits fun l r => l ^^^ r
  | .bitClear => bitClear.onBits fun l r => l &&& ~~~r
  | .shiftRight => shiftRight.shift Number.shiftRight
  | .shiftLeft => shiftLeft.shift Number.shiftLeft
  | .equal => .binary fun v w => .ok (.value (.bool (v.same w)))
  | .and => .binary fun v w => .ok (.value (.bool (v.truthy && w.truthy)))
  | .or => .binary fun v w => .ok (.value (.bool (v.truthy || w.truthy)))
  | .not => .unary fun v => .ok (.value (.bool (!v.truthy)))
  | .greater => greater.onNumbers fun l r => .bool (r.less l)
  | .less => less.onNumbers fun l r => .bool (l.less r)
  | .print => .variadic fun vs => .ok (.print (Value.joinedText vs ++ "\n"))
  | .cons => .binary fun head tail => .ok (.cell head tail)
  | .car => .unary headOf
  | .cdr => .unary tailOf
  | .list => .variadic fun vs => .ok (.list vs)
  | .nth => .binary element
  | .length => .unary lengthOf
  | .typeOf => .unary fun v => .ok (.value (.string v.kind.name))
  | .contains => contains.onStrings fun s t =>
      .value (.bool (Search.occurs t.toList s.toList))
  | .startsWith => startsWith.onStrings fun s t =>
      .value (.bool (t.toList.isPrefixOf s.toList))
  | .endsWith => endsWith.onStrings fun s t =>
      .value (.bool (t.toList.isSuffixOf s.toList))
  | .join => .binary joined
  | .split => split.onStrings fun s t => .list ((pieces s t).map Value.string)
  | .replace => .ternary replaced
  | .upper => upper.onString fun s => .string (Case.upper s)
  | .lower => lower.onString fun s => .string (Case.lower s)
  | .concat => .variadic fun vs => .ok (.value (.string (String.join (vs.map Value.text))))
  | .format => .atLeastOne (formatted E)

/-- Calls a builtin in a session. -/
def call (b : Builtin) (arguments : List Value) (s : Session)
    (E : Template.Expressions := .plain) : Except RuntimeError Value × Session :=
  match (b.operation E).apply b.name arguments with
  | .ok y =>
    let (v, s) := s.receive y
    (.ok v, s)
  | .error e => (.error e, s)

section Call

variable {b : Builtin} {arguments : List Value} {s : Session} {E : Template.Expressions}

theorem call_value {v : Value} (h : (b.operation E).apply b.name arguments = .ok (.value v)) :
    b.call arguments s E = (.ok v, s) := by
  simp only [call, h, Session.receive_value]

theorem call_list {vs : List Value} (h : (b.operation E).apply b.name arguments = .ok (.list vs)) :
    b.call arguments s E =
      (.ok (.ofList s.nextStamp vs .nil), { s with nextStamp := s.nextStamp + vs.length }) := by
  simp only [call, h, Session.receive_list]

theorem call_error {e : RuntimeError} (h : (b.operation E).apply b.name arguments = .error e) :
    b.call arguments s E = (.error e, s) := by
  simp only [call, h]

end Call

end Builtin

namespace Environment

/-- The environment in which builtins are bound to their names. -/
def withBuiltins (e : Environment) (bs : List Builtin) : Environment :=
  e.defineAll (bs.map fun b => (b.name, .builtin b))

/-- The bindings of every fresh session. -/
def core : Environment :=
  ((empty.withBuiltins Builtin.core).define "t" (.bool true)).define "nil" .nil

/-- The core and the standard library. -/
def standard : Environment := core.withBuiltins Builtin.library

end Environment

end FlatLisp
