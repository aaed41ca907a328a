import FlatLisp.Builtin.Operation
import FlatLisp.Template
import FlatLisp.Text.Case
import FlatLisp.Text.Search
import FlatLisp.Value.Chain

/-!
# Text
-/

namespace FlatLisp

namespace Builtin

/-- An operation on one string. -/
def onString (b : Builtin) (f : String → Value) : Operation :=
  .unary fun s => do
    let s ← b.stringArgument 0 s
    return .value (f s)

/-- An operation on two strings. -/
def onStrings (b : Builtin) (f : String → String → Yield) : Operation :=
  .binary fun s t => do
    let s ← b.stringArgument 0 s
    let t ← b.stringArgument 1 t
    return f s t

/-- The pieces of a text between occurrences of a separator; its characters if the separator
is empty. -/
def pieces (s separator : String) : List String :=
  if separator = "" then s.toList.map String.singleton
  else (Search.split separator.toList s.toList).map String.ofList

/-- The strings of a list of values, up to the first that is none. -/
def stringsOf : List Value → Except RuntimeError (List String)
  | [] => .ok []
  | .string s :: vs => (stringsOf vs).map (s :: ·)
  | v :: _ => .error (.joinWithOther v.kind)

/-- The strings of a proper list, with a separator between them. The separator is looked at
first. -/
def joined (v separator : Value) : Result := do
  let separator ← Builtin.join.stringArgument 1 separator
  if v.isProper then
    let parts ← stringsOf v.heads
    return .value (.string (separator.intercalate parts))
  else .error (.joinOfOther v.kind)

/-- The text with a new text in the place of every occurrence of an old one. An empty old
text occurs nowhere. -/
def replaced (s old new : Value) : Result := do
  let s ← Builtin.replace.stringArgument 0 s
  let old ← Builtin.replace.stringArgument 1 old
  let new ← Builtin.replace.stringArgument 2 new
  if old = "" then return .value (.string s)
  else return .value (.string (.ofList (Search.replace old.toList new.toList s.toList)))

/-- The key of a pair and the text to fill in for it. -/
def pairOf : Value → Except RuntimeError (String × String)
  | .cell _ (.string key) tail => .ok (key, tail.text)
  | .cell _ head _ => .error (.badKey head)
  | v => .error (.badPair v)

/-- Fills in pairs of keys and values one after another. -/
def filled (E : Template.Expressions) (template : String) : List Value → Except RuntimeError String
  | [] => .ok template
  | pair :: pairs =>
    match pairOf pair with
    | .ok (key, text) => filled E (E.fill template key text) pairs
    | .error e => .error e

/-- A template with the pairs filled in. -/
def formatted (E : Template.Expressions) (template : Value) (pairs : List Value) : Result := do
  let template ← Builtin.format.stringArgument 0 template
  let text ← filled E template pairs
  return .value (.string text)

end Builtin

end FlatLisp
