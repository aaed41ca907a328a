import FlatLisp.Text.Search

/-!
# Templates

A template holds placeholders `%{key}`. Filling in a key puts a text in the place of its
placeholders, character by character as it is. They are found by a regular expression in which
the key is escaped. If the library of regular expressions does not take that expression, the
placeholders of the key stay.

The library is a parameter (`Template.Expressions`) and stands for `regex`; programs run with
`Expressions.plain`, which knows the expressions that stand for texts.
-/

namespace FlatLisp

-- powers are the core ones, whatever else is imported
attribute [local instance (high)] instPowNat

namespace Template

/-- The placeholder of a key. -/
def placeholder (key : String) : String := "%\x7b" ++ key ++ "\x7d"

/-- A library of regular expressions, as far as templates need one. -/
structure Expressions where
  Compiled : Type
  /-- A text as it is written to stand for itself. -/
  escape : String → String
  /-- Fails on what is no expression, and on an expression that is too large. -/
  compile? : String → Option Compiled
  /-- Puts a text as it is in the place of what the expression matches in another one. -/
  replaceAll : Compiled → String → String → String

namespace Expressions

/-- The expression for the placeholder of a key. -/
def pattern (E : Expressions) (key : String) : String := "%\\\x7b" ++ E.escape key ++ "\\\x7d"

/-- The library takes the expression for the placeholder. -/
def Fits (E : Expressions) (key : String) : Prop := (E.compile? (E.pattern key)).isSome

instance (E : Expressions) (key : String) : Decidable (E.Fits key) :=
  inferInstanceAs (Decidable (_ = true))

/-- Fills in one key of a template. -/
def fill (E : Expressions) (template key text : String) : String :=
  match E.compile? (E.pattern key) with
  | some e => E.replaceAll e text template
  | none => template

end Expressions

/-! ## Expressions for texts -/

/-- The characters that do not stand for themselves in an expression. -/
def metacharacters : List Char := "\\.+*?()|[]\x7b\x7d^$#&-~".toList

/-- A character as it is written to stand for itself. -/
def escapeChar (c : Char) : List Char := if c ∈ metacharacters then ['\\', c] else [c]

/-- The text that an expression stands for if all it holds are characters that stand for
themselves. -/
def literal? : List Char → Option (List Char)
  | [] => some []
  | [c] => if c ∈ metacharacters then none else some [c]
  | c :: d :: cs =>
    if c = '\\' then if d ∈ metacharacters then (literal? cs).map (d :: ·) else none
    else if c ∈ metacharacters then none else (literal? (d :: cs)).map (c :: ·)

/-- The greatest size in bytes of a text that an expression stands for: a compiled expression may
take 10 MiB, and takes 32 bytes for each of the text. -/
def expressionLimit : Nat := 10 * 2 ^ (20 : Nat) / 32

/-- A library that takes the expressions for texts. -/
def Expressions.plain : Expressions where
  Compiled := List Char
  escape s := .ofList (s.toList.flatMap escapeChar)
  compile? s := (literal? s.toList).filter fun w => (String.ofList w).utf8ByteSize ≤ expressionLimit
  replaceAll w new text := .ofList (Search.replace w new.toList text.toList)

end Template

end FlatLisp
