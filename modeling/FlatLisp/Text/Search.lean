/-!
# Search in text

Occurrences of a non-empty pattern, taken leftmost first and without overlap. `split` cuts a
text at them and `replace` puts another text in their place. Both walk the text once; a
found occurrence is passed over by counting its remaining characters.
-/

namespace FlatLisp

namespace Search

/-- The pattern occurs somewhere in the text. -/
def occurs (pattern : List Char) : List Char → Bool
  | [] => pattern.isEmpty
  | c :: cs => pattern.isPrefixOf (c :: cs) || occurs pattern cs

/-- Cuts a text at the pattern. `piece` is the current piece so far, last character first,
and `skip` counts the characters of the last occurrence that are still ahead. -/
def splitFrom (pattern : List Char) (piece : List Char) : Nat → List Char → List (List Char)
  | _, [] => [piece.reverse]
  | skip + 1, _ :: cs => splitFrom pattern piece skip cs
  | 0, c :: cs =>
    if pattern.isPrefixOf (c :: cs) then
      piece.reverse :: splitFrom pattern [] (pattern.length - 1) cs
    else splitFrom pattern (c :: piece) 0 cs

/-- The pieces of a text between the occurrences of a non-empty pattern. -/
def split (pattern text : List Char) : List (List Char) := splitFrom pattern [] 0 text

/-- Replaces the pattern. `out` is the result so far, last character first, and `skip`
counts the characters of the last occurrence that are still ahead. -/
def replaceFrom (pattern new : List Char) (out : List Char) : Nat → List Char → List Char
  | _, [] => out.reverse
  | skip + 1, _ :: cs => replaceFrom pattern new out skip cs
  | 0, c :: cs =>
    if pattern.isPrefixOf (c :: cs) then
      replaceFrom pattern new (new.reverse ++ out) (pattern.length - 1) cs
    else replaceFrom pattern new (c :: out) 0 cs

/-- The text with `new` in the place of every occurrence of a non-empty pattern. -/
def replace (pattern new text : List Char) : List Char := replaceFrom pattern new [] 0 text

end Search

end FlatLisp
