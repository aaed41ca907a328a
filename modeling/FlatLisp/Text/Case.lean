import FlatLisp.Text.CaseTable

/-!
# Upper and lower case

The full case mappings of Unicode: a character may become several, and a capital sigma
becomes a final sigma where a word ends. A word ends at a sigma if, passing over
case-ignorable characters, a cased character stands before it and none after it.
-/

namespace FlatLisp

namespace Case

/-- The run maps this code point. -/
def CaseRun.covers (r : CaseRun) (n : Nat) : Bool :=
  decide (r.first ≤ n ∧ n ≤ r.last ∧ (n - r.first) % r.step = 0)

/-- The image of a code point under a pair of tables; itself if neither holds it. -/
def mapped (runs : List CaseRun) (sequences : List (Nat × List Nat)) (n : Nat) : List Nat :=
  match runs.find? (·.covers n) with
  | some r => [(n + r.shift).toNat]
  | none => (sequences.lookup n).getD [n]

def upperChar (c : Char) : List Char :=
  (mapped upperRuns upperSequences c.toNat).map Char.ofNat

def lowerChar (c : Char) : List Char :=
  (mapped lowerRuns lowerSequences c.toNat).map Char.ofNat

/-- The first character that is not case-ignorable is there and is cased. -/
def casedAhead : List Char → Bool
  | [] => false
  | c :: cs =>
    if CodeRange.anyContains ignorable c then casedAhead cs else CodeRange.anyContains cased c

/-- Lower case of a text. `before` is the text before it and `out` the result so far, both
last character first. -/
def lowerFrom (before out : List Char) : List Char → List Char
  | [] => out.reverse
  | c :: cs =>
    let image :=
      if c = 'Σ' then if casedAhead before && !casedAhead cs then ['ς'] else ['σ']
      else lowerChar c
    lowerFrom (c :: before) (image.reverse ++ out) cs

def upper (s : String) : String := String.ofList (s.toList.flatMap upperChar)

def lower (s : String) : String := String.ofList (lowerFrom [] [] s.toList)

end Case

end FlatLisp
