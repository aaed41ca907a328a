import FlatLisp.Text.ClusterTable

/-!
# Clusters

What a reader takes for one character may be written with several: a letter and its marks, a
Korean syllable, a conjunct of consonants, a pair of flag letters, pictographs with joiners
between. `Cluster.split` cuts a text into such extended grapheme clusters, by the rules of
Unicode. Whether a character starts a new cluster depends on what is right before it, of
which a `Border` keeps just enough; so one pass over the text suffices.

`Cluster.split` stands for the library `unicode-segmentation`. What is proved about texts with
clusters takes any way to cut them, and uses of it no more than that nothing of the text is lost
(`Cluster.Documented`).
-/

namespace FlatLisp

namespace Cluster

/-- How a character behaves at the border of a cluster. -/
inductive Role where
  | other
  | carriageReturn
  | lineFeed
  | control
  | extender
  | joiner
  | spacingMark
  | prepended
  /-- A letter of which two in a row make a flag. -/
  | flagLetter
  /-- The parts of a Korean syllable. -/
  | leading | vowel | trailing
  /-- Whole Korean syllables, without and with a trailing consonant. -/
  | openSyllable | closedSyllable
deriving DecidableEq

/-- The Korean syllables stand in one block, each open one before its closed ones. -/
def syllableRole (n : Nat) : Role :=
  if (n - 0xAC00) % 28 = 0 then .openSyllable else .closedSyllable

def roleOf (c : Char) : Role :=
  let n := c.toNat
  if n = 0x0D then .carriageReturn
  else if n = 0x0A then .lineFeed
  else if 0x20 ≤ n ∧ n < 0x7F then .other
  else if CodeRange.anyContains controls c then .control
  else if n = 0x200D then .joiner
  else if CodeRange.anyContains extenders c then .extender
  else if CodeRange.anyContains spacingMarks c then .spacingMark
  else if CodeRange.anyContains prepended c then .prepended
  else if 0x1F1E6 ≤ n ∧ n ≤ 0x1F1FF then .flagLetter
  else if CodeRange.anyContains leadingJamo c then .leading
  else if CodeRange.anyContains vowelJamo c then .vowel
  else if CodeRange.anyContains trailingJamo c then .trailing
  else if 0xAC00 ≤ n ∧ n ≤ 0xD7A3 then syllableRole n
  else .other

/-- How far a sequence that may join to a further character has come. -/
inductive Chain where
  | absent
  /-- Its first character is there. -/
  | started
  /-- The sign that joins to a further character is there too. -/
  | linked
deriving DecidableEq

/-- What is right before a place in a text. -/
structure Border where
  /-- The role of the character before it. -/
  role : Role
  /-- A pictograph with its marks, and a joiner behind them. -/
  pictograph : Chain
  /-- A consonant with its marks, with a linker among them. -/
  conjunct : Chain
  /-- An odd number of flag letters in a row. -/
  oddFlags : Bool
deriving DecidableEq

namespace Border

/-- The start of a text. -/
def start : Border := ⟨.control, .absent, .absent, false⟩

/-- A character does not start a new cluster here. -/
def joins (b : Border) (c : Char) : Bool :=
  match b.role, roleOf c with
  | .carriageReturn, .lineFeed => true
  | .carriageReturn, _ | .lineFeed, _ | .control, _ => false
  | _, .carriageReturn | _, .lineFeed | _, .control => false
  | .leading, .leading | .leading, .vowel | .leading, .openSyllable
  | .leading, .closedSyllable => true
  | .openSyllable, .vowel | .openSyllable, .trailing | .vowel, .vowel | .vowel, .trailing => true
  | .closedSyllable, .trailing | .trailing, .trailing => true
  | _, .extender | _, .joiner | _, .spacingMark => true
  | .prepended, _ => true
  | .flagLetter, .flagLetter => b.oddFlags
  | _, _ =>
    (b.conjunct = .linked && CodeRange.anyContains consonants c) ||
      (b.pictograph = .linked && CodeRange.anyContains pictographs c)

/-- The pictographs before a place behind one more character, which is no pictograph. -/
def nextPictograph : Chain → Role → Chain
  | .started, .extender => .started
  | .started, .joiner => .linked
  | _, _ => .absent

/-- The conjunct before a place behind one more character, which is no consonant. The zero
width non-joiner is a mark that ends a conjunct. -/
def nextConjunct (conjunct : Chain) (role : Role) (c : Char) : Chain :=
  if conjunct = .absent then .absent
  else if CodeRange.anyContains linkers c then .linked
  else if (role = .extender ∨ role = .joiner) ∧ c.toNat ≠ 0x200C then conjunct
  else .absent

/-- The border behind one more character. -/
def next (b : Border) (c : Char) : Border :=
  let role := roleOf c
  { role
    pictograph :=
      if CodeRange.anyContains pictographs c then .started else nextPictograph b.pictograph role
    conjunct :=
      if CodeRange.anyContains consonants c then .started else nextConjunct b.conjunct role c
    oddFlags := role = .flagLetter && !b.oddFlags }

end Border

/-- The clusters of a text behind a border. `cluster` is the current cluster so far, last
character first. -/
def splitFrom (b : Border) (cluster : List Char) : List Char → List (List Char)
  | [] => if cluster = [] then [] else [cluster.reverse]
  | c :: cs =>
    if cluster = [] ∨ b.joins c then splitFrom (b.next c) (c :: cluster) cs
    else cluster.reverse :: splitFrom (b.next c) [c] cs

/-- The clusters of a text, in order. -/
def split (text : List Char) : List (List Char) := splitFrom .start [] text

theorem flatten_splitFrom (b : Border) (cluster text : List Char) :
    (splitFrom b cluster text).flatten = cluster.reverse ++ text := by
  fun_induction splitFrom b cluster text with
  | case1 b => rfl
  | case2 b cluster h => simp
  | case3 b cluster c cs h ih => simp [ih]
  | case4 b cluster c cs h ih => simp [ih]

/-- What is told to the users of a library that cuts texts into clusters: the clusters make up the
text. -/
structure Documented (split : List Char → List (List Char)) : Prop where
  flatten : ∀ text, (split text).flatten = text

theorem split_documented : Documented split where
  flatten text := by simp [split, flatten_splitFrom]

end Cluster

end FlatLisp
