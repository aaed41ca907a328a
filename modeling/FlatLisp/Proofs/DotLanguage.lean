import FlatLisp.Text.Quoted
import Mathlib.Data.List.Basic

/-!
# The DOT language

The part of the DOT language that drawings are written in. A scanner cuts a text into tokens, one
character after the other, and the tokens of a digraph are statements between braces. A quoted
string ends at the first quote that no backslash protects.

* `Dot.unquote_iff`: **a text between quotes is read as it stands** if and only if it is closed: no
  quote in it and no backslash at its end is unprotected.
* `Dot.Scans.append`: texts are scanned one after the other.
* `Dot.isDigraph_of_lines`: a text is a digraph if its lines are statements.
-/

namespace FlatLisp.Dot

/-! ## Quoted strings -/

/-- Where a scanner is inside a quoted string. -/
inductive Inside where
  | plain
  /-- Behind a backslash. What it protects is a quote or a backslash, but any other character
  would not end the string either. -/
  | escaped
deriving DecidableEq

namespace Inside

/-- Reads a character inside a quoted string, unless it ends the string. -/
def next : Inside → Char → Option Inside
  | .plain, c => if c = '"' then none else if c = '\\' then some .escaped else some .plain
  | .escaped, _ => some .plain

/-- Reads a text inside a quoted string, unless a character of it ends the string. -/
def run (q : Inside) : List Char → Option Inside
  | [] => some q
  | c :: cs => (q.next c).bind fun q => q.run cs

variable {q : Inside} {cs ds : List Char} {c : Char}

theorem run_append (q : Inside) (cs ds : List Char) :
    q.run (cs ++ ds) = (q.run cs).bind fun q => q.run ds := by
  induction cs generalizing q with
  | nil => rfl
  | cons c cs ih =>
    rw [List.cons_append, run, run, Option.bind_assoc]
    exact Option.bind_congr fun q _ => ih q

theorem run_plain (h : ∀ c ∈ cs, c ≠ '"' ∧ c ≠ '\\') : plain.run cs = some .plain := by
  induction cs with
  | nil => rfl
  | cons c cs ih =>
    obtain ⟨⟨hq, hb⟩, hcs⟩ := List.forall_mem_cons.1 h
    rw [run, next, if_neg hq, if_neg hb, Option.bind_some, ih hcs]

/-- Behind a character of no meaning nothing is protected. -/
theorem run_through (hc : c ≠ '"' ∧ c ≠ '\\') (cs ds : List Char) :
    plain.run (cs ++ c :: ds) = (plain.run cs).bind fun _ => plain.run ds := by
  rw [run_append]
  refine Option.bind_congr fun q _ => ?_
  cases q with
  | plain => rw [run, next, if_neg hc.1, if_neg hc.2, Option.bind_some]
  | escaped => rfl

end Inside

/-- Reads a quoted string from behind its opening quote: what stands in it, and what follows its
closing quote. -/
def unquote (q : Inside) : List Char → Option (List Char × List Char)
  | [] => none
  | c :: cs =>
    match q.next c with
    | none => some ([], cs)
    | some q => (unquote q cs).map fun p => (c :: p.1, p.2)

/-- The text stands between quotes as it is. -/
def Closed (cs : List Char) : Prop := Inside.plain.run cs = some .plain

/-- No quote in the text ends a string that it stands in. -/
def Contained (cs : List Char) : Prop := (Inside.plain.run cs).isSome = true

instance (cs : List Char) : Decidable (Closed cs) := inferInstanceAs (Decidable (_ = _))

instance (cs : List Char) : Decidable (Contained cs) := inferInstanceAs (Decidable (_ = _))

theorem unquote_iff_run (q : Inside) (cs rest : List Char) :
    unquote q (cs ++ '"' :: rest) = some (cs, rest) ↔ q.run cs = some .plain := by
  induction cs generalizing q with
  | nil =>
    cases q with
    | plain => exact iff_of_true rfl rfl
    | escaped => simp [unquote, Inside.next, Inside.run]
  | cons c cs ih =>
    rw [List.cons_append, unquote, Inside.run]
    cases hnext : q.next c with
    | none => simp
    | some q =>
      rw [Option.bind_some, ← ih q]
      simp [Option.map_eq_some_iff, Prod.ext_iff]

/-- **A text between quotes is read as it stands** if and only if it is closed. -/
theorem unquote_iff (cs rest : List Char) :
    unquote .plain (cs ++ '"' :: rest) = some (cs, rest) ↔ Closed cs :=
  unquote_iff_run .plain cs rest

/-- Without backslashes it is the quotes that matter. -/
theorem run_of_notMem {cs : List Char} (h : '\\' ∉ cs) :
    Inside.plain.run cs = if '"' ∈ cs then none else some .plain := by
  induction cs with
  | nil => rfl
  | cons c cs ih =>
    rw [List.mem_cons, not_or] at h
    rw [Inside.run, Inside.next, if_neg (Ne.symm h.1)]
    by_cases hc : c = '"'
    · rw [if_pos hc, hc, if_pos List.mem_cons_self, Option.bind_none]
    · rw [if_neg hc, Option.bind_some, ih h.2]
      simp only [List.mem_cons, Ne.symm hc, false_or]

theorem closed_iff_of_notMem {cs : List Char} (h : '\\' ∉ cs) : Closed cs ↔ '"' ∉ cs := by
  rw [Closed, run_of_notMem h]
  simp

theorem contained_iff_of_notMem {cs : List Char} (h : '\\' ∉ cs) : Contained cs ↔ '"' ∉ cs := by
  rw [Contained, run_of_notMem h]
  simp

/-! ## Tokens -/

inductive Token where
  | keyword (word : String)
  | id
  | mark (c : Char)
  | arrow
deriving DecidableEq

def keywords : List String := ["node", "edge", "graph", "digraph", "subgraph", "strict"]

/-- Letters, digits and underscores, of which the first one is no digit. -/
def isIdentifier : List Char → Bool
  | [] => false
  | c :: cs => (c.isAlpha || c = '_') && cs.all fun c => c.isAlphanum || c = '_'

/-- Digits with at most one point, and not the point alone. -/
def isNumeral (w : List Char) : Bool :=
  w.any Char.isDigit && match w.dropWhile Char.isDigit with
    | [] => true
    | c :: cs => c = '.' && cs.all Char.isDigit

/-- The token that a word is. Case does not matter in keywords. -/
def word? (w : List Char) : Option Token :=
  if .ofList (w.map Char.toLower) ∈ keywords then some (.keyword (.ofList (w.map Char.toLower)))
  else if isIdentifier w || isNumeral w then some .id
  else none

/-- Where a scanner is in a text. -/
inductive Mode where
  | between
  /-- Behind the first characters of a word. -/
  | word (w : List Char)
  | quoted (q : Inside)
  /-- Behind the first character of an arrow. -/
  | dash
deriving DecidableEq

def isWordChar (c : Char) : Bool := c.isAlphanum || c = '_' || c = '.'

/-- Reads the first character of a token, or one between tokens. -/
def start (c : Char) : Option (List Token × Mode) :=
  if c ∈ [' ', '\n', '\t', '\r'] then some ([], .between)
  else if c ∈ ['\x7b', '\x7d', '[', ']', ';', ',', '='] then some ([.mark c], .between)
  else if c = '"' then some ([], .quoted .plain)
  else if c = '-' then some ([], .dash)
  else if isWordChar c then some ([], .word [c])
  else none

/-- Reads a character: the tokens that end, and where the scanner is then. -/
def Mode.next : Mode → Char → Option (List Token × Mode)
  | .between, c => start c
  | .word w, c =>
    if isWordChar c then some ([], .word (w ++ [c]))
    else (word? w).bind fun t => (start c).map fun p => (t :: p.1, p.2)
  | .quoted q, c =>
    match q.next c with
    | none => some ([.id], .between)
    | some q => some ([], .quoted q)
  | .dash, c => if c = '>' then some ([.arrow], .between) else none

/-- Reads a text. -/
def scan (m : Mode) : List Char → Option (List Token × Mode)
  | [] => some ([], m)
  | c :: cs => (m.next c).bind fun p => (scan p.2 cs).map fun q => (p.1 ++ q.1, q.2)

/-- The text has these tokens. The end of the text ends a word. -/
def Tokens (cs : List Char) (ts : List Token) : Prop :=
  scan .between (cs ++ ['\n']) = some (ts, .between)

/-- From one place to another one the scanner reads these tokens. -/
def Scans (m : Mode) (cs : List Char) (ts : List Token) (m' : Mode) : Prop :=
  scan m cs = some (ts, m')

instance (m : Mode) (cs : List Char) (ts : List Token) (m' : Mode) : Decidable (Scans m cs ts m') :=
  inferInstanceAs (Decidable (_ = _))

variable {m m₁ m₂ : Mode} {cs ds : List Char} {ts us : List Token} {c : Char}

/-- Texts are scanned one after the other. -/
theorem Scans.append (h : Scans m cs ts m₁) (h' : Scans m₁ ds us m₂) :
    Scans m (cs ++ ds) (ts ++ us) m₂ := by
  induction cs generalizing m ts with
  | nil =>
    obtain ⟨rfl, rfl⟩ : [] = ts ∧ m = m₁ := by simpa [Scans, scan] using h
    exact h'
  | cons c cs ih =>
    rw [Scans, scan, Option.bind_eq_some_iff] at h
    obtain ⟨⟨us₁, m'⟩, hnext, h⟩ := h
    obtain ⟨⟨us₂, m''⟩, hcs, he⟩ := Option.map_eq_some_iff.1 h
    obtain ⟨rfl, rfl⟩ := Prod.mk.inj he
    rw [Scans, List.cons_append, scan, hnext, Option.bind_some]
    have hds : scan m' (cs ++ ds) = some (us₂ ++ us, m₂) := ih hcs
    rw [hds, Option.map_some, List.append_assoc]

/-- The inside of a quoted string has no tokens. -/
theorem Scans.quoted {q q' : Inside} (h : q.run cs = some q') :
    Scans (.quoted q) cs [] (.quoted q') := by
  induction cs generalizing q with
  | nil =>
    obtain rfl := Option.some.inj h
    rfl
  | cons c cs ih =>
    rw [Inside.run, Option.bind_eq_some_iff] at h
    obtain ⟨q₁, hnext, hcs⟩ := h
    have hstep : (Mode.quoted q).next c = some ([], .quoted q₁) := by rw [Mode.next, hnext]
    have hrest : scan (.quoted q₁) cs = some ([], .quoted q') := ih hcs
    rw [Scans, scan, hstep, Option.bind_some, hrest]
    rfl

theorem Scans.word (h : ∀ c ∈ cs, isWordChar c = true) (w : List Char) :
    Scans (.word w) cs [] (.word (w ++ cs)) := by
  induction cs generalizing w with
  | nil => rw [List.append_nil]; rfl
  | cons c cs ih =>
    obtain ⟨hc, hcs⟩ := List.forall_mem_cons.1 h
    have hstep : (Mode.word w).next c = some ([], .word (w ++ [c])) := if_pos hc
    have hrest : scan (.word (w ++ [c])) cs = some ([], .word (w ++ [c] ++ cs)) := ih hcs (w ++ [c])
    rw [Scans, scan, hstep, Option.bind_some, hrest, List.append_assoc]
    rfl

/-! ## Digraphs -/

/-- The attributes between brackets. -/
inductive Attributes : List Token → Prop
  | nil : Attributes []
  | one : Attributes [.id, .mark '=', .id]
  | cons {ts : List Token} : Attributes ts → Attributes (.id :: .mark '=' :: .id :: .mark ',' :: ts)

inductive AttributeLists : List Token → Prop
  | nil : AttributeLists []
  | cons {ts us : List Token} : Attributes ts → AttributeLists us →
    AttributeLists (.mark '[' :: ts ++ .mark ']' :: us)

/-- A statement of a graph: a node, an edge, or the attributes that the graph, its nodes or its
edges have from there on. -/
inductive Statement : List Token → Prop
  | node {ts : List Token} : AttributeLists ts → Statement (.id :: ts)
  | edge {ts : List Token} : AttributeLists ts → Statement (.id :: .arrow :: .id :: ts)
  | settings {word : String} {ts : List Token} : word ∈ ["graph", "node", "edge"] → ts ≠ [] →
    AttributeLists ts → Statement (.keyword word :: ts)

inductive Statements : List Token → Prop
  | nil : Statements []
  | cons {ts us : List Token} : Statement ts → Statements us → Statements (ts ++ .mark ';' :: us)

inductive Digraph : List Token → Prop
  | mk {ts : List Token} : Statements ts →
    Digraph (.keyword "digraph" :: .id :: .mark '\x7b' :: ts ++ [.mark '\x7d'])

/-- The text is a directed graph. -/
def IsDigraph (text : String) : Prop := ∃ ts, Tokens text.toList ts ∧ Digraph ts

/-- What stands on the line is statements. -/
def IsLine (line : String) : Prop := ∃ ts, Scans .between line.toList ts .between ∧ Statements ts

theorem Attributes.list (h : Attributes ts) : AttributeLists (.mark '[' :: ts ++ [.mark ']']) :=
  .cons h .nil

theorem Statement.line {line : String} (h : Statement ts)
    (hscan : Scans .between line.toList (ts ++ [.mark ';']) .between) : IsLine line :=
  ⟨_, hscan, .cons h .nil⟩

theorem Statements.append (ht : Statements ts) (hu : Statements us) : Statements (ts ++ us) := by
  induction ht with
  | nil => exact hu
  | cons hs _ ih =>
    rw [List.append_assoc, List.cons_append]
    exact .cons hs ih

theorem scans_lines {lines : List String} (h : ∀ line ∈ lines, IsLine line) :
    ∃ ts, Scans .between (lines.flatMap fun line => '\n' :: line.toList) ts .between ∧
      Statements ts := by
  induction lines with
  | nil => exact ⟨[], rfl, .nil⟩
  | cons line lines ih =>
    obtain ⟨⟨ts, hts, hs⟩, hlines⟩ := List.forall_mem_cons.1 h
    obtain ⟨us, hus, hs'⟩ := ih hlines
    have hend : Scans .between ['\n'] [] .between := rfl
    exact ⟨ts ++ us, (hend.append hts).append hus, hs.append hs'⟩

theorem intercalate_cons_eq (c : Char) (w : List Char) (ws : List (List Char)) :
    [c].intercalate (w :: ws) = w ++ ws.flatMap (c :: ·) := by
  induction ws generalizing w with
  | nil => simp
  | cons v ws ih =>
    rw [List.intercalate_cons_of_ne_nil (List.cons_ne_nil v ws), ih, List.flatMap_cons]
    simp

/-- **A text is a digraph if its lines are statements.** -/
theorem isDigraph_of_lines {lines : List String} (h : ∀ line ∈ lines, IsLine line) :
    IsDigraph ("\n".intercalate ("digraph G \x7b" :: lines ++ ["\x7d"])) := by
  obtain ⟨ts, hts, hs⟩ := scans_lines h
  refine ⟨_, ?_, .mk hs⟩
  have hfront : Scans .between "digraph G \x7b".toList
      [.keyword "digraph", .id, .mark '\x7b'] .between := by decide
  have hback : Scans .between ['\n', '\x7d', '\n'] [.mark '\x7d'] .between := by decide
  have htext : ("\n".intercalate ("digraph G \x7b" :: lines ++ ["\x7d"])).toList ++ ['\n'] =
      "digraph G \x7b".toList ++ (lines.flatMap fun line => '\n' :: line.toList) ++
        ['\n', '\x7d', '\n'] := by
    have hsep : "\n".toList = ['\n'] := rfl
    rw [String.toList_intercalate, hsep, List.cons_append, List.map_cons, intercalate_cons_eq,
      List.map_append, List.flatMap_append, List.flatMap_map]
    simp
  rw [Tokens, htext]
  exact (hfront.append hts).append hback

end FlatLisp.Dot
