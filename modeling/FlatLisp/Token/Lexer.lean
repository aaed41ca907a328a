import FlatLisp.Number.Decimal
import FlatLisp.Text.Quoted
import FlatLisp.Token

/-!
# Lexing

`Lexeme.cut` cuts a text into lexemes: parentheses, string literals, and words, which run to
the next delimiter. A word that starts with a digit is a numeral. A second pass,
`Token.ofLexeme`, reads the numerals, so a broken string anywhere is reported before a
broken numeral in front of it.
-/

namespace FlatLisp

/-- The characters between lexemes. -/
def isSeparator (c : Char) : Bool := c = ' ' || c = '\t' || c = '\n' || c = '\r'

/-- The characters that end a word. -/
def isDelimiter (c : Char) : Bool := c = '(' || c = ')' || isSeparator c

/-- Why a text has no tokens. -/
inductive LexFault where
  | badString (fault : Quoted.Fault)
  | badNumeral (word : String)
deriving DecidableEq

def LexFault.message : LexFault → String
  | .badString fault => fault.message
  | .badNumeral word => "'" ++ word ++ "' is not a number"

/-- A fault and the line of its lexeme. -/
structure LexError where
  line : Nat
  fault : LexFault
deriving DecidableEq

/-- A piece of program text; a string already decoded, a word not yet classified. -/
inductive Lexeme where
  | leftParen
  | rightParen
  | string (text : String)
  | word (text : String)
deriving DecidableEq

namespace Lexeme

/-- The lexeme that starts with the character `c`, which is no separator, and the text after
it. -/
def next (c : Char) (cs : List Char) : Except Quoted.Fault (Lexeme × List Char) :=
  if c = '(' then .ok (.leftParen, cs)
  else if c = ')' then .ok (.rightParen, cs)
  else if c = '"' then (Quoted.decode cs).map fun (text, rest) => (.string text, rest)
  else
    let inside := fun c => !isDelimiter c
    .ok (.word (String.ofList (c :: cs.takeWhile inside)), cs.dropWhile inside)

theorem length_dropWhile_le {α : Type} (p : α → Bool) (l : List α) :
    (l.dropWhile p).length ≤ l.length := by
  induction l with
  | nil => simp
  | cons a l ih =>
    rw [List.dropWhile_cons]
    split
    · simp only [List.length_cons]; omega
    · simp

/-- A lexeme takes at least its first character. -/
theorem next_length {c : Char} {cs r : List Char} {l : Lexeme}
    (h : next c cs = .ok (l, r)) : r.length ≤ cs.length := by
  unfold next at h
  split at h
  · simp only [Except.ok.injEq, Prod.mk.injEq] at h; simp [h.2]
  · split at h
    · simp only [Except.ok.injEq, Prod.mk.injEq] at h; simp [h.2]
    · split at h
      · cases hd : Quoted.decode cs with
        | error e => simp [hd, Except.map] at h
        | ok p =>
          have := Quoted.decodeFrom_length (s := p.1) (r := p.2) hd
          simp only [hd, Except.map, Except.ok.injEq, Prod.mk.injEq] at h
          rw [← h.2]; omega
      · simp only [Except.ok.injEq, Prod.mk.injEq] at h
        rw [← h.2]; exact length_dropWhile_le _ _

/-- The lexemes of a text that starts on the given line, each with its own line. -/
def cut (line : Nat) : List Char → Except LexError (List (Nat × Lexeme))
  | [] => .ok []
  | c :: cs =>
    if isSeparator c then cut (if c = '\n' then line + 1 else line) cs
    else
      match _h : next c cs with
      | .ok (l, rest) => (cut line rest).map ((line, l) :: ·)
      | .error fault => .error ⟨line, .badString fault⟩
termination_by cs => cs.length
decreasing_by
  · simp
  · have := next_length _h; simp only [List.length_cons]; omega

end Lexeme

namespace Token

/-- A word starts with a digit. -/
def isNumeral (cs : List Char) : Bool := cs.head?.any Char.isDigit

/-- The number that a numeral denotes, if it is finite. -/
def readNumber? (cs : List Char) : Option Number :=
  ((Decimal.read? cs).map (·.toNumber false)).filter (·.isFinite)

/-- What a word is: a numeral, a keyword or a symbol. -/
def ofWord (w : String) : Except LexFault TokenKind :=
  if isNumeral w.toList then
    match readNumber? w.toList with
    | some x => .ok (.number x)
    | none => .error (.badNumeral w)
  else
    match Keyword.ofWord? w with
    | some k => .ok (.keyword k)
    | none => .ok (.symbol w)

/-- The token of a lexeme on a line. -/
def ofLexeme (line : Nat) : Lexeme → Except LexError Token
  | .leftParen => .ok ⟨.leftParen, "(", line⟩
  | .rightParen => .ok ⟨.rightParen, ")", line⟩
  | .string text => .ok ⟨.string text, text, line⟩
  | .word text =>
    match ofWord text with
    | .ok kind => .ok ⟨kind, text, line⟩
    | .error fault => .error ⟨line, fault⟩

/-- The tokens of a list of lexemes, up to the first that is broken. -/
def ofLexemes : List (Nat × Lexeme) → Except LexError (List Token)
  | [] => .ok []
  | (line, l) :: rest =>
    match ofLexeme line l with
    | .ok t => (ofLexemes rest).map (t :: ·)
    | .error e => .error e

end Token

/-- The tokens of a program text. -/
def tokenize (source : String) : Except LexError (List Token) :=
  match Lexeme.cut 1 source.toList with
  | .ok lexemes => Token.ofLexemes lexemes
  | .error e => .error e

end FlatLisp
