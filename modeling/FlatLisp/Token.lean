import FlatLisp.Number.Basic

/-!
# Tokens

Program text consists of parentheses, symbols, keywords, numbers and strings, separated by
blanks. A token keeps its source text and the line that it starts on.
-/

namespace FlatLisp

/-- The words that open a special form. -/
inductive Keyword where
  | assign
  | branch
  | whileLoop
  | forLoop
  | define
deriving DecidableEq, Inhabited

namespace Keyword

def word : Keyword → String
  | .assign => "set"
  | .branch => "if"
  | .whileLoop => "while"
  | .forLoop => "for"
  | .define => "defn"

/-- The keyword that a word spells. -/
def ofWord? (w : String) : Option Keyword :=
  [assign, branch, whileLoop, forLoop, define].find? (·.word = w)

end Keyword

/-- What a token is. Literals carry their value. -/
inductive TokenKind where
  | leftParen
  | rightParen
  | symbol (name : String)
  | keyword (k : Keyword)
  | number (x : Number)
  | string (s : String)
deriving DecidableEq, Inhabited

/-- A token, its source text (for a string the text it denotes), and its line. -/
structure Token where
  kind : TokenKind
  source : String
  line : Nat
deriving DecidableEq, Inhabited

/-- The token is a keyword. -/
def Token.isReserved (t : Token) : Bool :=
  match t.kind with
  | .keyword _ => true
  | _ => false

end FlatLisp
