import FlatLisp.Number.Rounding

/-!
# Decimals

A decimal is `coeff * 10 ^ exp`. `Decimal.read?` reads the numerals of program text, which
start with a digit: `digits [. digits*] [(e|E) [+|-] digits]`. `Decimal.toNumber` is the
nearest double.
-/

namespace FlatLisp

-- powers are the core ones, whatever else is imported
attribute [local instance (high)] instPowNat

/-- The nonnegative decimal `coeff * 10 ^ exp`. -/
structure Decimal where
  coeff : Nat
  exp : Int
deriving DecidableEq, Inhabited

namespace Decimal

/-- The digits of a natural number, most significant first, without leading zeros. -/
def digits (n : Nat) : List Char := Nat.toDigits 10 n

/-- The number that a run of digits denotes. -/
def ofDigits (cs : List Char) : Nat := cs.foldl (fun n c => 10 * n + (c.toNat - '0'.toNat)) 0

/-- The sign of an exponent and the text after it. -/
def readSign : List Char → Bool × List Char
  | '-' :: cs => (true, cs)
  | '+' :: cs => (false, cs)
  | cs => (false, cs)

/-- An exponent, which ends the numeral: nothing, or a mark, a sign and at least one digit. -/
def readExponent? : List Char → Option Int
  | [] => some 0
  | mark :: cs =>
    let (negative, ds) := readSign cs
    if (mark = 'e' ∨ mark = 'E') ∧ ds ≠ [] ∧ ds.all Char.isDigit then
      some (if negative then -(ofDigits ds : Int) else ofDigits ds)
    else none

/-- The digits after a point, if there is one, and the text after them. -/
def readFraction : List Char → List Char × List Char
  | '.' :: cs => (cs.takeWhile Char.isDigit, cs.dropWhile Char.isDigit)
  | cs => ([], cs)

/-- The decimal that a numeral denotes. -/
def read? (cs : List Char) : Option Decimal :=
  let whole := cs.takeWhile Char.isDigit
  let (fraction, rest) := readFraction (cs.dropWhile Char.isDigit)
  if whole = [] then none
  else (readExponent? rest).map fun e => ⟨ofDigits (whole ++ fraction), e - fraction.length⟩

/-- The exponent of the first digit: `coeff * 10 ^ exp` is `d.ddd * 10 ^ leading`. -/
def leading (d : Decimal) : Int := d.exp + (digits d.coeff).length - 1

/-- The rank of the nearest double. A decimal from `10 ^ 310` on is past every finite double,
and one below `10 ^ (-330)` is nearest to zero, so neither needs its power of ten. -/
def nearestRank (d : Decimal) : Nat :=
  if d.coeff = 0 then 0
  else if 310 ≤ d.leading then Number.infinityRank
  else if d.leading < -330 then 0
  else Number.nearestRank (d.coeff * 10 ^ d.exp.toNat) (10 ^ (-d.exp).toNat)

/-- The nearest double with the given sign; an infinity if the decimal is too large. -/
def toNumber (d : Decimal) (negative : Bool) : Number := Number.ofRank negative d.nearestRank

end Decimal

end FlatLisp
