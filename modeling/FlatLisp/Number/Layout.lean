import FlatLisp.Number.Shortest

/-!
# The text of a number

A finite number is written with its shortest digits. With `d.ddd * 10 ^ E` for these, the
exponent form `d.ddde±EE` is used when `E < -4` or `E ≥ 6`, and the positional form
otherwise.
-/

namespace FlatLisp

namespace Decimal

/-- At least two digits of an exponent. -/
def exponentDigits (n : Nat) : List Char :=
  let ds := digits n
  if ds.length < 2 then '0' :: ds else ds

/-- Exponent form: one digit, the others after a point, the exponent with its sign. -/
def scientific (d : Decimal) : List Char :=
  let mantissa :=
    match digits d.coeff with
    | [] => []
    | [c] => [c]
    | c :: cs => c :: '.' :: cs
  mantissa ++ 'e' :: (if d.leading < 0 then '-' else '+') :: exponentDigits d.leading.natAbs

/-- Positional form: zeros fill the places up to the point on either side. -/
def positional (d : Decimal) : List Char :=
  let ds := digits d.coeff
  if 0 ≤ d.exp then ds ++ List.replicate d.exp.toNat '0'
  else
    let places := (-d.exp).toNat
    if places < ds.length then ds.take (ds.length - places) ++ '.' :: ds.drop (ds.length - places)
    else '0' :: '.' :: (List.replicate (places - ds.length) '0' ++ ds)

/-- The text of a decimal in the form that its leading exponent selects. -/
def layout (d : Decimal) : List Char :=
  if d.leading < -4 ∨ 6 ≤ d.leading then d.scientific else d.positional

end Decimal

namespace Number

/-- The text of a number. -/
def text (x : Number) : String :=
  if x.isNaN then "NaN"
  else if x.isInfinite then if x.negative then "-Inf" else "+Inf"
  else
    let magnitude := if x.rank = 0 then ['0'] else (shortest x.rank).layout
    String.ofList (if x.negative then '-' :: magnitude else magnitude)

end Number

end FlatLisp
