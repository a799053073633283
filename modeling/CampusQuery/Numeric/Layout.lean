/-
CampusQuery.Numeric.Layout — numbers as text.

Both layouts write the shortest digits that read back. `plain` writes them
in full whatever the size, and leaves the point out of whole numbers.
`scientific` is the layout of number literals in JSON text: it keeps `.0`
on whole numbers, and switches to an exponent outside a middle range.
-/
import CampusQuery.Numeric.Shortest

namespace CampusQuery.Numeric

def digitChars (n : Nat) : List Char := Nat.toDigits 10 n

/-- A whole number with a minus sign where it is negative. -/
def wholeChars (n : Int) : List Char :=
  if n < 0 then '-' :: digitChars n.natAbs else digitChars n.natAbs

namespace ShortDecimal

def length (d : ShortDecimal) : Nat := digitCount d.coefficient

/-- The number `k` such that the value is `0.digits · 10 ^ k`. -/
def pointPosition (d : ShortDecimal) : Int := d.length + d.exponent

/-- All digits in place, followed by `whole` if there is no fraction. -/
def positional (d : ShortDecimal) (whole : List Char) : List Char :=
  let digits := digitChars d.coefficient
  if 0 ≤ d.exponent then
    digits ++ List.replicate d.exponent.toNat '0' ++ whole
  else if 0 < d.pointPosition then
    let position := d.pointPosition.toNat
    digits.take position ++ '.' :: digits.drop position
  else
    '0' :: '.' :: List.replicate (-d.pointPosition).toNat '0' ++ digits

/-- One digit before the point and a signed exponent. -/
def exponential (d : ShortDecimal) : List Char :=
  let exponent := d.pointPosition - 1
  let digits := digitChars d.coefficient
  let mantissa := match digits with
    | [] => []
    | [digit] => [digit]
    | digit :: rest => digit :: '.' :: rest
  let sign := if exponent < 0 then '-' else '+'
  mantissa ++ 'e' :: sign :: digitChars exponent.natAbs

end ShortDecimal

namespace Binary64

def signChars (negative : Bool) : List Char :=
  if negative then ['-'] else []

/-- The text of a number with all its digits in place: no exponent, and no
point on whole numbers. -/
def plain : Binary64 → String
  | nan => "NaN"
  | signed negative magnitude =>
    let body :=
      if magnitude.isFinite then (magnitude.shortest .up).positional []
      else ['i', 'n', 'f']
    String.ofList (signChars negative ++ body)

/-- Point positions above this one are written plainly. -/
def lowestPlainPosition : Int := -4

/-- Point positions up to this one are written plainly. -/
def highestPlainPosition : Int := 16

def literalChars (negative : Bool) (magnitude : Magnitude) : List Char :=
  let digits := magnitude.shortest .toEven
  let position := digits.pointPosition
  signChars negative ++
    if lowestPlainPosition ≤ position ∧ position ≤ highestPlainPosition then
      digits.positional ['.', '0']
    else digits.exponential

end Binary64

end CampusQuery.Numeric
