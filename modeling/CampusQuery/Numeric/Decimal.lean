/-
CampusQuery.Numeric.Decimal — exact decimals, for sums and means.

A decimal is a whole coefficient over a power of ten. `ofBinary64?` takes a
finite number at its shortest text, so that 0.1 is one tenth. Addition is
exact; `dividedBy` divides to a fixed number of significant digits;
`toHundredths` rounds to two places, halves away from zero.
-/
import CampusQuery.Numeric.Shortest

namespace CampusQuery.Numeric

/-- The number `coefficient / 10 ^ scale`. -/
structure Decimal where
  coefficient : Int
  scale : Nat
deriving DecidableEq

namespace Decimal

def zero : Decimal := ⟨0, 0⟩

/-- The decimal that a number's shortest text spells, for finite numbers. -/
def ofBinary64? : Binary64 → Option Decimal
  | .nan => none
  | .signed negative magnitude =>
    if magnitude.isFinite then
      let digits := magnitude.shortest .up
      let size := digits.coefficient * tenTo digits.exponent.toNat
      some ⟨if negative then -(size : Int) else size,
        (-digits.exponent).toNat⟩
    else none

def coefficientAt (d : Decimal) (scale : Nat) : Int :=
  d.coefficient * tenTo (scale - d.scale)

def add (a b : Decimal) : Decimal :=
  let scale := max a.scale b.scale
  ⟨a.coefficientAt scale + b.coefficientAt scale, scale⟩

def sum (numbers : List Decimal) : Decimal := numbers.foldl add zero

/-! ## Division -/

/-- The significant digits that a quotient is carried to. -/
def quotientDigits : Nat := 100

/-- The position of the leading digit of `num / den`: the number `k` with
`10 ^ (k - 1) ≤ num / den < 10 ^ k`. -/
def leadingPositionOf (num den : Nat) : Int :=
  if den ≤ num then digitCount (num / den)
  else 1 - (digitCount ((den - 1) / num) : Int)

/-- The total divided by a count, carried to `quotientDigits` significant
digits with the last one rounded, a half away from zero. -/
def dividedBy (d : Decimal) (count : Nat) : Decimal :=
  let num := d.coefficient.natAbs
  if num = 0 then zero
  else
    let extra := (quotientDigits - leadingPositionOf num count).toNat
    let size := roundHalfUp (num * tenTo extra) count
    ⟨if d.coefficient < 0 then -(size : Int) else size, d.scale + extra⟩

/-! ## Rounding to two places -/

/-- The value in hundredths, a half away from zero. -/
def hundredths (d : Decimal) : Int :=
  let size := roundHalfUp (d.coefficient.natAbs * 100) (tenTo d.scale)
  if d.coefficient < 0 then -(size : Int) else size

def toHundredths (d : Decimal) : Binary64 :=
  .ofRatio (d.hundredths < 0) d.hundredths.natAbs 100

end Decimal

end CampusQuery.Numeric
