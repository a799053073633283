/-
CampusQuery.Numeric.Shortest — the shortest decimal that reads back.

Every real number between the midpoints of a magnitude and its two
neighbours rounds to that magnitude; the midpoints themselves do when its
rank is even. `shortest` looks for a decimal in that interval with as few
digits as possible. For one, two, … seventeen digits it tries the two
neighbours of the exact value on the grid of that many digits. If any point
of the grid is in the interval, so is one of these two, so the first grid
with a hit gives the fewest digits; of two hits the nearer one is taken.
-/
import CampusQuery.Numeric.Binary64

namespace CampusQuery.Numeric

/-- Where a value halfway between two candidates goes. -/
inductive TieRule
  | toEven
  | up
deriving DecidableEq

/-- A positive decimal `coefficient · 10 ^ exponent`, the coefficient
without zeros at its end. -/
structure ShortDecimal where
  coefficient : Nat
  exponent : Int
deriving DecidableEq

namespace Magnitude

structure Fraction where
  num : Nat
  den : Nat

/-- The value in steps of `10 ^ exponent`. -/
def inSteps (m : Magnitude) (exponent : Int) : Fraction where
  num := m.units * tenTo (-exponent).toNat
  den := unitsPerOne * tenTo exponent.toNat

/-- The number `k` with `10 ^ (k - 1) ≤ value < 10 ^ k`. -/
def leadingPosition (m : Magnitude) : Int :=
  if unitsPerOne ≤ m.units then digitCount (m.units / unitsPerOne)
  else 1 - (digitCount ((unitsPerOne - 1) / m.units) : Int)

def readsBack (m : Magnitude) (count : Nat) (exponent : Int) : Bool :=
  let scale := tenTo (-exponent).toNat
  let point := 2 * count * (unitsPerOne * tenTo exponent.toNat)
  let low := (unitsAt (m.rank - 1) + m.units) * scale
  let high := (m.units + unitsAt (m.rank + 1)) * scale
  if m.rank % 2 = 0 then low ≤ point && point ≤ high
  else low < point && point < high

/-- The better of the two neighbours of the value on the grid of steps of
`10 ^ exponent` among those that read back. -/
def nearestOnGrid? (tie : TieRule) (m : Magnitude) (exponent : Int) :
    Option Nat :=
  let steps := m.inSteps exponent
  let floor := steps.num / steps.den
  let rest := 2 * (steps.num % steps.den)
  match m.readsBack floor exponent, m.readsBack (floor + 1) exponent with
  | false, false => none
  | true, false => some floor
  | false, true => some (floor + 1)
  | true, true =>
    if rest < steps.den then some floor
    else if steps.den < rest then some (floor + 1)
    else match tie with
      | .up => some (floor + 1)
      | .toEven => some (if floor % 2 = 0 then floor else floor + 1)

/-- Seventeen digits always suffice. -/
def maxDigits : Nat := 17

/-- The decimal with the fewest digits that rounds to the magnitude. -/
def shortest (tie : TieRule) (m : Magnitude) : ShortDecimal :=
  if m.units = 0 then ⟨0, 0⟩
  else
    let top := m.leadingPosition
    let grids := (List.range maxDigits).map fun n => top - (n + 1 : Nat)
    let found := grids.findSome? fun exponent =>
      (m.nearestOnGrid? tie exponent).map (·, exponent)
    let (count, exponent) := found.getD (0, 0)
    let (coefficient, exponent) := trimZeros count exponent
    ⟨coefficient, exponent⟩

end Magnitude

end CampusQuery.Numeric
