/-
CampusQuery.Numeric.Rounding — powers, digits and rounding of natural
numbers.

`roundHalfEven` and `roundHalfUp` take the whole number nearest to a
quotient and differ only where that lies halfway between two: the first
takes the even neighbour, the second the larger one. `digitCount` is the length
of a number in decimal digits, and `trimZeros` moves the zeros at its end
into an exponent.
-/

namespace CampusQuery.Numeric

def twoTo (n : Nat) : Nat := Nat.pow 2 n

def tenTo (n : Nat) : Nat := Nat.pow 10 n

/-- The whole number nearest to `num / den`; a half goes to the even one. -/
def roundHalfEven (num den : Nat) : Nat :=
  let floor := num / den
  let rest := 2 * (num % den)
  if rest < den then floor
  else if den < rest then floor + 1
  else if floor % 2 = 0 then floor
  else floor + 1

/-- The whole number nearest to `num / den`; a half goes up. -/
def roundHalfUp (num den : Nat) : Nat :=
  (2 * num + den) / (2 * den)

/-- How many decimal digits `n` has; zero has one. -/
def digitCount (n : Nat) : Nat :=
  if n < 10 then 1 else digitCount (n / 10) + 1
termination_by n

/-- `coefficient · 10 ^ exponent` with the zeros at the end of the
coefficient moved into the exponent; zero stays as it is. -/
def trimZeros (coefficient : Nat) (exponent : Int) : Nat × Int :=
  if coefficient = 0 ∨ coefficient % 10 ≠ 0 then (coefficient, exponent)
  else trimZeros (coefficient / 10) (exponent + 1)
termination_by coefficient
decreasing_by omega

end CampusQuery.Numeric
