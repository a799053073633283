/-
CampusQuery.Registry.StoredNumber — numbers and their texts in a stored
table.

The table turns numbers into texts and texts into numbers by arithmetic on
numbers of double length. It takes up as many digits of a numeral as fit in
64 bits and then moves the point; the other way it moves the point until
there are eighteen or nineteen digits before it, and shows fifteen of them.
So `ofNumeral` is the nearest number only as long as the point need not be
moved far, and `text` reads back for numbers of up to fifteen digits.
-/
import CampusQuery.Numeric.DoubleLength
import CampusQuery.Numeric.Layout
import CampusQuery.Numeric.Numeral

namespace CampusQuery.StoredNumber

open Numeric

/-! ## Numbers from numerals -/

/-- From this one on a coefficient takes up no more digits, for one more
might not fit in 64 bits. -/
def fullCoefficient : Nat := (twoTo 64 - 10) / 10

/-- A coefficient and the place of its last digit. -/
abbrev Significand := Nat × Int

/-- One more digit before the point. -/
def takeWhole (n : Significand) (digit : Char) : Significand :=
  if n.1 < fullCoefficient then (10 * n.1 + digitsValue [digit], n.2)
  else (n.1, n.2 + 1)

/-- One more digit behind the point. -/
def takeFraction (n : Significand) (digit : Char) : Significand :=
  if n.1 < fullCoefficient then (10 * n.1 + digitsValue [digit], n.2 - 1)
  else n

/-- An exponent that has reached this size takes up one more digit at most,
and has this size again after any further one. -/
def fullExponent : Nat := 10000

def exponentSize (digits : List Char) : Nat :=
  digits.foldl (fun size digit =>
    if size < fullExponent then 10 * size + digitsValue [digit]
    else fullExponent) 0

/-- What is taken up of a numeral. -/
def significand (parts : Numeral.Parts) : Significand :=
  let (coefficient, place) :=
    (parts.fraction.getD []).foldl takeFraction
      (parts.whole.foldl takeWhole (0, 0))
  let exponent : Int := match parts.exponent with
    | none => 0
    | some (some '-', digits) => -(exponentSize digits : Int)
    | some (_, digits) => exponentSize digits
  (coefficient, place + exponent)

/-- Below this bound a coefficient may grow to take in a place. -/
def growthBound : Nat := (twoTo 64 - 2048) / 10

/-- Moves places above the last digit into the coefficient. -/
def takeIn (coefficient : Nat) : Nat → Nat × Nat
  | 0 => (coefficient, 0)
  | places + 1 =>
    if coefficient < growthBound then takeIn (10 * coefficient) places
    else (coefficient, places + 1)

/-- Drops zeros at the end of the coefficient that are behind the point. -/
def dropZeros (coefficient : Nat) : Nat → Nat × Nat
  | 0 => (coefficient, 0)
  | places + 1 =>
    if coefficient % 10 = 0 then dropZeros (coefficient / 10) places
    else (coefficient, places + 1)

/-- A coefficient as a number of double length. One that is rounded to 65
bits has no tail. -/
def ofCoefficient (coefficient : Nat) : DoubleLength :=
  let number := DoubleLength.ofRatio coefficient 1
  if number.head.less (.ofInt (twoTo 64)) then number
  else ⟨number.head, .zero⟩

def sizeOf (n : Significand) : Binary64 :=
  if n.1 = 0 then .zero
  else
    let number :=
      if n.2 < 0 then
        let (coefficient, places) := dropZeros n.1 n.2.natAbs
        (ofCoefficient coefficient).scaled (-(places : Int))
      else
        let (coefficient, places) := takeIn n.1 n.2.natAbs
        (ofCoefficient coefficient).scaled places
    match number.value with
    | .nan => .infinity false
    | size => size

/-- The number that a numeral is taken for. -/
def ofNumeral (parts : Numeral.Parts) : Binary64 :=
  let size := sizeOf (significand parts)
  if parts.sign = some '-' then size.negate else size

/-! ## Texts of numbers -/

def textDigits : Nat := 15

/-- The largest number with nineteen digits before the point. -/
def nineteenDigits : Numeral := ⟨false, 9223372036854774784, 0⟩

/-- That number with its point moved. -/
def bound (places : Int) : Binary64 :=
  { nineteenDigits with exponent := places }.toBinary64

/-- A number whose point was moved, and the place of its last whole digit. -/
abbrev Moved := DoubleLength × Int

/-- Moves the point by so many places, again and again until the head
satisfies the test; no more than `fuel` times. -/
def moveUntil (done : Binary64 → Bool) (places : Int) :
    Nat → Moved → Moved
  | 0, number => number
  | fuel + 1, (number, place) =>
    if done number.head then (number, place)
    else
      moveUntil done places fuel
        (number.times (.tenPower places), place - places)

/-- No number is so large or small that more strides of one size are
needed. -/
def strideLimit : Nat := 12

/-- Moves the point until the number has eighteen or nineteen digits before
it. -/
def moved (x : Binary64) : Moved :=
  let shrink (places bounded : Int) :=
    moveUntil (fun head => !head.greater (bound bounded)) places strideLimit
  let grow (places bounded : Int) :=
    moveUntil (fun head => !head.less (bound bounded)) places strideLimit
  if x.greater (bound 0) then
    shrink (-1) 0 (shrink (-10) 10 (shrink (-100) 100 (⟨x, .zero⟩, 0)))
  else
    grow 1 (-1) (grow 10 (-11) (grow 100 (-101) (⟨x, .zero⟩, 0)))

def wholePart : Binary64 → Nat
  | .nan => 0
  | .signed _ magnitude => magnitude.units / unitsPerOne

/-- The whole part of a number of double length. -/
def wholeOf (x : DoubleLength) : Nat :=
  if x.tail.less .zero then wholePart x.head - wholePart x.tail
  else wholePart x.head + wholePart x.tail

/-- The digits that are shown of a positive number. -/
def shownDecimal (x : Binary64) : ShortDecimal :=
  let (number, place) := moved x
  let whole := wholeOf number
  let dropped := digitCount whole - textDigits
  let (coefficient, exponent) :=
    trimZeros (roundHalfUp whole (tenTo dropped)) (place + dropped)
  ⟨coefficient, exponent⟩

/-- One digit before the point, at least one behind it, and a signed exponent
of at least two digits. -/
def exponentialChars (d : ShortDecimal) : List Char :=
  let exponent := d.pointPosition - 1
  let digits := digitChars d.coefficient
  let fraction := if digits.length = 1 then ['0'] else digits.drop 1
  let size := digitChars exponent.natAbs
  let padding := List.replicate (2 - size.length) '0'
  let sign := if exponent < 0 then '-' else '+'
  digits.take 1 ++ '.' :: fraction ++ 'e' :: sign :: padding ++ size

/-- The text of a decimal, which has a point in any case. -/
def decimalChars (d : ShortDecimal) : List Char :=
  if -4 < d.pointPosition ∧ d.pointPosition ≤ textDigits then
    d.positional ['.', '0']
  else exponentialChars d

/-- The text of a floating-point number; zero has no sign. -/
def text : Binary64 → String
  | .nan => ""
  | .signed negative magnitude =>
    if magnitude = .zero then "0.0"
    else
      let body :=
        if magnitude.isFinite then
          decimalChars (shownDecimal (.signed false magnitude))
        else ['I', 'n', 'f']
      String.ofList (Binary64.signChars negative ++ body)

end CampusQuery.StoredNumber
