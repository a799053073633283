/-
CampusQuery.Json.Number — numbers from the numerals of JSON text.

A whole number of at most 64 bits keeps its exact value. From any other
numeral the digits are taken up as long as they fit in 64 bits; the whole
number that they spell is rounded, and a product or a quotient with a power
of ten moves its point. So a numeral is read exactly if its digits fit in 53
bits and its point moves by no more than 22 places. Any other may come out
as a neighbour of the nearest number: what is written of a number does not
always read back.
-/
import CampusQuery.Json.Basic
import CampusQuery.Numeric.Numeral

namespace CampusQuery

open Numeric

/-! ## Digits -/

/-- The digits taken up of a numeral, the place of the last of them, and
whether a digit has been refused. -/
structure TakenDigits where
  coefficient : Nat
  place : Int
  full : Bool

namespace TakenDigits

/-- The coefficient with one more digit, unless that is refused. -/
def next? (taken : TakenDigits) (digit : Char) : Option Nat :=
  let coefficient := 10 * taken.coefficient + digitsValue [digit]
  if taken.full || twoTo 64 ≤ coefficient then none else some coefficient

/-- One more digit before the point; a refused one moves the point. -/
def takeWhole (taken : TakenDigits) (digit : Char) : TakenDigits :=
  match taken.next? digit with
  | some coefficient => ⟨coefficient, taken.place, false⟩
  | none => ⟨taken.coefficient, taken.place + 1, true⟩

/-- One more digit behind the point; a refused one is lost. -/
def takeFraction (taken : TakenDigits) (digit : Char) : TakenDigits :=
  match taken.next? digit with
  | some coefficient => ⟨coefficient, taken.place - 1, false⟩
  | none => ⟨taken.coefficient, taken.place, true⟩

/-- What is taken up of a numeral. Behind the point digits are tried again,
even if one before it has been refused. -/
def ofParts (parts : Numeral.Parts) : TakenDigits :=
  let whole := parts.whole.foldl takeWhole ⟨0, 0, false⟩
  let taken :=
    (parts.fraction.getD []).foldl takeFraction { whole with full := false }
  { taken with place := taken.place + parts.writtenExponent }

end TakenDigits

/-! ## Moving the point -/

namespace Numeric.Binary64

/-- The most places that one power of ten moves a point. -/
def longestMove : Nat := 308

def tenPower (places : Nat) : Binary64 := .ofRatio false (tenTo places) 1

/-- The number with its point moved up; there is none if it gets infinite. -/
def movedUp? (x : Binary64) (places : Nat) : Option Binary64 :=
  if places ≤ longestMove then
    let moved := x.multiply (tenPower places)
    if moved.isFinite then some moved else none
  else if x = zero then some x
  else none

/-- The number with its point moved down, by the longest move again and again
if it has to go further. -/
def movedDown (x : Binary64) (places : Nat) : Binary64 :=
  if places ≤ longestMove then x.divide (tenPower places)
  else if x = zero then x
  else movedDown (x.divide (tenPower longestMove)) (places - longestMove)
termination_by places
decreasing_by
  have : 0 < longestMove := by decide
  omega

def moved? (x : Binary64) (places : Int) : Option Binary64 :=
  if 0 ≤ places then x.movedUp? places.toNat
  else some (x.movedDown (-places).toNat)

end Numeric.Binary64

/-! ## Numerals -/

namespace Json

def readReal? (parts : Numeral.Parts) : Option Binary64 := do
  let taken := TakenDigits.ofParts parts
  let size ← (Binary64.ofInt taken.coefficient).moved? taken.place
  some (if parts.sign = some '-' then size.negate else size)

/-- Whole numbers in this range keep their exact value. -/
def isWordSized (n : Int) : Bool := -(twoTo 63 : Int) ≤ n && n < twoTo 64

/-- The number that a numeral names. Minus zero is a floating-point number,
and so is a whole number of more than 64 bits. A numeral that would be read
as infinite is refused. -/
def readNumber? (lexeme : List Char) : Option JsonNumber := do
  let parts ← Numeral.split? lexeme
  let numeral := parts.toNumeral
  let whole : Int :=
    if numeral.negative then -(numeral.coefficient : Int)
    else numeral.coefficient
  if parts.isWhole && isWordSized whole
      && !(numeral.negative && numeral.coefficient == 0) then
    some (.integer whole)
  else (readReal? parts).map .real

end Json

end CampusQuery
