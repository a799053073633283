/-
CampusQuery.Numeric.Numeral — decimal numerals and the numbers they name.

`Numeral.split?` cuts a text into sign, digits before and after the point
and exponent. `Binary64.ofText?` reads numbers as people type them: they may
start with a plus sign or a point and may spell out infinity.
`toBinary64` gives the nearest number; a numeral whose first digit stands
so far up or down that only infinity or zero can be nearest is settled
without computing its value.
-/
import CampusQuery.Numeric.Binary64

namespace CampusQuery.Numeric

/-- The number `± coefficient · 10 ^ exponent`. -/
structure Numeral where
  negative : Bool
  coefficient : Nat
  exponent : Int
deriving DecidableEq

def digitsValue (digits : List Char) : Nat :=
  digits.foldl (fun value digit => 10 * value + (digit.toNat - '0'.toNat)) 0

namespace Numeral

/-! ## The nearest number -/

/-- Numerals of `10 ^ highestPosition` and above round to infinity. -/
def highestPosition : Int := 310

/-- Numerals below `10 ^ lowestPosition` round to zero. -/
def lowestPosition : Int := -330

/-- The number nearest to the numeral; too large a numeral is infinite. -/
def toBinary64 (n : Numeral) : Binary64 :=
  let position := digitCount n.coefficient + n.exponent
  if n.coefficient = 0 ∨ position < lowestPosition then
    .signed n.negative .zero
  else if highestPosition < position then .infinity n.negative
  else .ofRatio n.negative (n.coefficient * tenTo n.exponent.toNat)
    (tenTo (-n.exponent).toNat)

/-! ## Reading -/

/-- A numeral as written, its pieces not yet judged. -/
structure Parts where
  sign : Option Char
  whole : List Char
  fraction : Option (List Char)
  exponent : Option (Option Char × List Char)

def splitSign : List Char → Option Char × List Char
  | '+' :: rest => (some '+', rest)
  | '-' :: rest => (some '-', rest)
  | text => (none, text)

def split? (text : List Char) : Option Parts :=
  let (sign, text) := splitSign text
  let (whole, text) := text.span Char.isDigit
  let (fraction, text) := match text with
    | '.' :: rest =>
      let (digits, rest) := rest.span Char.isDigit
      (some digits, rest)
    | _ => (none, text)
  match text with
  | [] => some ⟨sign, whole, fraction, none⟩
  | mark :: rest =>
    let (exponentSign, digits) := splitSign rest
    if (mark = 'e' ∨ mark = 'E') ∧ digits ≠ [] ∧ digits.all Char.isDigit then
      some ⟨sign, whole, fraction, some (exponentSign, digits)⟩
    else none

namespace Parts

def isWhole (p : Parts) : Bool := p.fraction.isNone && p.exponent.isNone

/-- The exponent as written; zero if there is none. -/
def writtenExponent (p : Parts) : Int :=
  match p.exponent with
  | none => 0
  | some (some '-', digits) => -(digitsValue digits : Int)
  | some (_, digits) => digitsValue digits

def toNumeral (p : Parts) : Numeral where
  negative := p.sign = some '-'
  coefficient := digitsValue (p.whole ++ p.fraction.getD [])
  exponent := p.writtenExponent - (p.fraction.getD []).length

/-- At least one digit before or after the point. -/
def isText (p : Parts) : Bool :=
  !p.whole.isEmpty || !(p.fraction.getD []).isEmpty

end Parts

end Numeral

/-- Reads a number as people type it: a numeral, or one of the words for
infinity and "no number" in any case. -/
def Binary64.ofText? (text : List Char) : Option Binary64 :=
  let (sign, rest) := Numeral.splitSign text
  match String.ofList (rest.map Char.toLower) with
  | "nan" => some .nan
  | "inf" | "infinity" => some (.infinity (sign = some '-'))
  | _ => do
    let parts ← Numeral.split? text
    if parts.isText then some parts.toNumeral.toBinary64 else none

end CampusQuery.Numeric
