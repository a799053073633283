/-
CampusQuery.Registry.Cell — the cells of a stored table.

A cell holds a value of one of four classes, and a reader that expects
another class fails. The columns of the table have types that change what is
put into them: `inTextColumn` turns numbers into texts, and
`inIntegerColumn` turns texts that spell numbers into these numbers and
whole floating-point numbers into integers. What they cannot turn they keep
as it is.
-/
import CampusQuery.Error.Basic
import CampusQuery.Registry.StoredNumber
import CampusQuery.Registry.Timestamp

namespace CampusQuery

open Numeric

inductive Cell
  | text (value : String)
  | integer (value : Int)
  | real (value : Binary64)
  | bytes (value : List UInt8)
deriving DecidableEq

namespace Cell

/-! ## Reading -/

def misread {α : Type} : Outcome α :=
  .error (.storage "a cell holds a value of another type")

def readText : Cell → Outcome String
  | text value => .ok value
  | _ => misread

def readInteger : Cell → Outcome Int
  | integer value => .ok value
  | _ => misread

def readTime (cell : Cell) : Outcome Unit := do
  if Timestamp.isValid (← cell.readText) then return ()
  else .error (.storage "a cell does not hold a time")

/-! ## Order -/

/-- Numbers sort before texts and texts before bytes. -/
def rank : Cell → Nat
  | integer _ | real _ => 0
  | text _ => 1
  | bytes _ => 2

def order (a b : Cell) : Ordering :=
  match a, b with
  | text x, text y => compare x y
  | _, _ => compare a.rank b.rank

/-! ## Texts as numbers -/

/-- Whether an integer has at most 64 bits, one of them for the sign. -/
def isStorable (n : Int) : Bool := -(twoTo 63 : Int) ≤ n && n < twoTo 63

/-- A floating-point number as an integer, if it is one and lies strictly
between the largest and the smallest one. -/
def narrowed (x : Binary64) : Cell :=
  match x.exactInt? with
  | some n => if n.natAbs + 1 < twoTo 63 then integer n else real x
  | none => real x

/-- The blanks that may stand around a number. -/
def isNumberBlank (c : Char) : Bool :=
  c = ' ' || ('\t' ≤ c && c ≤ '\r')

/-- The number that a text spells, as a cell. -/
def ofNumeral? (text : String) : Option Cell := do
  let body := (text.toList.dropWhile isNumberBlank).reverse
  let parts ← Numeral.split? (body.dropWhile isNumberBlank).reverse
  if parts.isText then
    let size : Int := digitsValue parts.whole
    let whole := if parts.sign = some '-' then -size else size
    if parts.isWhole && isStorable whole then some (integer whole)
    else some (narrowed (StoredNumber.ofNumeral parts))
  else none

/-! ## Columns -/

/-- What a column of texts holds after a value is put into it. -/
def inTextColumn : Cell → Cell
  | integer n => text (String.ofList (wholeChars n))
  | real x => text (StoredNumber.text x)
  | cell => cell

/-- What a column of integers holds after a value is put into it. -/
def inIntegerColumn : Cell → Cell
  | text value => (ofNumeral? value).getD (text value)
  | real x => narrowed x
  | cell => cell

end Cell

end CampusQuery
