/-
CampusQuery.Value — the values in the columns of a row.

A value is a text or a number. Values are equal as texts or as numbers,
never across the two; in the order all numbers come before all texts.
"No number" differs from everything, itself included, but sorts as if it
were equal to every number.
-/
import CampusQuery.Json.Writer
import CampusQuery.Numeric.Numeral
import CampusQuery.Text.Blank

namespace CampusQuery

open Numeric

inductive Value
  | text (value : String)
  | number (value : Binary64)
deriving DecidableEq, Inhabited

namespace Value

/-! ## Readings -/

/-- A number as text: whole numbers below 2 ^ 53 as integers. -/
def numberText (x : Binary64) : String :=
  match x.toWhole? with
  | some n => String.ofList (wholeChars n)
  | none => x.plain

def display : Value → String
  | text value => value
  | number x => numberText x

/-- The value as a number; a text that spells none is "no number". -/
def toNumber : Value → Binary64
  | number x => x
  | text value => (Binary64.ofText? (Text.trim value.toList)).getD .nan

/-- The value as JSON: whole numbers below 2 ^ 53 as integers. -/
def toJson : Value → Json
  | text value => .string value
  | number x =>
    match x.toWhole? with
    | some n => .number (.integer n)
    | none => .number (.real x)

/-! ## Equality and order -/

def equals : Value → Value → Bool
  | text a, text b => a == b
  | number a, number b => a.equals b
  | _, _ => false

def order : Value → Value → Ordering
  | number a, number b => (a.compare? b).getD .eq
  | text a, text b => compare a b
  | number _, text _ => .lt
  | text _, number _ => .gt

/-- Whether a value has a place in the order: all but "no number" do. -/
def isOrdered : Value → Bool
  | number .nan => false
  | _ => true

/-- Puts a value in front of a list unless it is there already. -/
def insertDistinct (values : List Value) (value : Value) : List Value :=
  if values.any (equals value) then values else value :: values

def countDistinct (values : List Value) : Nat :=
  (values.foldl insertDistinct []).length

end Value

end CampusQuery
