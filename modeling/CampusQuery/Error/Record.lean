/-
CampusQuery.Error.Record — why a JSON value is not a record.

A record is written as an object with its fields, or as a list of their
values in the order of the layout. `RecordFault` names the first thing that
is wrong with a value, and `RecordFault.message` words it, showing numbers as
they are written in JSON.
-/
import CampusQuery.Schema
import CampusQuery.Json.Writer
import CampusQuery.Text.Literal

namespace CampusQuery

open Numeric

/-- What stands in a place where something else was expected. -/
inductive Found
  | null
  | bool (value : Bool)
  | integer (value : Int)
  | real (value : Binary64)
  | string (text : String)
  | sequence
  | map
deriving DecidableEq

namespace Found

def ofJson : Json → Found
  | .null => null
  | .bool value => bool value
  | .number (.integer value) => integer value
  | .number (.real value) => real value
  | .string text => string text
  | .array _ => sequence
  | .object _ => map

def description : Found → String
  | null => "null"
  | bool value => s!"boolean `{value}`"
  | integer value => s!"integer `{value}`"
  | real value =>
    let literal := String.ofList (Json.numberChars (.real value))
    s!"floating point `{literal}`"
  | string text => s!"string {Text.literal text}"
  | sequence => "sequence"
  | map => "map"

end Found

inductive Expectation
  | field (type : FieldType)
  | record (kind : Kind)
deriving DecidableEq

def Expectation.description : Expectation → String
  | field .text => "a string"
  | field .numeric => "f64"
  | record kind => s!"struct {kind.recordName}"

inductive RecordFault
  | wrongType (found : Found) (expected : Expectation)
  | missingField (field : String)
  | tooShort (position : Nat) (kind : Kind)
  | tooLong (length : Nat)
deriving DecidableEq

def RecordFault.message : RecordFault → String
  | wrongType found expected =>
    s!"invalid type: {found.description}, expected {expected.description}"
  | missingField field => s!"missing field `{field}`"
  | tooShort position kind =>
    s!"invalid length {position}, expected struct {kind.recordName} " ++
      s!"with {kind.layout.length} elements"
  | tooLong length =>
    s!"invalid length {length}, expected fewer elements in array"

end CampusQuery
