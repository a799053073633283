/-
CampusQuery.Record.Json — records as JSON.

A record is written as an object in the order of its layout, every number
as a floating-point literal. It is read from such an object, in any order
and with further members, or from the list of its values. The first value
of a wrong type is reported before any missing field; values are looked at
in the order in which they stand.
-/
import CampusQuery.Record.Basic

namespace CampusQuery

open Numeric

/-! ## Writing -/

def Record.fieldJson : Value → Json
  | .text value => .string value
  | .number x => .number (.real x)

def Record.toJson (record : Record) : Json :=
  .object (record.fields.map fun (name, value) => (name, fieldJson value))

/-! ## Reading -/

namespace RecordReader

def checkType (type : FieldType) (value : Json) : Except RecordFault Unit :=
  match type, value with
  | .text, .string _ => .ok ()
  | .numeric, .number _ => .ok ()
  | _, _ => .error (.wrongType (.ofJson value) (.field type))

/-- Checks the members that are fields of the kind; others may be
anything. -/
def checkMembers (kind : Kind) (members : List (String × Json)) :
    Except RecordFault Unit :=
  members.forM fun (name, value) =>
    match kind.layout.lookup name with
    | some type => checkType type value
    | none => .ok ()

def text (members : List (String × Json)) (name : String) :
    Except RecordFault String :=
  match members.lookup name with
  | some (.string value) => .ok value
  | some value => .error (.wrongType (.ofJson value) (.field .text))
  | none => .error (.missingField name)

def number (members : List (String × Json)) (name : String) :
    Except RecordFault Binary64 :=
  match members.lookup name with
  | some (.number value) => .ok value.toBinary64
  | some value => .error (.wrongType (.ofJson value) (.field .numeric))
  | none => .error (.missingField name)

def optionalText (members : List (String × Json)) (name : String) :
    Except RecordFault String :=
  if (members.lookup name).isSome then text members name else .ok ""

def sectionOf (members : List (String × Json)) :
    Except RecordFault Section := do
  return {
    uuid := ← text members "uuid"
    id := ← text members "id"
    title := ← text members "title"
    instructor := ← text members "instructor"
    dept := ← text members "dept"
    year := ← number members "year"
    avg := ← number members "avg"
    pass := ← number members "pass"
    fail := ← number members "fail"
    audit := ← number members "audit" }

/-- A room with the given members; its name may be left out. -/
def roomOf (members : List (String × Json)) : Except RecordFault Room := do
  let room : Room := {
    fullname := ← text members "fullname"
    shortname := ← text members "shortname"
    number := ← text members "number"
    name := ← optionalText members "name"
    address := ← text members "address"
    lat := ← number members "lat"
    lon := ← number members "lon"
    seats := ← number members "seats"
    type := ← text members "type"
    furniture := ← text members "furniture"
    href := ← text members "href" }
  return room.withName

def recordOf (kind : Kind) (members : List (String × Json)) :
    Except RecordFault Record :=
  match kind with
  | .sections => Record.ofSection <$> sectionOf members
  | .rooms => Record.ofRoom <$> roomOf members

/-- The position at which a list that is too short ends. The name of a room
may be left out, so a list that stops there is missed at the next one. -/
def missingPosition (kind : Kind) (length : Nat) : Nat :=
  if (kind.layout[length]?).map (·.1) = some "name" then length + 1
  else length

def checkLength (kind : Kind) (length : Nat) : Except RecordFault Unit :=
  if length < kind.layout.length then
    .error (.tooShort (missingPosition kind length) kind)
  else if kind.layout.length < length then .error (.tooLong length)
  else .ok ()

def read (kind : Kind) : Json → Except RecordFault Record
  | .object members => do
    checkMembers kind members
    recordOf kind members
  | .array items => do
    let members := (kind.layout.map (·.1)).zip items
    checkMembers kind members
    checkLength kind items.length
    recordOf kind members
  | value => .error (.wrongType (.ofJson value) (.record kind))

end RecordReader

def Record.ofJson (kind : Kind) (value : Json) : Outcome Record :=
  (RecordReader.read kind value).mapError fun fault =>
    .invalid (.record kind fault)

end CampusQuery
