/-
CampusQuery.Record.Basic — sections of courses and rooms of buildings.

`Record.fields` lists the fields of a record with their values, in the
order of the layout of its kind; looking up a field and turning a record
into a result row both go through that list.
-/
import CampusQuery.Error.Basic
import CampusQuery.Row

namespace CampusQuery

open Numeric

structure Section where
  uuid : String
  id : String
  title : String
  instructor : String
  dept : String
  year : Binary64
  avg : Binary64
  pass : Binary64
  fail : Binary64
  audit : Binary64
deriving DecidableEq

structure Room where
  fullname : String
  shortname : String
  number : String
  name : String
  address : String
  lat : Binary64
  lon : Binary64
  seats : Binary64
  type : String
  furniture : String
  href : String
deriving DecidableEq

def Section.fields (s : Section) : List (String × Value) :=
  [("uuid", .text s.uuid), ("id", .text s.id), ("title", .text s.title),
    ("instructor", .text s.instructor), ("dept", .text s.dept),
    ("year", .number s.year), ("avg", .number s.avg),
    ("pass", .number s.pass), ("fail", .number s.fail),
    ("audit", .number s.audit)]

namespace Room

def fields (r : Room) : List (String × Value) :=
  [("fullname", .text r.fullname), ("shortname", .text r.shortname),
    ("number", .text r.number), ("name", .text r.name),
    ("address", .text r.address), ("lat", .number r.lat),
    ("lon", .number r.lon), ("seats", .number r.seats),
    ("type", .text r.type), ("furniture", .text r.furniture),
    ("href", .text r.href)]

/-- The name of a room that is given none: its building and its number. -/
def derivedName (shortname number : String) : String :=
  s!"{shortname}_{number}"

/-- The room with a derived name if it has none. -/
def withName (r : Room) : Room :=
  if r.name = "" then { r with name := derivedName r.shortname r.number }
  else r

def named (fullname shortname number address : String)
    (lat lon seats : Binary64) (type furniture href : String) : Room where
  fullname := fullname
  shortname := shortname
  number := number
  name := derivedName shortname number
  address := address
  lat := lat
  lon := lon
  seats := seats
  type := type
  furniture := furniture
  href := href

end Room

inductive Record
  | ofSection (value : Section)
  | ofRoom (value : Room)
deriving DecidableEq

def columnName (dataset field : String) : String := s!"{dataset}_{field}"

namespace Record

def kind : Record → Kind
  | ofSection _ => .sections
  | ofRoom _ => .rooms

def fields : Record → List (String × Value)
  | ofSection s => s.fields
  | ofRoom r => r.fields

def field (record : Record) (name : String) : Outcome Value :=
  match record.fields.lookup name with
  | some value => .ok value
  | none => refuse (.field (.unknown name record.kind))

def column (record : Record) (dataset : String) (read : Value → Value)
    (field : String) : Outcome (String × Value) := do
  return (columnName dataset field, read (← record.field field))

/-- The row of a record in a dataset: its text fields and then its numeric
fields, under names that start with the dataset. -/
def toRow (record : Record) (dataset : String) : Outcome Row := do
  let texts ← record.kind.textFields.mapM
    (record.column dataset fun value => .text value.display)
  let numbers ← record.kind.numericFields.mapM
    (record.column dataset fun value => .number value.toNumber)
  return .ofColumns (texts ++ numbers)

end Record

end CampusQuery
