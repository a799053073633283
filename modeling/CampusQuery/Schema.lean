/-
CampusQuery.Schema — the two kinds of dataset and their fields.

A dataset holds sections of courses or rooms of buildings. Each kind has a
fixed set of fields, every one a text or a number; `textFields` and
`numericFields` list them in the order in which result rows show them, and
`layout` lists them in the order in which records are written.
-/

namespace CampusQuery

inductive Kind
  | sections
  | rooms
deriving DecidableEq, Repr

inductive FieldType
  | text
  | numeric
deriving DecidableEq, Repr

namespace Kind

def name : Kind → String
  | sections => "sections"
  | rooms => "rooms"

/-- The kind with a given name, in any letter case. -/
def ofName? (name : String) : Option Kind :=
  match name.toLower with
  | "sections" => some sections
  | "rooms" => some rooms
  | _ => none

def recordName : Kind → String
  | sections => "Section"
  | rooms => "Room"

def textFields : Kind → List String
  | sections => ["dept", "id", "instructor", "title", "uuid"]
  | rooms =>
    ["fullname", "shortname", "number", "name", "address", "type",
      "furniture", "href"]

def numericFields : Kind → List String
  | sections => ["avg", "pass", "fail", "audit", "year"]
  | rooms => ["lat", "lon", "seats"]

/-- What a field of a given name holds, if there is one. -/
def fieldType? (kind : Kind) (field : String) : Option FieldType :=
  if field ∈ kind.textFields then some .text
  else if field ∈ kind.numericFields then some .numeric
  else none

/-- All fields with their types, in the order of written records. -/
def layout : Kind → List (String × FieldType)
  | sections =>
    [("uuid", .text), ("id", .text), ("title", .text),
      ("instructor", .text), ("dept", .text), ("year", .numeric),
      ("avg", .numeric), ("pass", .numeric), ("fail", .numeric),
      ("audit", .numeric)]
  | rooms =>
    [("fullname", .text), ("shortname", .text), ("number", .text),
      ("name", .text), ("address", .text), ("lat", .numeric),
      ("lon", .numeric), ("seats", .numeric), ("type", .text),
      ("furniture", .text), ("href", .text)]

end Kind

end CampusQuery
