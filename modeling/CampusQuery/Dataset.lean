/-
CampusQuery.Dataset — named collections of records.

A dataset is a list of records of one kind under an id. Ids serve as the
first part of column names, so an underscore is not allowed in them.
`Dataset.ofRecords` makes a dataset only if its id is valid and it has
records, all of its own kind. When it was added is told by the row that it is
stored in, not by the dataset.
-/
import CampusQuery.Record.Json

namespace CampusQuery

structure Dataset where
  id : String
  kind : Kind
  records : List Record
deriving DecidableEq

/-- A dataset without its records, as listings show it. -/
structure DatasetInfo where
  id : String
  kind : Kind
  rows : Nat
deriving DecidableEq

def DatasetInfo.toJson (info : DatasetInfo) : Json :=
  .object [("id", .string info.id), ("kind", .string info.kind.name),
    ("numRows", .number (.integer info.rows))]

namespace Dataset

/-- Not blank and without an underscore. -/
def isValidId (id : String) : Bool :=
  !(Text.trim id.toList).isEmpty && !id.toList.contains '_'

def checkId (id : String) : Outcome Unit :=
  if isValidId id then .ok () else refuse (.dataset (.invalidId id))

def ofRecords (id : String) (kind : Kind) (records : List Record) :
    Outcome Dataset := do
  checkId id
  if records.isEmpty then refuse (.dataset (.noRecords id kind))
  else match records.find? (·.kind ≠ kind) with
    | some stray => refuse (.dataset (.strayRecord id kind stray.kind))
    | none => return ⟨id, kind, records⟩

def info (dataset : Dataset) : DatasetInfo :=
  ⟨dataset.id, dataset.kind, dataset.records.length⟩

end Dataset

end CampusQuery
