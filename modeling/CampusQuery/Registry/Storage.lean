/-
CampusQuery.Registry.Storage — datasets kept beyond a run of the program.

Storage is a table with one row for each dataset: its kind and the number
of its records, the time it was added, the JSON text of its records and a
checksum of that text. The cells of a row are not trusted. Reading a dataset
back fails if a cell holds a value of another class, if the kind is unknown,
if the checksum is wrong, or if the text is not a list of records.
-/
import CampusQuery.Dataset
import CampusQuery.Json.Reader
import CampusQuery.Registry.Cell
import CampusQuery.Registry.Digest

namespace CampusQuery

open Numeric

/-! ## Tables -/

structure StoredRow where
  id : String
  kind : Cell
  count : Cell
  addedAt : Cell
  checksum : Cell
  records : Cell
deriving DecidableEq

/-- The table of stored datasets, and a clock for the time of adding. -/
structure Storage where
  rows : List StoredRow
  clock : Nat

namespace Storage

def empty : Storage := ⟨[], 0⟩

def find? (storage : Storage) (id : String) : Option StoredRow :=
  storage.rows.find? (·.id = id)

def contains (storage : Storage) (id : String) : Bool :=
  (storage.find? id).isSome

/-! ### Writing -/

def recordsText (dataset : Dataset) : String :=
  (Json.array (dataset.records.map Record.toJson)).text

def rowOf (dataset : Dataset) (time : String) : StoredRow where
  id := dataset.id
  kind := .text dataset.kind.name
  count := .integer dataset.records.length
  addedAt := .text time
  checksum := .text (Digest.ofText (recordsText dataset))
  records := .text (recordsText dataset)

/-- Stores a dataset unless one of its id is stored already; tells whether
that was so. -/
def persist (storage : Storage) (dataset : Dataset) : Bool × Storage :=
  if storage.contains dataset.id then (true, storage)
  else
    (false,
      { rows := storage.rows ++
          [rowOf dataset (Timestamp.ofTick storage.clock)]
        clock := storage.clock + 1 })

/-- Removes a dataset; tells whether there was one. -/
def forget (storage : Storage) (id : String) : Bool × Storage :=
  (storage.contains id,
    { storage with rows := storage.rows.filter (·.id ≠ id) })

/-! ### Reading -/

def readRecords (id : String) (kind : Kind) (text : String) :
    Outcome (List Record) :=
  match (Json.read? Json.defaultMaxDepth text).bind Json.items? with
  | none => .error (.storage "the stored records are not a JSON array")
  | some items => items.mapM fun item =>
    (RecordReader.read kind item).mapError fun fault =>
      .corrupted (.record id kind fault)

def restoreRow (row : StoredRow) : Outcome Dataset := do
  let kindName ← row.kind.readText
  row.addedAt.readTime
  let checksum ← row.checksum.readText
  let text ← row.records.readText
  match Kind.ofName? kindName with
  | none => .error (.corrupted (.unknownKind row.id kindName))
  | some kind =>
    if Digest.ofText text ≠ checksum then
      .error (.corrupted (.checksum row.id))
    else return ⟨row.id, kind, ← readRecords row.id kind text⟩

def restore (storage : Storage) (id : String) : Outcome (Option Dataset) :=
  (storage.find? id).mapM restoreRow

/-! ### Listing -/

/-- An integer read as a count; a negative one wraps around 64 bits. -/
def countOf (n : Int) : Nat :=
  if n < 0 then (n % twoTo 64).toNat else n.toNat

/-- The listing entry of a row; there is none if its kind is unknown. -/
def rowInfo (row : StoredRow) : Outcome (Option DatasetInfo) := do
  let kindName ← row.kind.readText
  let count ← row.count.readInteger
  return (Kind.ofName? kindName).map fun kind => ⟨row.id, kind, countOf count⟩

/-- Whether a row was added no later than another, ids deciding a tie. -/
def addedBefore (a b : StoredRow) : Bool :=
  ((a.addedAt.order b.addedAt).then (compare a.id b.id)).isLE

/-- The listing entries of all stored datasets, the earliest first. -/
def infos (storage : Storage) : Outcome (List DatasetInfo) := do
  let entries ← (storage.rows.mergeSort addedBefore).mapM rowInfo
  return entries.filterMap id

end Storage

end CampusQuery
