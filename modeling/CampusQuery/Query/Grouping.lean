/-
CampusQuery.Query.Grouping — rows gathered into groups.

A grouping has the fields that decide which rows belong together and the
aggregates computed over each group. Rows belong together if the texts of
their key values, written one after the other, are the same. Groups come in
the order of their first rows, and each of them becomes one row: the key
columns as in its first row, then the aggregates.
-/
import CampusQuery.Query.Aggregate

namespace CampusQuery.Query

structure Grouping where
  keys : List FieldRef
  aggregates : List Aggregate
deriving DecidableEq

namespace Grouping

/-! ## Building -/

def empty : Grouping := ⟨[], []⟩

def setKeys (grouping : Grouping) (keys : List FieldRef) :
    Outcome Grouping :=
  if keys.isEmpty then refuse (.clause .emptyGroup)
  else .ok { grouping with keys := keys }

/-- The grouping with one more aggregate, under a name that is new and
could not be the name of a field. -/
def addAggregate (grouping : Grouping) (name : String) (op : AggregateOp)
    (source : FieldRef) : Outcome Grouping := do
  if name = "" ∨ name.toList.contains '_' then
    refuse (.clause (.aggregateName name))
  else if grouping.aggregates.any (·.name = name) then
    refuse (.clause (.duplicateAggregate name))
  else
    Aggregate.checkType op source
    return { grouping with
      aggregates := grouping.aggregates ++ [⟨name, op, source⟩] }

def resultColumns (grouping : Grouping) : List String :=
  grouping.keys.map FieldRef.column ++ grouping.aggregates.map (·.name)

/-- Checks every field of a grouping, and that it has keys. -/
def check (grouping : Grouping) (dataset : String) (kind : Kind) :
    Outcome Unit := do
  if grouping.keys.isEmpty then refuse (.clause .emptyGroup)
  else
    grouping.keys.forM fun key => key.check dataset kind
    grouping.aggregates.forM fun aggregate => aggregate.check dataset kind

/-! ## Groups -/

def keyText (row : Row) (column : String) : Outcome String :=
  match row.get? column with
  | some value => .ok value.display
  | none => refuse (.run (.noGroupColumn column))

/-- The text that decides to which group a row belongs. -/
def groupText (columns : List String) (row : Row) : Outcome String := do
  return String.join (← columns.mapM (keyText row))

structure Gathering (α : Type) where
  places : List (String × Nat)
  groups : List (List α)

namespace Gathering

variable {α : Type}

def empty : Gathering α := ⟨[], []⟩

/-- Adds an item to the group of its text. A text that is new gets the next
place. -/
def add (gathering : Gathering α) (tagged : String × α) : Gathering α :=
  match gathering.places.lookup tagged.1 with
  | some place =>
    { gathering with
      groups := gathering.groups.modify place (· ++ [tagged.2]) }
  | none =>
    { places := (tagged.1, gathering.groups.length) :: gathering.places
      groups := gathering.groups ++ [[tagged.2]] }

end Gathering

/-- Items gathered by a text for each of them. -/
def gather {α : Type} (texts : List String) (items : List α) :
    List (List α) :=
  ((texts.zip items).foldl Gathering.add .empty).groups

def buckets (grouping : Grouping) (rows : List Row) :
    Outcome (List (List Row)) := do
  let columns := grouping.keys.map FieldRef.column
  return gather (← rows.mapM (groupText columns)) rows

/-- The key columns of a group, as in its first row. -/
def keyColumns (grouping : Grouping) (bucket : List Row) :
    List (String × Value) :=
  let first := bucket.headD .empty
  grouping.keys.filterMap fun key =>
    (first.get? key.column).map (key.column, ·)

def bucketRow (grouping : Grouping) (bucket : List Row) : Outcome Row := do
  let computed ← grouping.aggregates.mapM fun aggregate => do
    return (aggregate.name, ← aggregate.compute bucket)
  return .ofColumns (grouping.keyColumns bucket ++ computed)

/-- One row for each group of the given rows. -/
def apply (grouping : Grouping) (rows : List Row) : Outcome (List Row) := do
  (← grouping.buckets rows).mapM grouping.bucketRow

end Grouping

end CampusQuery.Query
