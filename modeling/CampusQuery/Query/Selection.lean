/-
CampusQuery.Query.Selection — the records that a condition selects.

Selecting goes in two steps: `select` finds the positions of the records
that meet the condition, in ascending order, and `selectRows` turns the
records at these positions into rows. Without a condition every record is
selected.
-/
import CampusQuery.Dataset
import CampusQuery.Query.Predicate

namespace CampusQuery.Query

/-- Positions are counted in 32 bits. -/
def positionLimit : Nat := Numeric.twoTo 32

def keeps (predicate : Option Predicate) (record : Record) : Outcome Bool :=
  match predicate with
  | some predicate => predicate.holds record
  | none => return true

/-- The positions of the records that are kept, the first record standing at
the given position. -/
def positionsFrom (predicate : Option Predicate) :
    Nat → List Record → Outcome (List Nat)
  | _, [] => return []
  | position, record :: rest => do
    if ← keeps predicate record then
      if position < positionLimit then
        return position :: (← positionsFrom predicate (position + 1) rest)
      else refuse (.run .tooManyRecords)
    else positionsFrom predicate (position + 1) rest

def select (dataset : Dataset) (predicate : Option Predicate) :
    Outcome (List Nat) :=
  positionsFrom predicate 0 dataset.records

def rowAt (dataset : String) (records : Array Record) (position : Nat) :
    Outcome Row :=
  match records[position]? with
  | some record => record.toRow dataset
  | none => refuse (.run .lostRecord)

def selectRows (dataset : Dataset) (predicate : Option Predicate) :
    Outcome (List Row) := do
  let positions ← select dataset predicate
  positions.mapM (rowAt dataset.id dataset.records.toArray)

end CampusQuery.Query
