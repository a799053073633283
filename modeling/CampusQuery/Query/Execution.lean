/-
CampusQuery.Query.Execution — answering queries.

`Query.run` answers a query from a dataset: it selects rows, groups them,
refuses too many of them, sorts and projects. `perform` does all that is
needed for a query given as JSON: it finds out which dataset the query is
about, asks a source for it once, and validates and runs the query. Whatever
a source reports becomes a refusal of the query.
-/
import CampusQuery.Query.Binding
import CampusQuery.Query.Selection
import CampusQuery.Query.Validation

namespace CampusQuery.Query

/-- The most rows that a query may have before sorting and projecting. -/
def maxRows : Nat := 5000

def limitRows (rows : List Row) : Outcome (List Row) :=
  if maxRows < rows.length then .error (.tooLarge rows.length maxRows)
  else .ok rows

/-- The rows that answer a query, from the dataset it is bound to. -/
def run (query : Query) (dataset : Dataset) : Outcome (List Row) :=
  if dataset.id ≠ query.dataset then
    refuse (.run (.boundElsewhere query.dataset dataset.id))
  else do
    let selected ← selectRows dataset query.predicate
    let grouped ← match query.grouping with
      | some grouping => grouping.apply selected
      | none => pure selected
    let rows ← limitRows grouped
    query.options.project (← query.options.orderRows rows)

/-! ## Sources of datasets -/

/-- Read access to datasets by their ids. -/
abbrev Source := String → Outcome (Option Dataset)

def settle (id : String) : Outcome (Option Dataset) → Outcome Dataset
  | .ok (some dataset) => .ok dataset
  | .ok none => refuse (.dataset (.unknown id))
  | .error e => refuse (.reported e.message)

def validate (source : Source) (raw : Json) : Outcome (Dataset × Query) := do
  let id ← boundDataset raw
  let dataset ← settle id (source id)
  return (dataset, ← read dataset.id dataset.kind raw)

def perform (source : Source) (raw : Json) : Outcome (List Row) := do
  let (dataset, query) ← validate source raw
  query.run dataset

end CampusQuery.Query
