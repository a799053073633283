/-
CampusQuery.Registry.Basic — the registry of datasets.

The registry is a shelf of loaded datasets in front of storage. Adding
writes a dataset to both; a dataset that is only stored is loaded when it is
first asked for. An operation returns its outcome together with the registry
after it, because a request that fails may have changed something before.
Nothing here depends on what is logged, so log lines are left out.
-/
import CampusQuery.Query.Execution
import CampusQuery.Registry.Shelf
import CampusQuery.Registry.Storage

namespace CampusQuery

structure Registry where
  shelf : Shelf
  storage : Storage

namespace Registry

def empty : Registry := ⟨.empty, .empty⟩

/-- The registry of a program that starts anew on the same storage. -/
def restart (registry : Registry) : Registry :=
  ⟨.empty, registry.storage⟩

/-! ## Listing -/

/-- The listing entries of the loaded datasets, then of those that are only
stored. -/
def list (registry : Registry) : Outcome (List DatasetInfo) := do
  let loaded := registry.shelf.datasets.map Dataset.info
  let stored ← registry.storage.infos
  return loaded ++ stored.filter fun info => loaded.all (·.id ≠ info.id)

def ids (registry : Registry) : Outcome (List String) := do
  return (← registry.list).map (·.id)

/-! ## Adding and removing -/

def contains (registry : Registry) (id : String) : Bool :=
  registry.shelf.contains id || registry.storage.contains id

/-- Checks that a dataset can be added, and makes it. -/
def prepare (registry : Registry) (id : String) (kind : Kind)
    (records : List Record) : Outcome Dataset := do
  Dataset.checkId id
  if registry.contains id then refuse (.dataset (.taken id))
  else Dataset.ofRecords id kind records

/-- Adds a dataset; gives the ids of all datasets after that. -/
def add (registry : Registry) (id : String) (kind : Kind)
    (records : List Record) : Outcome (List String) × Registry :=
  match registry.prepare id kind records with
  | .error e => (.error e, registry)
  | .ok dataset =>
    let after : Registry :=
      ⟨registry.shelf.keep dataset, (registry.storage.persist dataset).2⟩
    (after.ids, after)

def readContent (kind : Kind) (content : Json) : Outcome (List Record) :=
  match content.items? with
  | none => refuse (.dataset .notRecords)
  | some items => items.mapM (Record.ofJson kind)

/-- Adds a dataset given as a JSON list of records. -/
def addJson (registry : Registry) (id : String) (kind : Kind)
    (content : Json) : Outcome (List String) × Registry :=
  match readContent kind content with
  | .error e => (.error e, registry)
  | .ok records => registry.add id kind records

/-- Removes a dataset wherever it is; gives its id. -/
def remove (registry : Registry) (id : String) :
    Outcome String × Registry :=
  match Dataset.checkId id with
  | .error e => (.error e, registry)
  | .ok () =>
    if registry.contains id then
      (.ok id,
        ⟨registry.shelf.release id, (registry.storage.forget id).2⟩)
    else (.error (.notFound s!"Dataset '{id}' not found"), registry)

/-! ## Queries -/

/-- The dataset of an id; one that is only stored gets loaded. -/
def resolve (registry : Registry) (id : String) :
    Outcome (Option Dataset) × Registry :=
  match registry.shelf.get? id with
  | some dataset => (.ok (some dataset), registry)
  | none =>
    match registry.storage.restore id with
    | .error e => (.error e, registry)
    | .ok none => (.ok none, registry)
    | .ok (some dataset) =>
      (.ok (some dataset),
        { registry with shelf := registry.shelf.keep dataset })

def source (registry : Registry) : Query.Source := fun id =>
  (registry.resolve id).1

/-- The registry after the dataset of a query has been asked for. -/
def afterBinding (registry : Registry) (raw : Json) : Registry :=
  match Query.boundDataset raw with
  | .error _ => registry
  | .ok id => (registry.resolve id).2

def validate (registry : Registry) (raw : Json) :
    Outcome (Dataset × Query) × Registry :=
  (Query.validate registry.source raw, registry.afterBinding raw)

def query (registry : Registry) (raw : Json) :
    Outcome (List Row) × Registry :=
  (Query.perform registry.source raw, registry.afterBinding raw)

end Registry

end CampusQuery
