/-
CampusQuery.Registry.Failure — adding and removing when steps may fail.

The shelf and storage are looked into and changed one after the other. Each
of these steps takes a lock, and those on storage run a statement; either may
fail, and then the step itself changes nothing. What was done before it is
not undone. A `Gate` says which steps fail, and `Registry.addThrough`,
`Registry.addJsonThrough` and `Registry.removeThrough` take the steps of a
request one by one. With all steps let through they are the requests of
`CampusQuery.Registry.Basic`.
-/
import CampusQuery.Registry.Basic

namespace CampusQuery

/-! ## Steps -/

/-- The steps of adding and removing that may fail. -/
inductive Step
  | findLoaded
  | findStored
  | findAgain
  | insert
  | keep
  | list
  | release
  | delete

/-- Lets a step through, or says why it fails. -/
abbrev Gate := Step → Outcome Unit

def Gate.clear : Gate := fun _ => .ok ()

/-! ## Adding -/

/-- Stores a dataset unless one of its id is stored already; tells whether
that was so. -/
def Storage.persistThrough (gate : Gate) (storage : Storage)
    (dataset : Dataset) : Outcome (Bool × Storage) := do
  gate .findAgain
  if storage.contains dataset.id then return (true, storage)
  else
    gate .insert
    return storage.persist dataset

namespace Registry

/-- Whether a dataset is loaded or stored; storage is only asked about what is
not loaded. -/
def containsThrough (gate : Gate) (registry : Registry) (id : String) :
    Outcome Bool := do
  gate .findLoaded
  if registry.shelf.contains id then return true
  else
    gate .findStored
    return registry.storage.contains id

def prepareThrough (gate : Gate) (registry : Registry) (id : String)
    (kind : Kind) (records : List Record) : Outcome Dataset := do
  Dataset.checkId id
  if ← registry.containsThrough gate id then refuse (.dataset (.taken id))
  else Dataset.ofRecords id kind records

def addThrough (gate : Gate) (registry : Registry) (id : String)
    (kind : Kind) (records : List Record) :
    Outcome (List String) × Registry :=
  match registry.prepareThrough gate id kind records with
  | .error e => (.error e, registry)
  | .ok dataset =>
    match registry.storage.persistThrough gate dataset with
    | .error e => (.error e, registry)
    | .ok (true, _) => (refuse (.dataset (.taken id)), registry)
    | .ok (false, storage) =>
      match gate .keep with
      | .error e => (.error e, ⟨registry.shelf, storage⟩)
      | .ok () =>
        let after : Registry := ⟨registry.shelf.keep dataset, storage⟩
        (do gate .list; after.ids, after)

def addJsonThrough (gate : Gate) (registry : Registry) (id : String)
    (kind : Kind) (content : Json) : Outcome (List String) × Registry :=
  match readContent kind content with
  | .error e => (.error e, registry)
  | .ok records => registry.addThrough gate id kind records

/-! ## Removing -/

/-- Removes a dataset from the shelf and then from storage; gives its id. -/
def removeThrough (gate : Gate) (registry : Registry) (id : String) :
    Outcome String × Registry :=
  match do Dataset.checkId id; gate .release with
  | .error e => (.error e, registry)
  | .ok () =>
    match gate .delete with
    | .error e => (.error e, ⟨registry.shelf.release id, registry.storage⟩)
    | .ok () =>
      let (stored, storage) := registry.storage.forget id
      let after : Registry := ⟨registry.shelf.release id, storage⟩
      if registry.shelf.contains id || stored then (.ok id, after)
      else (.error (.notFound s!"Dataset '{id}' not found"), after)

end Registry

end CampusQuery
