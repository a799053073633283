/-
CampusQuery.Registry.IndexedShelf — loaded datasets found by their ids.

A shelf that finds datasets quickly has an index from ids to datasets, and
remembers apart from it in which order the ids were first put there. What
happens to the order depends on what the index had under the id: keeping a
dataset adds a new id at the end, and releasing one takes its id out. Read off
in that order, the datasets are those of a `Shelf`.
-/
import Mathlib.Data.Finmap
import CampusQuery.Registry.Shelf

namespace CampusQuery

/-! ## Actions on shelves -/

namespace Shelf

inductive Action
  | keep (dataset : Dataset)
  | release (id : String)

namespace Action

def id : Action → String
  | keep dataset => dataset.id
  | release id => id

/-- The dataset that is there under the id after the action. -/
def dataset? : Action → Option Dataset
  | keep dataset => some dataset
  | release _ => none

end Action

def act (shelf : Shelf) : Action → Shelf
  | .keep dataset => shelf.keep dataset
  | .release id => shelf.release id

/-- The shelf after some actions, which start with an empty one. -/
def afterAll (actions : List Action) : Shelf := actions.foldl act empty

end Shelf

/-! ## Shelves with an index -/

/-- Loaded datasets by their ids, and the order of the ids. -/
structure IndexedShelf where
  index : Finmap fun _ : String => Dataset
  order : List String

namespace IndexedShelf

def empty : IndexedShelf := ⟨∅, []⟩

/-- Keeps a dataset, in place of any other under its id, and gives it back. -/
def keep (shelf : IndexedShelf) (dataset : Dataset) :
    Dataset × IndexedShelf :=
  let replaced := shelf.index.lookup dataset.id
  (dataset,
    { index := shelf.index.insert dataset.id dataset
      order :=
        if replaced.isNone then shelf.order ++ [dataset.id]
        else shelf.order })

/-- Takes the dataset of an id off the shelf, and gives it if there was
one. -/
def release (shelf : IndexedShelf) (id : String) :
    Option Dataset × IndexedShelf :=
  let released := shelf.index.lookup id
  (released,
    { index := shelf.index.erase id
      order :=
        if released.isSome then shelf.order.filter (· ≠ id)
        else shelf.order })

def get? (shelf : IndexedShelf) (id : String) : Option Dataset :=
  shelf.index.lookup id

def contains (shelf : IndexedShelf) (id : String) : Bool := id ∈ shelf.index

/-- The datasets in order; ids that the index does not have are passed
over. -/
def datasets (shelf : IndexedShelf) : List Dataset :=
  shelf.order.filterMap fun id => shelf.index.lookup id

def size (shelf : IndexedShelf) : Nat := shelf.index.keys.card

def toShelf (shelf : IndexedShelf) : Shelf := ⟨shelf.datasets⟩

def act (shelf : IndexedShelf) : Shelf.Action → IndexedShelf
  | .keep dataset => (shelf.keep dataset).2
  | .release id => (shelf.release id).2

def afterAll (actions : List Shelf.Action) : IndexedShelf :=
  actions.foldl act empty

end IndexedShelf

end CampusQuery
