/-
CampusQuery.Registry.Shelf — the datasets that are loaded.

A shelf holds datasets in the order in which their ids were first put
there. Keeping a dataset under an id that is on the shelf replaces the one
that was there and leaves its place.
-/
import CampusQuery.Dataset

namespace CampusQuery

/-- The loaded datasets, in order. -/
structure Shelf where
  datasets : List Dataset

namespace Shelf

def empty : Shelf := ⟨[]⟩

/-- Replaces the dataset of the same id, or adds one at the end. -/
def put (dataset : Dataset) : List Dataset → List Dataset
  | [] => [dataset]
  | kept :: rest =>
    if kept.id = dataset.id then dataset :: rest
    else kept :: put dataset rest

def keep (shelf : Shelf) (dataset : Dataset) : Shelf :=
  ⟨put dataset shelf.datasets⟩

def get? (shelf : Shelf) (id : String) : Option Dataset :=
  shelf.datasets.find? (·.id = id)

def contains (shelf : Shelf) (id : String) : Bool := (shelf.get? id).isSome

def release (shelf : Shelf) (id : String) : Shelf :=
  ⟨shelf.datasets.filter (·.id ≠ id)⟩

def ids (shelf : Shelf) : List String := shelf.datasets.map (·.id)

def size (shelf : Shelf) : Nat := shelf.datasets.length

/-! ## Datasets after keeping one -/

/-- The dataset that was just kept is the one under its id. -/
theorem get?_keep_self (shelf : Shelf) (dataset : Dataset) :
    (shelf.keep dataset).get? dataset.id = some dataset := by
  simp only [get?, keep]
  induction shelf.datasets with
  | nil => simp [put]
  | cons kept rest ih =>
    by_cases h : kept.id = dataset.id
    · simp [put, h]
    · simp [put, h, ih]

/-- Keeping a dataset leaves those of other ids as they are. -/
theorem get?_keep_of_ne (shelf : Shelf) {dataset : Dataset} {id : String}
    (h : dataset.id ≠ id) : (shelf.keep dataset).get? id = shelf.get? id := by
  simp only [get?, keep]
  induction shelf.datasets with
  | nil => simp [put, h]
  | cons kept rest ih =>
    by_cases hk : kept.id = dataset.id
    · simp [put, hk, h]
    · by_cases hi : kept.id = id
      · subst hi
        simp [put, hk]
      · simp [put, hk, hi, ih]

/-- Nothing is left under an id that was released. -/
theorem get?_release_self (shelf : Shelf) (id : String) :
    (shelf.release id).get? id = none := by
  simp [get?, release]

end Shelf

end CampusQuery
