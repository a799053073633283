/-
CampusQuery.Sorting.Basic — sorting lists by any comparison.

`stableSort` is for comparisons that are orders up to ties; elements that
tie keep their places. `sortAnyway?` is for all others. It arranges positions
only, so what it does depends on nothing but the outcomes of comparisons.
Comparisons that contradict one another may lead it to put one element in two
places, and another one in none; then it has no result.
-/
import CampusQuery.Sorting.Runs

namespace CampusQuery.Sorting

/-- Sorts a list; elements of which neither is less keep their order. -/
def stableSort {α : Type} (less : α → α → Bool) (xs : List α) : List α :=
  xs.mergeSort fun a b => !less b a

def lessAt {α : Type} (less : α → α → Bool) (xs : Array α) : Less :=
  fun i j =>
    match xs[i]?, xs[j]? with
    | some a, some b => less a b
    | _, _ => false

/-- The arrangement of the positions below `count`, if it holds each of them
once. -/
def arrangedPositions? (less : Less) (count : Nat) : Option (List Nat) :=
  let positions := List.range count
  let arranged := arrange less positions
  if arranged.isPerm positions then some arranged else none

def sortAnyway? {α : Type} (less : α → α → Bool) (xs : List α) :
    Option (List α) :=
  let table := xs.toArray
  (arrangedPositions? (lessAt less table) table.size).map fun positions =>
    positions.filterMap (table[·]?)

end CampusQuery.Sorting
