/-
CampusQuery.Sorting.Partition — sorting long lists around a pivot.

The pivot is a median of samples. Positions below it go to its left and are
sorted apart from the others. A pivot that is not above the one to the left
of the list stands level with it; then all positions that the pivot is not
below are in place already. When the pivots turn out badly too often, the
rest is left to another way of sorting.
-/
import CampusQuery.Sorting.Merging

namespace CampusQuery.Sorting

/-! ## Pivots -/

def medianOfThree (less : Less) (a b c : Nat) : Nat :=
  if less a b = less a c then
    if less b c = less a b then b else c
  else a

/-- From this length on a sample is itself a median of samples. -/
def sampledLength : Nat := 64

/-- The median of samples from three stretches of `count` positions that
start at the given indices. -/
def medianOfSamples (less : Less) (positions : Array Nat) (a b c count : Nat) :
    Nat :=
  if h : sampledLength ≤ count * 8 then
    let eighth := count / 8
    let sample (start : Nat) :=
      medianOfSamples less positions start (start + eighth * 4)
        (start + eighth * 7) eighth
    medianOfThree less (sample a) (sample b) (sample c)
  else
    medianOfThree less (positions.getD a 0) (positions.getD b 0)
      (positions.getD c 0)
termination_by count
decreasing_by all_goals simp only [sampledLength] at h; omega

def pivotOf (less : Less) (positions : List Nat) : Nat :=
  let table := positions.toArray
  let eighth := table.size / 8
  if table.size < sampledLength then
    medianOfThree less (table.getD 0 0) (table.getD (eighth * 4) 0)
      (table.getD (eighth * 7) 0)
  else medianOfSamples less table 0 (eighth * 4) (eighth * 7) eighth

/-! ## Partitions -/

/-- Sorts a list around pivots, at most `limit` times one inside the other;
`bound` is the pivot to the left of the list, if there is one. -/
def sortAround (less : Less) (otherwise : List Nat → List Nat) :
    Nat → Option Nat → List Nat → List Nat
  | 0, _, positions =>
    if positions.length ≤ shortLength then sortShort less positions
    else otherwise positions
  | limit + 1, bound, positions =>
    if positions.length ≤ shortLength then sortShort less positions
    else
      let pivot := pivotOf less positions
      let (below, rest) := positions.partition fun x =>
        x ≠ pivot && less x pivot
      if bound.any (!less · pivot) || below.isEmpty then
        let (level, above) := positions.partition fun x =>
          x = pivot || !less pivot x
        level ++ sortAround less otherwise limit none above
      else
        sortAround less otherwise limit bound below ++
          sortAround less otherwise limit (some pivot) rest

end CampusQuery.Sorting
