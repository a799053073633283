/-
CampusQuery.Sorting.Runs — sorting by runs.

A list is cut into runs. A long enough stretch that is in order already, or
strictly in the opposite order, is a run; other runs are sorted when they
are needed, or at once if the list is not too long. Runs that lie side by
side are merged two by two. `depthBetween` tells how deep in a balanced tree
over the whole list two neighbours are to be merged.
-/
import CampusQuery.Sorting.Partition

namespace CampusQuery.Sorting

/-! ## Runs -/

/-- A stretch of a list, sorted or not. -/
structure Run where
  isSorted : Bool
  positions : List Nat

/-- How many positions at the start of a list follow one another in the way
that `follows` tells. -/
def stretchLength (follows : Nat → Nat → Bool) : List Nat → Nat
  | x :: y :: rest =>
    if follows x y then stretchLength follows (y :: rest) + 1 else 1
  | [_] => 1
  | [] => 0

/-- The stretch at the start of a list that is in order, or strictly in the
opposite order; in the latter case it is turned around. -/
def orderedStart (less : Less) (positions : List Nat) : List Nat :=
  match positions with
  | x :: y :: _ =>
    if less y x then
      (positions.take (stretchLength (fun a b => less b a) positions)).reverse
    else positions.take (stretchLength (fun a b => !less b a) positions)
  | _ => positions

/-- The run at the start of a list; one that is in order already counts if it
has at least `minLength` positions. -/
def firstRun (less : Less) (minLength : Nat) (atOnce : Bool)
    (positions : List Nat) : Run :=
  let start := orderedStart less positions
  if minLength ≤ start.length then ⟨true, start⟩
  else if atOnce then ⟨true, sortShort less (positions.take shortLength)⟩
  else ⟨false, positions.take minLength⟩

def runsOf (less : Less) (minLength : Nat) (atOnce : Bool) :
    Nat → List Nat → List Run
  | 0, _ => []
  | fuel + 1, positions =>
    if positions.isEmpty then []
    else
      let run := firstRun less minLength atOnce positions
      run :: runsOf less minLength atOnce fuel
        (positions.drop run.positions.length)

def roughRoot (n : Nat) : Nat :=
  let shift := (1 + Nat.log2 n) / 2
  (Nat.pow 2 shift + n / Nat.pow 2 shift) / 2

/-- A run of at least half the list or 64 positions counts; in long lists the
square root of the length takes the place of 64. -/
def minRunLength (length : Nat) : Nat :=
  if length ≤ 64 * 64 then min (length - length / 2) 64
  else roughRoot length

/-! ## The order of merging -/

/-- How deep two neighbouring runs, between three places in a list, are to be
merged: the number of leading binary digits that the middles of the two have
in common. -/
def depthBetween (length start middle stop : Nat) : Nat :=
  let scale := (Nat.pow 2 62 + length - 1) / length
  let difference :=
    Nat.xor (scale * (start + middle)) (scale * (middle + stop))
  if difference = 0 then 64 else 63 - Nat.log2 difference

def Run.sorted (sort : List Nat → List Nat) (run : Run) : List Nat :=
  if run.isSorted then run.positions else sort run.positions

/-- Joins two neighbouring runs; two that are not sorted stay so. -/
def Run.join (less : Less) (sort : List Nat → List Nat) (left right : Run) :
    Run :=
  if left.isSorted || right.isSorted then
    ⟨true, merge less (left.sorted sort) (right.sorted sort)⟩
  else ⟨false, left.positions ++ right.positions⟩

/-- Joins a run to the runs before it that are to be merged at least as
deep as `depth`. The nearest of them comes first, each with its depth. -/
def joinBack (less : Less) (sort : List Nat → List Nat) (depth : Nat) :
    List (Run × Nat) → Run → List (Run × Nat) × Run
  | (left, deep) :: before, run =>
    if depth ≤ deep then
      joinBack less sort depth before (Run.join less sort left run)
    else ((left, deep) :: before, run)
  | [], run => ([], run)

/-- Merges all runs of a list of a given length. The last run so far stands
apart from the runs before it, and it starts at `start`. -/
def joinRuns (less : Less) (sort : List Nat → List Nat) (length : Nat) :
    List (Run × Nat) → Run → Nat → List Run → Run
  | before, last, _, [] => (joinBack less sort 0 before last).2
  | before, last, start, next :: rest =>
    let middle := start + last.positions.length
    let stop := middle + next.positions.length
    let depth := depthBetween length start middle stop
    let (before, joined) := joinBack less sort depth before last
    joinRuns less sort length ((joined, depth) :: before) next middle rest

def sortByRuns (less : Less) (sort : List Nat → List Nat) (atOnce : Bool)
    (positions : List Nat) : List Nat :=
  let length := positions.length
  match runsOf less (minRunLength length) atOnce length positions with
  | [] => positions
  | first :: rest =>
    (joinRuns less sort length [] first 0 rest).sorted sort

/-! ## Whole lists -/

def sortByPivots (less : Less) (positions : List Nat) : List Nat :=
  sortAround less (sortByRuns less id true)
    (2 * Nat.log2 positions.length) none positions

/-- Lists up to this length are sorted by insertion. -/
def insertionLength : Nat := 20

/-- Sorts a list in the way that suits its length. -/
def arrange (less : Less) (positions : List Nat) : List Nat :=
  if positions.length ≤ insertionLength then insertAll less [] positions
  else
    let atOnce := positions.length ≤ 2 * shortLength
    sortByRuns less (sortByPivots less) atOnce positions

end CampusQuery.Sorting
