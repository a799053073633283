/-
CampusQuery.Sorting.Merging — sorting short lists and merging sorted ones.

All functions here arrange the positions of a list by a comparison `less` of
positions. Where the comparison is an order, they leave no choice: elements
of which neither is less keep their places. Where it is none, because some
element stands level with elements that are not level with one another, the
outcome depends on which pairs are compared, so each function says which.
-/

namespace CampusQuery.Sorting

/-- A comparison of positions: whether the first element comes before the
second one. -/
abbrev Less := Nat → Nat → Bool

/-! ## Insertion -/

/-- Puts a position into a list held in reverse, in front of the first
element that is not above it. -/
def insertFromEnd (less : Less) (x : Nat) : List Nat → List Nat
  | [] => [x]
  | y :: rest =>
    if less x y then y :: insertFromEnd less x rest else x :: y :: rest

def insertAll (less : Less) (sorted positions : List Nat) : List Nat :=
  (positions.foldl (fun done x => insertFromEnd less x done)
    sorted.reverse).reverse

/-! ## Merging -/

/-- Merges two sorted lists from their starts. -/
def mergeUp (less : Less) (left right : List Nat) : List Nat :=
  left.merge right fun x y => !less y x

/-- Merges two sorted lists from their ends. -/
def mergeDown (less : Less) (left right : List Nat) : List Nat :=
  (right.reverse.merge left.reverse fun y x => !less y x).reverse

/-- Merges two sorted lists, from the side of the shorter one. -/
def merge (less : Less) (left right : List Nat) : List Nat :=
  if left.length ≤ right.length then mergeUp less left right
  else mergeDown less left right

/-- Merges two halves from both sides at once, until the two meet. -/
def mergeInward (less : Less) (left right : List Nat) : List Nat :=
  let half := (left.length + right.length) / 2
  let low := (mergeUp less left right).take half
  let high := ((mergeDown less left right).reverse.take half).reverse
  let rest := (left ++ right).filter fun x => x ∉ low ∧ x ∉ high
  low ++ rest ++ high

/-! ## Short lists -/

/-- Sorts four positions by five comparisons: two pairs, their lesser and
their greater elements, and the two that are left. -/
def sortFour (less : Less) (p q r s : Nat) : List Nat :=
  let (a, b) := if less q p then (q, p) else (p, q)
  let (c, d) := if less s r then (s, r) else (r, s)
  let swapLow := less c a
  let swapHigh := less d b
  let low := if swapLow then c else a
  let high := if swapHigh then b else d
  let before := if swapLow then a else if swapHigh then c else b
  let after := if swapHigh then d else if swapLow then b else c
  if less after before then [low, after, before, high]
  else [low, before, after, high]

/-- Sorts half of a short list, the first four positions at once if the half
is to start with so many. -/
def sortHalf (less : Less) (byFour : Bool) : List Nat → List Nat
  | p :: q :: r :: s :: rest =>
    if byFour then insertAll less (sortFour less p q r s) rest
    else insertAll less [] (p :: q :: r :: s :: rest)
  | positions => insertAll less [] positions

def sortShort (less : Less) (positions : List Nat) : List Nat :=
  if positions.length < 2 then positions
  else
    let half := positions.length / 2
    let byFour := 8 ≤ positions.length
    mergeInward less (sortHalf less byFour (positions.take half))
      (sortHalf less byFour (positions.drop half))

/-- Lists up to this length are short. -/
def shortLength : Nat := 32

end CampusQuery.Sorting
