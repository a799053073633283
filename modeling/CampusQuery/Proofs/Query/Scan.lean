/-
CampusQuery.Proofs.Query.Scan — selecting in two steps and in one pass.

Selecting first finds positions and then makes rows of the records there. The
positions may be kept in any set that is gone through in ascending order
(`PositionSet`): after each record the set holds what it held before and the
positions found since, in this order (`collect_eq`). `scanRows` makes the row of
a record as soon as the record is found to be kept. Both come to the same
(`positionsFrom_bind_rowAt`), since making a row cannot fail, and so an error
found in a later record is not preceded by another.
-/
import Mathlib.Data.Finset.Sort
import CampusQuery.Proofs.Query.Answer

namespace CampusQuery.Query

open Outcome

/-! ## One record -/

section

variable {predicate : Option Predicate} {record : Record} {rest : List Record}
variable {start : Nat}

/-- The position of a record that is kept comes in front of those of the others,
if it can be counted. -/
theorem positionsFrom_cons_of_kept (hkept : keeps predicate record = .ok true) :
    positionsFrom predicate start (record :: rest) =
      if start < positionLimit then
        (start :: ·) <$> positionsFrom predicate (start + 1) rest
      else refuse (.run .tooManyRecords) := by
  rw [positionsFrom, hkept]
  cases positionsFrom predicate (start + 1) rest <;> rfl

theorem positionsFrom_cons_of_not_kept
    (hkept : keeps predicate record = .ok false) :
    positionsFrom predicate start (record :: rest)
      = positionsFrom predicate (start + 1) rest := by
  rw [positionsFrom, hkept]
  rfl

theorem positionsFrom_cons_of_error {e : Error}
    (hkept : keeps predicate record = .error e) :
    positionsFrom predicate start (record :: rest) = .error e := by
  rw [positionsFrom, hkept]
  rfl

end

/-! ## Sets of positions -/

/-- Sets of positions that are counted in 32 bits: how a position is put into
one, and how its members are gone through. -/
structure PositionSet (σ : Type) where
  empty : σ
  insert : Nat → σ → σ
  toList : σ → List Nat
  toList_empty : toList empty = []
  mem_insert : ∀ {position : Nat}, position < positionLimit →
    ∀ (found : σ) (member : Nat),
      member ∈ toList (insert position found) ↔
        member = position ∨ member ∈ toList found
  ascending : ∀ found : σ, (toList found).Pairwise (· < ·)

namespace PositionSet

variable {σ : Type} (set : PositionSet σ)

/-- A position above all members comes last. -/
theorem toList_insert {found : σ} {position : Nat}
    (hlimit : position < positionLimit)
    (habove : ∀ member ∈ set.toList found, member < position) :
    set.toList (set.insert position found)
      = set.toList found ++ [position] := by
  have hsorted : (set.toList found ++ [position]).Pairwise (· < ·) := by
    rw [List.pairwise_append]
    refine ⟨set.ascending found, List.pairwise_singleton _ _, ?_⟩
    simpa using habove
  refine (set.ascending _).eq_of_mem_iff hsorted fun member => ?_
  rw [set.mem_insert hlimit, List.mem_append, List.mem_singleton, or_comm]

/-- The records are tested one after the other, the first one standing at the
given position, and the positions of those that are kept are put into a set. -/
def collect (predicate : Option Predicate) :
    Nat → List Record → σ → Outcome σ
  | _, [], found => return found
  | position, record :: rest, found => do
    if ← keeps predicate record then
      if position < positionLimit then
        collect predicate (position + 1) rest (set.insert position found)
      else refuse (.run .tooManyRecords)
    else collect predicate (position + 1) rest found

/-- What has been found so far comes in front of what is found in the other
records. -/
theorem collect_eq (predicate : Option Predicate) {records : List Record}
    {start : Nat} {found : σ}
    (hbelow : ∀ member ∈ set.toList found, member < start) :
    set.toList <$> set.collect predicate start records found
      = (set.toList found ++ ·) <$> positionsFrom predicate start records := by
  induction records generalizing start found with
  | nil => simp [collect, positionsFrom]
  | cons record rest ih =>
    have hlater : ∀ member ∈ set.toList found, member < start + 1 :=
      fun member hmember => Nat.lt_succ_of_lt (hbelow member hmember)
    rw [collect]
    cases hkept : keeps predicate record with
    | error e =>
      rw [positionsFrom_cons_of_error hkept]
      rfl
    | ok kept =>
      cases kept with
      | false =>
        rw [positionsFrom_cons_of_not_kept hkept]
        exact ih hlater
      | true =>
        rw [positionsFrom_cons_of_kept hkept]
        by_cases hlimit : start < positionLimit
        · have hinsert := set.toList_insert hlimit hbelow
          have hall : ∀ member ∈ set.toList (set.insert start found),
              member < start + 1 := by
            simpa [hinsert, or_imp, forall_and] using hlater
          have hrest := ih hall
          rw [hinsert] at hrest
          simp only [hlimit, if_true, bind, Except.bind, hrest]
          cases positionsFrom predicate (start + 1) rest <;> simp
        · simp only [hlimit, if_true, if_false, bind, Except.bind]
          rfl

/-- The rows of the selected records, their positions being kept in a set. -/
def selectRows (dataset : Dataset) (predicate : Option Predicate) :
    Outcome (List Row) := do
  let found ← set.collect predicate 0 dataset.records set.empty
  (set.toList found).mapM (rowAt dataset.id dataset.records.toArray)

/-- It does not matter which set the positions are kept in. -/
theorem selectRows_eq (dataset : Dataset) (predicate : Option Predicate) :
    set.selectRows dataset predicate = Query.selectRows dataset predicate := by
  have hcollect :
      set.toList <$> set.collect predicate 0 dataset.records set.empty
        = (set.toList set.empty ++ ·)
          <$> positionsFrom predicate 0 dataset.records :=
    set.collect_eq predicate (by simp [set.toList_empty])
  rw [set.toList_empty] at hcollect
  unfold selectRows Query.selectRows select
  cases hfound : set.collect predicate 0 dataset.records set.empty <;>
    cases hpositions : positionsFrom predicate 0 dataset.records <;>
    simp_all [Functor.map, Except.map, bind, Except.bind]

end PositionSet

/-! ## One pass -/

/-- One pass over the records: every one of them is tested, and if it is kept it
becomes a row before the next one is looked at. -/
def scanRows (predicate : Option Predicate) (dataset : String) :
    List Record → Outcome (List Row)
  | [] => return []
  | record :: rest => do
    if ← keeps predicate record then
      let row ← record.toRow dataset
      return row :: (← scanRows predicate dataset rest)
    else scanRows predicate dataset rest

section

variable {predicate : Option Predicate} {dataset : String}

/-- What is found from some record on are the rows that one pass makes from
there on. -/
theorem positionsFrom_bind_rowAt {records : List Record} (before : List Record)
    (hsize : (before ++ records).length ≤ positionLimit) :
    (do
      let positions ← positionsFrom predicate before.length records
      positions.mapM (rowAt dataset (before ++ records).toArray))
      = scanRows predicate dataset records := by
  induction records generalizing before with
  | nil => rfl
  | cons record rest ih =>
    have hrest := ih (before ++ [record]) (by simpa using hsize)
    rw [List.append_assoc, List.singleton_append, List.length_append,
      List.length_singleton] at hrest
    rw [scanRows, ← hrest]
    cases hkept : keeps predicate record with
    | error e =>
      rw [positionsFrom_cons_of_error hkept]
      rfl
    | ok kept =>
      cases kept with
      | false =>
        rw [positionsFrom_cons_of_not_kept hkept]
        rfl
      | true =>
        have hlimit : before.length < positionLimit := by
          simp only [List.length_append, List.length_cons] at hsize
          omega
        obtain ⟨row, hrow, -⟩ := record.exists_toRow dataset
        have hat : rowAt dataset (before ++ record :: rest).toArray
            before.length = .ok row := by
          simpa [rowAt] using hrow
        rw [positionsFrom_cons_of_kept hkept, if_pos hlimit, hrow]
        cases positionsFrom predicate (before.length + 1) rest with
        | error e => rfl
        | ok positions =>
          simp only [Functor.map, Except.map, bind, Except.bind, if_true]
          rw [List.mapM_cons, hat]
          rfl

/-- A record that can be tested puts its row in front of the others if it is
kept. -/
theorem scanRows_cons {record : Record} {kept : Bool} (rest : List Record)
    (hkept : keeps predicate record = .ok kept) :
    ∃ row, record.toRow dataset = .ok row ∧
      scanRows predicate dataset (record :: rest) =
        (if kept then (row :: ·) else id)
          <$> scanRows predicate dataset rest := by
  obtain ⟨row, hrow, -⟩ := record.exists_toRow dataset
  refine ⟨row, hrow, ?_⟩
  rw [scanRows, hkept, hrow]
  cases kept <;> cases scanRows predicate dataset rest <;> rfl

/-- If every record can be tested, those that are kept become rows. -/
theorem exists_scanRows {records : List Record}
    (htested : ∀ record ∈ records, ∃ kept, keeps predicate record = .ok kept) :
    ∃ rows, scanRows predicate dataset records = .ok rows ∧
      List.Forall₂ (fun record row => record.toRow dataset = .ok row)
        (records.filter (isKept predicate)) rows := by
  induction records with
  | nil => exact ⟨[], rfl, .nil⟩
  | cons record rest ih =>
    rw [List.forall_mem_cons] at htested
    obtain ⟨⟨kept, hkept⟩, hrest⟩ := htested
    obtain ⟨rows, hrows, hshown⟩ := ih hrest
    obtain ⟨row, hrow, hcons⟩ := scanRows_cons rest hkept
    rw [hcons, hrows, List.filter_cons, isKept_of_keeps hkept]
    cases kept with
    | false => exact ⟨rows, rfl, hshown⟩
    | true => exact ⟨row :: rows, rfl, .cons hrow hshown⟩

/-- Otherwise the first record that cannot be tested ends the pass. -/
theorem scanRows_eq_error {before after : List Record} {record : Record}
    {e : Error}
    (htested : ∀ earlier ∈ before, ∃ kept,
      keeps predicate earlier = .ok kept)
    (hfails : keeps predicate record = .error e) :
    scanRows predicate dataset (before ++ record :: after) = .error e := by
  induction before with
  | nil =>
    rw [List.nil_append, scanRows, hfails]
    rfl
  | cons earlier before ih =>
    rw [List.forall_mem_cons] at htested
    obtain ⟨⟨kept, hkept⟩, hrest⟩ := htested
    obtain ⟨row, -, hcons⟩ := scanRows_cons (before ++ record :: after) hkept
    rw [List.cons_append, hcons, ih hrest]
    rfl

end

/-- Selecting in two steps, whatever set the positions are kept in, is the same
as one pass over the records. If the condition can be evaluated for every
record, it gives one row for each record that meets the condition, in their
order, and one for every record without a condition. Otherwise it gives no rows
but the error of the first record for which evaluation fails. -/
theorem selectRows_eq_scanRows {σ : Type} (set : PositionSet σ)
    (dataset : Dataset) (predicate : Option Predicate)
    (hsize : dataset.records.length ≤ Nat.pow 2 32) :
    set.selectRows dataset predicate = selectRows dataset predicate ∧
    selectRows dataset predicate
      = scanRows predicate dataset.id dataset.records ∧
    ((∀ record ∈ dataset.records, ∃ kept,
        keeps predicate record = .ok kept) →
      ∃ rows, selectRows dataset predicate = .ok rows ∧
        List.Forall₂ (fun record row => record.toRow dataset.id = .ok row)
          (dataset.records.filter (isKept predicate)) rows) ∧
    (predicate = none →
      ∃ rows, selectRows dataset predicate = .ok rows ∧
        List.Forall₂ (fun record row => record.toRow dataset.id = .ok row)
          dataset.records rows) ∧
    ∀ before record after e, dataset.records = before ++ record :: after →
      (∀ earlier ∈ before, ∃ kept, keeps predicate earlier = .ok kept) →
      keeps predicate record = .error e →
      selectRows dataset predicate = .error e := by
  have hscan : selectRows dataset predicate
      = scanRows predicate dataset.id dataset.records :=
    positionsFrom_bind_rowAt [] hsize
  rw [hscan]
  refine ⟨(set.selectRows_eq dataset predicate).trans hscan, rfl,
    exists_scanRows, ?_, ?_⟩
  · rintro rfl
    obtain ⟨rows, hrows, hshown⟩ :=
      @exists_scanRows none dataset.id dataset.records fun _ _ => ⟨true, rfl⟩
    have hall : dataset.records.filter (isKept none) = dataset.records :=
      List.filter_eq_self.mpr fun _ _ => rfl
    exact ⟨rows, hrows, hall ▸ hshown⟩
  · intro before record after e hrecords htested hfails
    rw [hrecords]
    exact scanRows_eq_error htested hfails

def PositionSet.ofFinset : PositionSet (Finset Nat) where
  empty := ∅
  insert := Insert.insert
  toList found := found.sort (· ≤ ·)
  toList_empty := Finset.sort_empty _
  mem_insert _ found member := by
    rw [Finset.mem_sort, Finset.mem_insert, Finset.mem_sort]
  ascending found := (Finset.sortedLT_sort found).pairwise

/-- Three of the sections have a high average and become rows, by way of a set
of their positions. Sections have no seats, so the first one is the end of a
search for them. -/
theorem selectRows_eq_scanRows_offered :
    (∃ rows,
      PositionSet.ofFinset.selectRows offered best.predicate = .ok rows ∧
      List.Forall₂ (fun record row => record.toRow "courses" = .ok row)
        [averaging "1" (.ofInt 70), averaging "3" (.ofInt 90),
          averaging "4" (.ofInt 70)] rows) ∧
    selectRows offered (some
      (.compare .greater ⟨"courses", "seats", .numeric⟩ (.ofInt 60)))
      = .error (.invalid (.field (.unknown "seats" .sections))) := by
  have hsize : offered.records.length ≤ Nat.pow 2 32 := by decide
  constructor
  · obtain ⟨hset, -, hrows, -⟩ :=
      selectRows_eq_scanRows .ofFinset offered best.predicate hsize
    have htested : ∀ record ∈ offered.records, ∃ kept,
        keeps best.predicate record = .ok kept := by
      simp only [offered, List.forall_mem_cons, List.not_mem_nil,
        IsEmpty.forall_iff, implies_true, and_true]
      exact ⟨⟨_, rfl⟩, ⟨_, rfl⟩, ⟨_, rfl⟩, ⟨_, rfl⟩⟩
    have hkept : offered.records.filter (isKept best.predicate)
        = [averaging "1" (.ofInt 70), averaging "3" (.ofInt 90),
          averaging "4" (.ofInt 70)] := by
      decide +kernel
    rw [hset, ← hkept]
    exact hrows htested
  · obtain ⟨-, -, -, -, herror⟩ :=
      selectRows_eq_scanRows .ofFinset offered _ hsize
    exact herror [] _ _ _ rfl (by simp) rfl

end CampusQuery.Query
