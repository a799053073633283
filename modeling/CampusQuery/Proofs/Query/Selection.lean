/-
CampusQuery.Proofs.Query.Selection — which rows a condition selects.

Records are told apart by their places in the dataset, since two of them may
be alike. `matching` has the places of the records that a condition is true
of. If the records have all its fields, exactly these are selected
(`selectRows_eq_ok_iff`), and they become rows that show them, in the same order
(`exists_selectRows`). The other way round, rows that have been selected tell
about the records (`exists_record_of_selectRows`), and they can be filtered
further as if the condition had asked for more (`selectRows_filter`).
-/
import Mathlib.Data.List.FinRange
import CampusQuery.Proofs.Query.Satisfaction
import CampusQuery.Query.Selection

namespace CampusQuery.Query

open Outcome

/-! ## Records that are kept -/

def isKept (predicate : Option Predicate) (record : Record) : Bool :=
  predicate.all (·.isMetBy record)

def scopeOf (dataset : Dataset) : Scope := ⟨dataset.id, dataset.kind⟩

def matching (dataset : Dataset) (predicate : Option Predicate) :
    List (Fin dataset.records.length) :=
  (List.finRange _).filter fun place =>
    isKept predicate (dataset.records.get place)

/-- A condition on fields of the dataset is evaluated for each record of the
right kind. -/
theorem keeps_eq_ok {scope : Scope} {predicate : Option Predicate}
    {record : Record} (hkind : record.kind = scope.kind)
    (hnames : ∀ found, predicate = some found →
      ∀ ref ∈ found.fields, scope.Names ref.column ref) :
    keeps predicate record = .ok (isKept predicate record) := by
  cases predicate with
  | none => rfl
  | some found =>
    refine Predicate.holds_eq_ok.mpr ⟨fun ref href => ?_, rfl⟩
    obtain ⟨-, hfield, -⟩ := hnames found rfl ref href
    obtain ⟨value, hvalue, -⟩ := record.exists_field (hkind ▸ hfield)
    exact ⟨value, hvalue⟩

/-- A record that can be tested is kept if the condition is true of it. -/
theorem isKept_of_keeps {predicate : Option Predicate} {record : Record}
    {kept : Bool} (h : keeps predicate record = .ok kept) :
    isKept predicate record = kept := by
  cases predicate with
  | none => exact Except.ok.inj h
  | some found => exact (Predicate.holds_eq_ok.mp h).2

/-! ## Positions -/

/-- Positions are found if and only if they are those of the records that are
kept, and are counted in 32 bits. -/
theorem positionsFrom_eq_ok_iff {predicate : Option Predicate} :
    ∀ {records : List Record} {start : Nat} {positions : List Nat},
      (∀ record ∈ records,
        keeps predicate record = .ok (isKept predicate record)) →
      (positionsFrom predicate start records = .ok positions ↔
        positions = ((records.zipIdx start).filter
          (isKept predicate ·.1)).map (·.2) ∧
        ∀ position ∈ positions, position < positionLimit)
  | [], _, _, _ => by
    rw [positionsFrom, pure_eq_ok]
    constructor
    · rintro rfl
      simp
    · rintro ⟨rfl, -⟩
      rfl
  | record :: rest, start, positions, hkeeps => by
    rw [List.forall_mem_cons] at hkeeps
    have hrest := fun behind => @positionsFrom_eq_ok_iff _ rest (start + 1)
      behind hkeeps.2
    rw [positionsFrom, hkeeps.1, List.zipIdx_cons]
    cases hkept : isKept predicate record with
    | false =>
      rw [List.filter_cons_of_neg (by simp [hkept])]
      exact hrest positions
    | true =>
      rw [List.filter_cons_of_pos (by simp [hkept]), List.map_cons]
      simp only [bind_eq_ok, Except.ok.injEq, exists_eq_left', if_true]
      by_cases hstart : start < positionLimit
      · simp only [if_pos hstart, bind_eq_ok, hrest, pure_eq_ok]
        constructor
        · rintro ⟨behind, ⟨rfl, hbelow⟩, rfl⟩
          exact ⟨rfl, List.forall_mem_cons.mpr ⟨hstart, hbelow⟩⟩
        · rintro ⟨rfl, hbelow⟩
          exact ⟨_, ⟨rfl, (List.forall_mem_cons.mp hbelow).2⟩, rfl⟩
      · rw [if_neg hstart]
        constructor
        · intro h
          exact absurd h refuse_ne_ok
        · rintro ⟨rfl, hbelow⟩
          exact absurd (hbelow start List.mem_cons_self) hstart

/-- The records of a list with their positions. -/
theorem zipIdx_eq_map_finRange {α : Type} (xs : List α) :
    xs.zipIdx = (List.finRange xs.length).map fun i => (xs.get i, i.val) := by
  refine List.ext_getElem (by simp) fun i _ _ => ?_
  simp

variable {dataset : Dataset} {predicate : Option Predicate}

/-- Records are selected if and only if all that match are counted in 32 bits,
and the rows are those of the matching records. -/
theorem selectRows_eq_ok_iff {rows : List Row}
    (hkeeps : ∀ record ∈ dataset.records,
      keeps predicate record = .ok (isKept predicate record)) :
    selectRows dataset predicate = .ok rows ↔
      (∀ place ∈ matching dataset predicate, place.val < positionLimit) ∧
      List.Forall₂ (fun place row =>
        (dataset.records.get place).toRow dataset.id = .ok row)
        (matching dataset predicate) rows := by
  have hplaces : ((dataset.records.zipIdx 0).filter
      (isKept predicate ·.1)).map (·.2)
        = (matching dataset predicate).map Fin.val := by
    rw [zipIdx_eq_map_finRange, List.filter_map, List.map_map]
    rfl
  have hrow : ∀ place : Fin dataset.records.length,
      rowAt dataset.id dataset.records.toArray place.val
        = (dataset.records.get place).toRow dataset.id := by
    intro place
    have hplace : dataset.records.toArray[place.val]?
        = some (dataset.records.get place) := by simp
    rw [rowAt, hplace]
  simp only [selectRows, bind_eq_ok, select, positionsFrom_eq_ok_iff hkeeps,
    hplaces, mapM_eq_ok]
  constructor
  · rintro ⟨_, ⟨rfl, hbelow⟩, hrows⟩
    rw [List.forall₂_map_left_iff] at hrows
    simp only [hrow] at hrows
    exact ⟨by simpa using hbelow, hrows⟩
  · rintro ⟨hbelow, hrows⟩
    refine ⟨_, ⟨rfl, by simpa using hbelow⟩, ?_⟩
    rw [List.forall₂_map_left_iff]
    simpa only [hrow] using hrows

/-- The matching records become rows that show them, one for each and in their
order. -/
theorem exists_selectRows
    (hkind : ∀ record ∈ dataset.records, record.kind = dataset.kind)
    (hsize : dataset.records.length ≤ positionLimit)
    (hnames : ∀ found, predicate = some found →
      ∀ ref ∈ found.fields, (scopeOf dataset).Names ref.column ref) :
    ∃ rows, selectRows dataset predicate = .ok rows ∧
      List.Forall₂ (fun place row =>
        (scopeOf dataset).Shows (dataset.records.get place) row)
        (matching dataset predicate) rows := by
  have hkeeps : ∀ record ∈ dataset.records,
      keeps predicate record = .ok (isKept predicate record) :=
    fun record hrecord => keeps_eq_ok (hkind record hrecord) hnames
  have hrow : ∀ place ∈ matching dataset predicate, ∃ row,
      (dataset.records.get place).toRow dataset.id = .ok row ∧
        (scopeOf dataset).Shows (dataset.records.get place) row :=
    fun place _ => (scopeOf dataset).exists_toRow
      (hkind _ (List.get_mem dataset.records place))
  obtain ⟨rows, hrows⟩ := exists_forall₂ hrow
  refine ⟨rows, ?_, hrows.imp fun _ _ h => h.2⟩
  exact (selectRows_eq_ok_iff hkeeps).mpr
    ⟨fun place _ => Nat.lt_of_lt_of_le place.isLt hsize,
      hrows.imp fun _ _ h => h.1⟩

/-- A condition that asks for something more, which can be seen in the rows,
selects the rows in which it is seen. -/
theorem selectRows_filter {stronger : Option Predicate} {shows : Row → Bool}
    {rows : List Row}
    (hkeeps : ∀ record ∈ dataset.records,
      keeps predicate record = .ok (isKept predicate record))
    (hstronger : ∀ record ∈ dataset.records,
      keeps stronger record = .ok (isKept stronger record))
    (hshows : ∀ record ∈ dataset.records, ∀ row,
      record.toRow dataset.id = .ok row →
        isKept stronger record = (isKept predicate record && shows row))
    (h : selectRows dataset predicate = .ok rows) :
    selectRows dataset stronger = .ok (rows.filter shows) := by
  obtain ⟨hbelow, hrows⟩ := (selectRows_eq_ok_iff hkeeps).mp h
  have hmem : ∀ place : Fin dataset.records.length,
      dataset.records.get place ∈ dataset.records := List.get_mem _
  have hmatching : matching dataset stronger =
      (matching dataset predicate).filter fun place =>
        isKept stronger (dataset.records.get place) := by
    unfold matching
    rw [List.filter_filter]
    refine List.filter_congr fun place _ => ?_
    obtain ⟨row, hrow, -⟩ :=
      (dataset.records.get place).exists_toRow dataset.id
    rw [hshows _ (hmem place) row hrow]
    cases isKept predicate (dataset.records.get place) <;> simp
  have htogether := (List.forall₂_and_left _ _).mpr
    ⟨fun place hplace => (List.mem_filter.mp hplace).2, hrows⟩
  have hfiltered : List.Forall₂ (fun place row =>
      isKept predicate (dataset.records.get place) = true ∧
        (dataset.records.get place).toRow dataset.id = .ok row)
      (matching dataset stronger) (rows.filter shows) := by
    rw [hmatching]
    refine List.rel_filter (fun place row hpair => ?_) htogether
    show isKept stronger (dataset.records.get place) = true ↔ shows row = true
    rw [hshows _ (hmem place) row hpair.2, hpair.1, Bool.true_and]
  refine (selectRows_eq_ok_iff hstronger).mpr
    ⟨fun place hplace => ?_, hfiltered.imp fun _ _ hpair => hpair.2⟩
  rw [hmatching] at hplace
  exact hbelow place (List.mem_filter.mp hplace).1

/-! ## What has been selected -/

/-- One record has been looked at: it is selected if it is kept, and in either
case the rest has been looked at as well. -/
theorem of_positionsFrom_cons {record : Record} {rest : List Record}
    {start : Nat} {positions : List Nat}
    (h : positionsFrom predicate start (record :: rest) = .ok positions) :
    ∃ kept behind, keeps predicate record = .ok kept ∧
      positionsFrom predicate (start + 1) rest = .ok behind ∧
      positions = if kept then start :: behind else behind := by
  obtain ⟨kept, hkept, h⟩ := bind_eq_ok.mp h
  cases kept with
  | false => exact ⟨false, positions, hkept, h, rfl⟩
  | true =>
    by_cases hlimit : start < positionLimit
    · rw [if_pos rfl, if_pos hlimit] at h
      obtain ⟨behind, hbehind, heq⟩ := bind_eq_ok.mp h
      exact ⟨true, behind, hkept, hbehind, (pure_eq_ok.mp heq).symm⟩
    · rw [if_pos rfl, if_neg hlimit] at h
      exact absurd h refuse_ne_ok

/-- If records have been selected, the condition can be evaluated for all
records, also for those that are not. -/
theorem exists_keeps_of_positionsFrom :
    ∀ {records : List Record} {start : Nat} {positions : List Nat},
      positionsFrom predicate start records = .ok positions →
        ∀ record ∈ records, ∃ kept, keeps predicate record = .ok kept
  | [], _, _, _ => by simp
  | _ :: _, _, _, h => by
    obtain ⟨kept, behind, hkept, hbehind, -⟩ := of_positionsFrom_cons h
    exact List.forall_mem_cons.mpr
      ⟨⟨kept, hkept⟩, exists_keeps_of_positionsFrom hbehind⟩

/-- The rows that have been selected are rows of records of the dataset. -/
theorem exists_record_of_selectRows {rows : List Row} {row : Row}
    (h : selectRows dataset predicate = .ok rows) (hrow : row ∈ rows) :
    ∃ record ∈ dataset.records, record.toRow dataset.id = .ok row := by
  obtain ⟨positions, -, hrows⟩ := bind_eq_ok.mp h
  obtain ⟨position, -, hat⟩ :=
    exists_of_forall₂ (mapM_eq_ok.mp hrows).flip hrow
  unfold rowAt at hat
  split at hat
  · rename_i record hrecord
    exact ⟨record, by simpa using Array.mem_of_getElem? hrecord, hat⟩
  · exact absurd hat refuse_ne_ok

/-- Without a condition some row has been selected. -/
theorem ne_nil_of_selectRows {rows : List Row} (hne : dataset.records ≠ [])
    (h : selectRows dataset none = .ok rows) : rows ≠ [] := by
  obtain ⟨record, rest, hrecords⟩ := List.exists_cons_of_ne_nil hne
  obtain ⟨positions, hselect, hrows⟩ := bind_eq_ok.mp h
  rw [select, hrecords] at hselect
  obtain ⟨kept, behind, hkept, -, rfl⟩ := of_positionsFrom_cons hselect
  obtain rfl : true = kept := Except.ok.inj hkept
  rintro rfl
  simpa using (mapM_eq_ok.mp hrows).length_eq

end CampusQuery.Query
