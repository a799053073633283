/-
CampusQuery.Proofs.Query.Answer — the rows that answer a query.

A query runs in stages: rows are gathered from the records (`gathered`), too
many of them are refused, and what is left is sorted and shown (`run_eq`).
Without transformations there is one row for each matching record. Pairs of a
record's place and a row go through all stages together, so that `run_plain`
can say which record every row of the answer is of.
-/
import CampusQuery.Proofs.Query.Acceptance
import CampusQuery.Proofs.Query.Ordering
import CampusQuery.Proofs.Query.Selection
import CampusQuery.Query.Execution

namespace CampusQuery.Query

open Outcome

/-! ## Stages -/

/-- The rows of a query before they are limited, sorted and shown. -/
def gathered (query : CampusQuery.Query) (dataset : Dataset) :
    Outcome (List Row) := do
  let selected ← selectRows dataset query.predicate
  match query.grouping with
  | some grouping => grouping.apply selected
  | none => pure selected

variable {query : CampusQuery.Query} {dataset : Dataset}

/-- The rows of an answer, from those that were gathered. -/
def finish (query : CampusQuery.Query) (rows : List Row) :
    Outcome (List Row) := do
  let rows ← limitRows rows
  query.options.project (← query.options.orderRows rows)

/-- A query runs on its dataset stage by stage. -/
theorem run_eq (h : query.dataset = dataset.id) :
    query.run dataset = query.gathered dataset >>= query.finish := by
  unfold run gathered finish
  rw [if_neg (not_not_intro h.symm)]
  cases selectRows dataset query.predicate with
  | error e => rfl
  | ok selected => cases query.grouping <;> rfl

/-- More than 5000 rows are refused. -/
theorem finish_of_lt {rows : List Row} (h : maxRows < rows.length) :
    query.finish rows = .error (.tooLarge rows.length maxRows) := by
  rw [finish, limitRows, if_pos h]
  rfl

/-- Up to 5000 rows are sorted and shown. -/
theorem finish_eq {rows : List Row} (h : rows.length ≤ maxRows) :
    query.finish rows =
      query.options.orderRows rows >>= query.options.project := by
  rw [finish, limitRows, if_neg (Nat.not_lt.mpr h)]
  rfl

/-- If they have all shown columns, they are answered with. -/
theorem finish_of_le {rows sorted : List Row} (h : rows.length ≤ maxRows)
    (hsorted : query.options.orderRows rows = .ok sorted)
    (hcolumns : ∀ row ∈ sorted, ∀ column ∈ query.options.columns,
      row.contains column) :
    query.finish rows = .ok (sorted.map query.options.shown) := by
  rw [finish_eq h]
  exact bind_eq_ok.mpr ⟨sorted, hsorted, Options.project_eq_ok hcolumns⟩

/-- If they cannot be sorted, there is no answer. -/
theorem finish_of_error {rows : List Row} {e : Error}
    (h : rows.length ≤ maxRows)
    (hfail : query.options.orderRows rows = .error e) :
    query.finish rows = .error e := by
  rw [finish_eq h, hfail]
  rfl

/-- Rows that can be sorted are answered with in their sort order, as it is seen
in the shown rows. What comes along with a row stays with it. -/
theorem exists_finish {τ : Type} {earlier : τ → τ → Prop}
    {tagged : List (τ × Row)}
    (hsmall : (tagged.map (·.2)).length ≤ maxRows)
    (hcolumns : ∀ p ∈ tagged, ∀ column ∈ query.options.columns,
      p.2.contains column)
    (hshown : ∀ order, query.options.order = some order →
      ∀ key ∈ order.keys, key ∈ query.options.columns)
    (hkeys : ∀ order, query.options.order = some order →
      ∀ p ∈ tagged, IsSortable order.keys p.2)
    (hearlier : tagged.Pairwise fun p q => earlier p.1 q.1) :
    ∃ sorted : List (τ × Row),
      query.finish (tagged.map (·.2))
        = .ok (sorted.map fun p => query.options.shown p.2) ∧
      sorted.Perm tagged ∧ (query.options.order = none → sorted = tagged) ∧
      ∀ order, query.options.order = some order → sorted.Pairwise fun p q =>
        Precedes order.direction (query.options.shown p.2)
          (query.options.shown q.2) order.keys ∨
        (Ties order.keys (query.options.shown p.2)
          (query.options.shown q.2) ∧ earlier p.1 q.1) := by
  obtain ⟨sorted, horderRows, hperm, hunsorted, hsorted⟩ :=
    Options.exists_orderRows hearlier hkeys
  have hthere : ∀ p ∈ sorted, ∀ column ∈ query.options.columns,
      p.2.contains column := fun p hp => hcolumns p (hperm.mem_iff.mp hp)
  refine ⟨sorted, ?_, hperm, hunsorted, fun order horder => ?_⟩
  · have hrows : ∀ row ∈ sorted.map (·.2), ∀ column ∈ query.options.columns,
        row.contains column := by
      intro row hrow
      obtain ⟨p, hp, rfl⟩ := List.mem_map.mp hrow
      exact hthere p hp
    rw [finish_of_le hsmall horderRows hrows, List.map_map]
    rfl
  · -- Keys are shown columns, so they can be read from the shown rows.
    have hread : ∀ p ∈ sorted, ∀ key ∈ order.keys,
        (query.options.shown p.2).get? key = p.2.get? key := by
      intro p hp key hkey
      have hcolumn := hshown order horder key hkey
      exact Options.get?_shown hcolumn (hthere p hp key hcolumn)
    refine (hsorted order horder).imp_of_mem ?_
    intro p q hp hq hpq
    rcases hpq with hprecedes | ⟨hties, hbefore⟩
    · exact .inl (hprecedes.congr (hread p hp) (hread q hq))
    · exact .inr ⟨hties.congr (hread p hp) (hread q hq), hbefore⟩

/-! ## Queries without transformations -/

/-- The row has the shown columns once each, with the values that the record
has in the fields they name. -/
structure Presents (dataset : Dataset) (columns : List String)
    (record : Record) (row : Row) : Prop where
  names : row.names = columns.eraseDups
  values : ∀ column ∈ columns, ∃ ref value,
    (scopeOf dataset).Names column ref ∧
      record.field ref.field = .ok value ∧ row.get? column = some value

/-- No matching record has "no number" in a field to sort by. -/
def SortsWithoutNan (query : CampusQuery.Query) (dataset : Dataset) : Prop :=
  ∀ order, query.options.order = some order →
    ∀ place ∈ matching dataset query.predicate, ∀ key ∈ order.keys, ∀ ref,
      (scopeOf dataset).Names key ref →
        (dataset.records.get place).field ref.field ≠ .ok (.number .nan)

/-- Rows that show records have all columns that name fields. -/
theorem Scope.Shows.contains {scope : Scope} {record : Record} {row : Row}
    (h : scope.Shows record row) {column : String} {ref : FieldRef}
    (hnames : scope.Names column ref) : row.contains column := by
  obtain ⟨value, -, hvalue⟩ := h column ref hnames
  simp [Row.contains, hvalue]

/-- Rows that show matching records can be sorted, then. -/
theorem SortsWithoutNan.isSortable (h : query.SortsWithoutNan dataset)
    (hfits : Fits (scopeOf dataset) query) (hplain : query.grouping = none)
    {order : SortOrder} (horder : query.options.order = some order)
    {place : Fin dataset.records.length} {row : Row}
    (hplace : place ∈ matching dataset query.predicate)
    (hshows : (scopeOf dataset).Shows (dataset.records.get place) row) :
    IsSortable order.keys row := by
  intro key hkey
  have hcolumn := hfits.sorting order horder key hkey
  obtain ⟨ref, href⟩ := hfits.plain hplain key hcolumn
  obtain ⟨value, hvalue, hget⟩ := hshows key ref href
  refine ⟨value, hget, Value.isOrdered_iff.mpr ?_⟩
  intro hnan
  exact h order horder place hplace key hkey ref href (hnan ▸ hvalue)

/-- Without transformations a row is gathered for each matching record. -/
theorem exists_gathered
    (hkind : ∀ record ∈ dataset.records, record.kind = dataset.kind)
    (hsize : dataset.records.length ≤ positionLimit)
    (hfits : Fits (scopeOf dataset) query) (hplain : query.grouping = none) :
    ∃ tagged : List (Fin dataset.records.length × Row),
      query.gathered dataset = .ok (tagged.map (·.2)) ∧
      tagged.map (·.1) = matching dataset query.predicate ∧
      ∀ p ∈ tagged,
        (scopeOf dataset).Shows (dataset.records.get p.1) p.2 := by
  obtain ⟨selected, hselected, hshows⟩ :=
    exists_selectRows hkind hsize hfits.conditions
  have hlength := hshows.length_eq
  refine ⟨(matching dataset query.predicate).zip selected, ?_, ?_, ?_⟩
  · rw [List.map_snd_zip (Nat.le_of_eq hlength.symm)]
    simp [gathered, hselected, hplain]
  · exact List.map_fst_zip (Nat.le_of_eq hlength)
  · intro p hp
    exact (List.forall₂_iff_zip.mp hshows).2 hp

/-- A row that shows a record presents it when only some columns are shown. -/
theorem presents_shown {record : Record} {row : Row}
    (hfits : Fits (scopeOf dataset) query) (hplain : query.grouping = none)
    (hshows : (scopeOf dataset).Shows record row) :
    Presents dataset query.options.columns record
      (query.options.shown row) := by
  have hcolumns : ∀ column ∈ query.options.columns, row.contains column := by
    intro column hcolumn
    obtain ⟨ref, href⟩ := hfits.plain hplain column hcolumn
    exact hshows.contains href
  refine ⟨Options.names_shown hcolumns, fun column hcolumn => ?_⟩
  obtain ⟨ref, href⟩ := hfits.plain hplain column hcolumn
  obtain ⟨value, hvalue, hget⟩ := hshows column ref href
  have hshown := Options.get?_shown hcolumn (hcolumns column hcolumn)
  exact ⟨ref, value, href, hvalue, hshown.trans hget⟩

/-- Without transformations a query answers with one row for each matching
record, which shows the values of the record: in the order of the records if
there is no sort order, and sorted otherwise, with rows that tie in the order
of the records in either direction. If there are more than 5000 such rows, it
is refused with their number. -/
theorem run_plain {raw : Json}
    (hkind : ∀ record ∈ dataset.records, record.kind = dataset.kind)
    (hsize : dataset.records.length ≤ Nat.pow 2 32)
    (hread : Query.read dataset.id dataset.kind raw = .ok query)
    (hplain : query.grouping = none) :
    (5000 < (matching dataset query.predicate).length →
      query.run dataset = .error
        (.tooLarge (matching dataset query.predicate).length 5000)) ∧
    ((matching dataset query.predicate).length ≤ 5000 →
      query.SortsWithoutNan dataset →
      ∃ answer : List (Fin dataset.records.length × Row),
        query.run dataset = .ok (answer.map (·.2)) ∧
        (answer.map (·.1)).Perm (matching dataset query.predicate) ∧
        (∀ shown ∈ answer, Presents dataset query.options.columns
          (dataset.records.get shown.1) shown.2) ∧
        (query.options.order = none →
          answer.map (·.1) = matching dataset query.predicate) ∧
        ∀ order, query.options.order = some order →
          answer.Pairwise fun shown other =>
            Precedes order.direction shown.2 other.2 order.keys ∨
              (Ties order.keys shown.2 other.2 ∧ shown.1 < other.1)) := by
  have hfits : Fits (scopeOf dataset) query := fits_of_read hread
  obtain ⟨tagged, hgathered, hplaces, hshows⟩ :=
    exists_gathered hkind hsize hfits hplain
  have hrun : query.run dataset = query.finish (tagged.map (·.2)) := by
    rw [run_eq hfits.dataset, hgathered]
    rfl
  have hlength : (tagged.map (·.2)).length
      = (matching dataset query.predicate).length := by
    simp [← hplaces]
  rw [hrun, ← hlength]
  refine ⟨finish_of_lt, fun hsmall hordered => ?_⟩
  have hcolumns : ∀ p ∈ tagged, ∀ column ∈ query.options.columns,
      p.2.contains column := by
    intro p hp column hcolumn
    obtain ⟨ref, href⟩ := hfits.plain hplain column hcolumn
    exact (hshows p hp).contains href
  have hsortable : ∀ order, query.options.order = some order →
      ∀ p ∈ tagged, IsSortable order.keys p.2 := by
    intro order horder p hp
    have hplace : p.1 ∈ matching dataset query.predicate :=
      hplaces ▸ List.mem_map_of_mem hp
    exact hordered.isSortable hfits hplain horder hplace (hshows p hp)
  have hascending : tagged.Pairwise fun p q => p.1 < q.1 := by
    rw [← List.pairwise_map, hplaces]
    exact (List.pairwise_lt_finRange _).filter _
  obtain ⟨sorted, hfinish, hperm, hunsorted, hsorted⟩ :=
    exists_finish hsmall hcolumns hfits.sorting hsortable hascending
  refine ⟨sorted.map fun p => (p.1, query.options.shown p.2), ?_, ?_, ?_, ?_,
    ?_⟩
  · rw [hfinish, List.map_map]
    rfl
  · rw [List.map_map]
    exact (hperm.map _).trans (.of_eq hplaces)
  · intro shown hshown
    obtain ⟨p, hp, rfl⟩ := List.mem_map.mp hshown
    exact presents_shown hfits hplain (hshows p (hperm.mem_iff.mp hp))
  · intro hnone
    rw [List.map_map, ← hplaces, ← hunsorted hnone]
    rfl
  · intro order horder
    rw [List.pairwise_map]
    exact hsorted order horder

def averaging (uuid : String) (avg : Numeric.Binary64) : Record :=
  .ofSection {
    uuid := uuid
    id := "310"
    title := "sw eng"
    instructor := "smith"
    dept := "cpsc"
    year := .ofInt 2015
    avg := avg
    pass := .ofInt 40
    fail := .ofInt 0
    audit := .ofInt 0 }

def offered : Dataset where
  id := "courses"
  kind := .sections
  records := [averaging "1" (.ofInt 70), averaging "2" (.ofInt 50),
    averaging "3" (.ofInt 90), averaging "4" (.ofInt 70)]

def best : CampusQuery.Query where
  dataset := "courses"
  predicate := some
    (.compare .greater ⟨"courses", "avg", .numeric⟩ (.ofInt 60))
  options := ⟨["courses_uuid", "courses_avg"],
    some (.multiple .down ["courses_avg"])⟩
  grouping := none

/-- Three of the sections are selected and sorted. -/
theorem run_plain_best :
    (matching offered best.predicate).map Fin.val = [0, 2, 3] ∧
    ∃ answer : List (Fin 4 × Row),
      best.run offered = .ok (answer.map (·.2)) ∧
      (answer.map (·.1.val)).Perm [0, 2, 3] ∧
      answer.Pairwise fun shown other =>
        Precedes .down shown.2 other.2 ["courses_avg"] ∨
          (Ties ["courses_avg"] shown.2 other.2 ∧ shown.1 < other.1) := by
  have hread : Query.read offered.id offered.kind
      (.object
        [("OPTIONS", .object
          [("COLUMNS", .array [.string "courses_uuid", .string "courses_avg"]),
           ("ORDER", .object
            [("dir", .string "DOWN"),
             ("keys", .array [.string "courses_avg"])])]),
         ("WHERE", .object
          [("GT", .object [("courses_avg", .number (.integer 60))])])])
      = .ok best := rfl
  have hplaces : (matching offered best.predicate).map Fin.val = [0, 2, 3] := by
    decide +kernel
  have hnan : best.SortsWithoutNan offered := by
    intro order horder place _ key hkey ref hnames
    obtain rfl := Option.some.inj horder
    obtain rfl := List.mem_singleton.mp hkey
    obtain ⟨hdataset, -, hcolumn⟩ := hnames
    have hfield : "avg" = ref.field := by
      rw [FieldRef.column, hdataset] at hcolumn
      have hsame : columnName "courses" "avg"
          = columnName "courses" ref.field := hcolumn
      exact columnName_inj.mp hsame
    rw [← hfield]
    revert place
    decide +kernel
  have hsmall : (matching offered best.predicate).length ≤ 5000 := by
    decide +kernel
  obtain ⟨-, hanswer⟩ :=
    run_plain (by decide) (by decide) hread rfl
  obtain ⟨answer, hrun, hperm, -, -, hsorted⟩ := hanswer hsmall hnan
  refine ⟨hplaces, answer, hrun, ?_, hsorted _ rfl⟩
  have hvals := hperm.map Fin.val
  rw [List.map_map, hplaces] at hvals
  exact hvals

end CampusQuery.Query
