/-
CampusQuery.Proofs.Query.Boundary — what a client can be answered.

Every stage of a query either only refuses or is one of two: limiting rows
reports that there are too many, and sorting them that they have no order.
Nothing is assumed here of the dataset or of where it is from. `ends_run` puts
the stages together, and `ends_perform` adds the source, whose errors become
refusals. `perform_eq_noOrder` says just when rows have no order.
-/
import CampusQuery.Proofs.Query.Binding
import CampusQuery.Proofs.Query.Origin
import CampusQuery.Proofs.Query.Refusal

namespace CampusQuery.Query

open Numeric Outcome

/-! ## Selecting -/

@[simp] theorem onlyRefuses_recordField (record : Record) (name : String) :
    OnlyRefuses (record.field name) := by
  unfold Record.field
  split <;> simp

theorem onlyRefuses_holds (record : Record) (predicate : Predicate) :
    OnlyRefuses (predicate.holds record) := by
  rw [Predicate.holds_eq, onlyRefuses_bind]
  have hlookUp := onlyRefuses_mapM
    (fun ref : FieldRef => onlyRefuses_recordField record ref.field)
    predicate.fields
  exact ⟨hlookUp, fun _ _ => onlyRefuses_pure _⟩

theorem onlyRefuses_keeps (predicate : Option Predicate) (record : Record) :
    OnlyRefuses (keeps predicate record) := by
  cases predicate with
  | none => exact onlyRefuses_pure _
  | some predicate => exact onlyRefuses_holds record predicate

theorem onlyRefuses_positionsFrom (predicate : Option Predicate) :
    ∀ (records : List Record) (start : Nat),
      OnlyRefuses (positionsFrom predicate start records)
  | [], _ => onlyRefuses_pure _
  | record :: rest, start => by
    have hrest := onlyRefuses_positionsFrom predicate rest (start + 1)
    rw [positionsFrom, onlyRefuses_bind]
    refine ⟨onlyRefuses_keeps predicate record, fun kept _ => ?_⟩
    cases kept with
    | false => exact hrest
    | true =>
      rw [if_pos rfl]
      split
      · exact onlyRefuses_bind.mpr ⟨hrest, fun _ _ => onlyRefuses_pure _⟩
      · exact onlyRefuses_refuse _

theorem onlyRefuses_toRow (record : Record) (dataset : String) :
    OnlyRefuses (record.toRow dataset) := by
  obtain ⟨row, hrow, -⟩ := record.exists_toRow dataset
  rw [hrow]
  exact onlyRefuses_ok row

theorem onlyRefuses_selectRows (dataset : Dataset)
    (predicate : Option Predicate) :
    OnlyRefuses (selectRows dataset predicate) := by
  have hrowAt : ∀ position,
      OnlyRefuses (rowAt dataset.id dataset.records.toArray position) := by
    intro position
    unfold rowAt
    split
    · exact onlyRefuses_toRow _ _
    · exact onlyRefuses_refuse _
  exact onlyRefuses_bind.mpr ⟨onlyRefuses_positionsFrom predicate _ 0,
    fun positions _ => onlyRefuses_mapM hrowAt positions⟩

/-! ## Grouping -/

theorem onlyRefuses_computeOf (op : AggregateOp) (values : List Value) :
    OnlyRefuses (Aggregate.computeOf op values) := by
  have htoDecimal : ∀ x, OnlyRefuses (Aggregate.toDecimal x) := by
    intro x
    unfold Aggregate.toDecimal
    split <;> simp
  have hextreme : ∀ (op : AggregateOp) (beats) (numbers),
      OnlyRefuses (Aggregate.extremeOf op beats numbers) := by
    intro op beats numbers
    cases numbers <;> simp [Aggregate.extremeOf]
  unfold Aggregate.computeOf
  cases op with
  | count => exact onlyRefuses_ok _
  | max => exact hextreme _ _ _
  | min => exact hextreme _ _ _
  | sum => simp [Aggregate.sumOf, htoDecimal]
  | avg =>
    simp only [Aggregate.meanOf]
    split
    · exact onlyRefuses_refuse _
    · exact onlyRefuses_bind.mpr
        ⟨onlyRefuses_mapM htoDecimal _, fun _ _ => onlyRefuses_pure _⟩

theorem onlyRefuses_compute (aggregate : Aggregate) (bucket : List Row) :
    OnlyRefuses (aggregate.compute bucket) := by
  have hsource : ∀ row, OnlyRefuses (aggregate.sourceValue row) := by
    intro row
    unfold Aggregate.sourceValue
    split <;> simp
  simp [Aggregate.compute, onlyRefuses_mapM hsource, onlyRefuses_computeOf]

theorem onlyRefuses_apply (grouping : Grouping) (rows : List Row) :
    OnlyRefuses (grouping.apply rows) := by
  have hkeyText : ∀ row column, OnlyRefuses (Grouping.keyText row column) := by
    intro row column
    unfold Grouping.keyText
    split <;> simp
  have htext : ∀ columns row,
      OnlyRefuses (Grouping.groupText columns row) := fun columns row =>
    onlyRefuses_bind.mpr ⟨onlyRefuses_mapM (hkeyText row) columns,
      fun _ _ => onlyRefuses_pure _⟩
  have hbucketRow : ∀ bucket, OnlyRefuses (grouping.bucketRow bucket) :=
    fun bucket => onlyRefuses_bind.mpr
      ⟨onlyRefuses_mapM (fun aggregate => onlyRefuses_bind.mpr
        ⟨onlyRefuses_compute aggregate bucket, fun _ _ => onlyRefuses_pure _⟩) _,
      fun _ _ => onlyRefuses_pure _⟩
  refine onlyRefuses_bind.mpr
    ⟨?_, fun buckets _ => onlyRefuses_mapM hbucketRow buckets⟩
  exact onlyRefuses_bind.mpr ⟨onlyRefuses_mapM (htext _) rows,
    fun _ _ => onlyRefuses_pure _⟩

theorem onlyRefuses_gathered (query : CampusQuery.Query) (dataset : Dataset) :
    OnlyRefuses (query.gathered dataset) := by
  refine onlyRefuses_bind.mpr
    ⟨onlyRefuses_selectRows _ _, fun selected _ => ?_⟩
  cases query.grouping with
  | none => exact onlyRefuses_pure _
  | some grouping => exact onlyRefuses_apply grouping selected

/-! ## Limiting, sorting and showing -/

theorem onlyRefuses_project (options : Options) (rows : List Row) :
    OnlyRefuses (options.project rows) := by
  have hcolumn : ∀ row column,
      OnlyRefuses (Options.shownColumn row column) := by
    intro row column
    unfold Options.shownColumn
    split <;> simp
  exact onlyRefuses_mapM (fun row => onlyRefuses_bind.mpr
    ⟨onlyRefuses_mapM (hcolumn row) _, fun _ _ => onlyRefuses_pure _⟩) rows

theorem onlyRefuses_checkSortable (keys : List String) (row : Row) :
    OnlyRefuses (Options.checkSortable keys row) := by
  unfold Options.checkSortable
  split <;> simp

/-- Rows that pass the check have the columns to sort by. -/
theorem Options.contains_of_checkSortable {keys : List String} {row : Row}
    (h : checkSortable keys row = .ok ()) : ∀ key ∈ keys, row.contains key := by
  unfold checkSortable at h
  split at h
  · exact absurd h refuse_ne_ok
  · rename_i hnone
    simpa using hnone

variable {bad : Error → Prop}

/-- A request that only refuses has a result if refusals are bad. -/
theorem ends_of_onlyRefuses {α : Type} {x : Outcome α}
    (hrefused : ∀ cause, bad (.invalid cause)) (h : OnlyRefuses x) :
    Ends (fun a => x = .ok a) bad x := by
  cases x with
  | ok a => exact rfl
  | error e =>
    obtain ⟨cause, rfl⟩ := h e rfl
    exact hrefused cause

/-- Sorting rearranges the rows, unless it refuses or they have no order. -/
theorem Options.ends_orderRows {options : Options} {rows : List Row}
    (hrefused : ∀ cause, bad (.invalid cause))
    (hnoOrder : 20 < rows.length → ∀ order, options.order = some order →
      ∀ row ∈ rows, ∀ key ∈ order.keys,
        row.get? key = some (.number .nan) → bad .noOrder) :
    Ends (·.Perm rows) bad (options.orderRows rows) := by
  cases horder : options.order with
  | none =>
    have hsame : options.orderRows rows = .ok rows := by
      simp [orderRows, horder]
    rw [hsame]
    exact List.Perm.refl rows
  | some order =>
    have hchecks := onlyRefuses_forM (onlyRefuses_checkSortable order.keys) rows
    cases hcheck : rows.forM (checkSortable order.keys) with
    | error e =>
      obtain ⟨cause, rfl⟩ := hchecks e hcheck
      have hfail : options.orderRows rows = .error (.invalid cause) := by
        simp only [orderRows, horder, hcheck]
        rfl
      rw [hfail]
      exact hrefused cause
    | ok done =>
      have hthere : ∀ found, options.order = some found →
          ∀ row ∈ rows, ∀ key ∈ found.keys, row.contains key := by
        intro found hfound row hrow
        obtain rfl := Option.some.inj (horder.symm.trans hfound)
        exact contains_of_checkSortable (forM_eq_ok.mp hcheck row hrow)
      rcases orderRows_cases hthere with
        ⟨sorted, hsorted, hperm⟩ |
        ⟨hfail, hlong, found, hfound, row, hrow, key, hkey, hnan⟩
      · rw [hsorted]
        exact hperm
      · rw [hfail]
        exact hnoOrder hlong found hfound row hrow key hkey hnan

theorem Options.perm_of_orderRows {options : Options} {rows sorted : List Row}
    (h : options.orderRows rows = .ok sorted) : sorted.Perm rows := by
  have hends := @ends_orderRows (fun _ => True) options rows
    (fun _ => trivial) fun _ _ _ _ _ _ _ _ => trivial
  rwa [h] at hends

/-! ## Queries -/

/-- How a query can end without an answer on a dataset that may be anything:
it is refused, or in one of the ways that are left to accepted queries. -/
inductive Stops (query : CampusQuery.Query) (dataset : Dataset) :
    Error → Prop
  | refused (cause : Invalid) : Stops query dataset (.invalid cause)
  | tooLarge {rows : List Row} :
      query.gathered dataset = .ok rows → 5000 < rows.length →
      Stops query dataset (.tooLarge rows.length 5000)
  | noOrder {rows : List Row} {row : Row} {order : SortOrder} {key : String} :
      query.gathered dataset = .ok rows → 20 < rows.length →
      rows.length ≤ 5000 → query.options.order = some order → row ∈ rows →
      key ∈ order.keys → row.get? key = some (.number .nan) →
      Stops query dataset .noOrder

/-- Gathered rows are limited, sorted and shown, and then there are no more
than 5000 of them. -/
theorem ends_finish_of_gathered {query : CampusQuery.Query}
    {dataset : Dataset} {rows : List Row}
    (hrows : query.gathered dataset = .ok rows) :
    Ends (·.length ≤ 5000) (query.Stops dataset) (query.finish rows) := by
  by_cases hlarge : 5000 < rows.length
  · rw [finish_of_lt hlarge]
    exact .tooLarge hrows hlarge
  · have hsmall : rows.length ≤ 5000 := Nat.not_lt.mp hlarge
    have hsorted : Ends (·.Perm rows) (query.Stops dataset)
        (query.options.orderRows rows) :=
      Options.ends_orderRows .refused
        fun hlong order horder row hrow key hkey hnan =>
          .noOrder hrows hlong hsmall horder hrow hkey hnan
    rw [finish_eq hsmall]
    refine hsorted.bind fun sorted _ hperm => ?_
    refine Ends.imp (ends_of_onlyRefuses .refused (onlyRefuses_project _ _))
      fun answer hanswer => ?_
    rw [← (mapM_eq_ok.mp hanswer).length_eq, hperm.length_eq]
    exact hsmall

/-- A query ends on any dataset with at most 5000 rows or in one of these
ways. -/
theorem ends_run (query : CampusQuery.Query) (dataset : Dataset) :
    Ends (·.length ≤ 5000) (query.Stops dataset) (query.run dataset) := by
  by_cases hid : query.dataset = dataset.id
  · rw [run_eq hid]
    refine Ends.bind (ends_of_onlyRefuses .refused (onlyRefuses_gathered _ _))
      fun rows hrows _ => ?_
    exact ends_finish_of_gathered hrows
  · rw [run, if_pos (Ne.symm hid)]
    exact .refused _

/-! ## Sources -/

/-- What is reported for a query given as JSON: it is refused, its result is
too large, or its rows have no order, because a record that its source has
given it has "no number". -/
inductive Reported (source : Source) (raw : Json) : Error → Prop
  | refused (cause : Invalid) : Reported source raw (.invalid cause)
  | tooLarge {rows : Nat} :
      5000 < rows → Reported source raw (.tooLarge rows 5000)
  | noOrder {id : String} {dataset : Dataset} {query : CampusQuery.Query}
      {record : Record} {name : String} :
      boundDataset raw = .ok id → source id = .ok (some dataset) →
      Query.read dataset.id dataset.kind raw = .ok query →
      query.Stops dataset .noOrder → record ∈ dataset.records →
      record.field name = .ok (.number .nan) → Reported source raw .noOrder

theorem Stops.reported {source : Source} {raw : Json} {id : String}
    {dataset : Dataset} {query : CampusQuery.Query} {e : Error}
    (h : query.Stops dataset e) (hbound : boundDataset raw = .ok id)
    (hsource : source id = .ok (some dataset))
    (hread : Query.read dataset.id dataset.kind raw = .ok query) :
    Reported source raw e := by
  cases h with
  | refused cause => exact .refused cause
  | tooLarge _ hlarge => exact .tooLarge hlarge
  | noOrder hrows hlong hsmall horder hrow hkey hnan =>
    obtain ⟨record, hrecord, name, hfield⟩ :=
      exists_nan_of_gathered hread hrows hrow hnan
    exact .noOrder hbound hsource hread
      (.noOrder hrows hlong hsmall horder hrow hkey hnan) hrecord hfield

theorem onlyRefuses_validate (source : Source) (raw : Json) :
    OnlyRefuses (validate source raw) := by
  have hbound : OnlyRefuses (boundDataset raw) := by
    unfold boundDataset
    split
    · dsimp only
      split <;> simp
    · exact onlyRefuses_refuse _
  have hsettle : ∀ id found, OnlyRefuses (settle id found) := by
    intro id found
    unfold settle
    split <;> simp
  simp [validate, hbound, hsettle, onlyRefuses_read]

/-- Any query given as JSON ends with at most 5000 rows or a report. -/
theorem ends_perform (source : Source) (raw : Json) :
    Ends (·.length ≤ 5000) (Reported source raw) (perform source raw) := by
  refine Ends.bind (ends_of_onlyRefuses .refused (onlyRefuses_validate _ _))
    fun found hfound _ => ?_
  obtain ⟨dataset, query⟩ := found
  obtain ⟨id, hbound, hsource, hread⟩ := validate_eq_ok.mp hfound
  exact (ends_run query dataset).imp_error fun e hstops =>
    hstops.reported hbound hsource hread

/-- Every row that it is answered with has each of its columns once. -/
theorem nodup_names_of_perform {source : Source} {raw : Json}
    {rows : List Row} (h : perform source raw = .ok rows) {row : Row}
    (hrow : row ∈ rows) : row.names.Nodup := by
  obtain ⟨⟨dataset, query⟩, -, hrun⟩ := bind_eq_ok.mp h
  dsimp only at hrun
  by_cases hid : query.dataset = dataset.id
  · rw [run_eq hid] at hrun
    obtain ⟨gathered, -, hfinish⟩ := bind_eq_ok.mp hrun
    obtain ⟨limited, -, hfinish⟩ := bind_eq_ok.mp hfinish
    obtain ⟨sorted, -, hproject⟩ := bind_eq_ok.mp hfinish
    obtain ⟨shown, -, hshown⟩ :=
      exists_of_forall₂ (mapM_eq_ok.mp hproject).flip hrow
    obtain ⟨columns, -, hmade⟩ := bind_eq_ok.mp hshown
    obtain rfl := pure_eq_ok.mp hmade
    rw [Row.names_ofColumns]
    exact Grouping.nodup_eraseDups _
  · rw [run, if_pos (Ne.symm hid)] at hrun
    cases hrun

/-! ## Breaking down -/

/-- A query breaks down if it is accepted and sorting its rows, of which there
are more than twenty but not too many, one with "no number" at a sort key,
finds them in no order. -/
inductive BreaksDown (source : Source) (raw : Json) : Prop
  | intro {dataset : Dataset} {query : CampusQuery.Query}
      {rows : List Row} {row : Row} {order : SortOrder} {key : String} :
      validate source raw = .ok (dataset, query) →
      query.gathered dataset = .ok rows → 20 < rows.length →
      rows.length ≤ 5000 → query.options.order = some order →
      (∀ row ∈ rows, ∀ key ∈ order.keys, row.contains key) → row ∈ rows →
      key ∈ order.keys → row.get? key = some (.number .nan) →
      sortRows order.direction order.keys rows = .error .noOrder →
      BreaksDown source raw

/-- What only refuses does not break down. -/
theorem bind_eq_noOrder {α β : Type} {x : Outcome α} {f : α → Outcome β}
    (h : OnlyRefuses x) :
    (x >>= f) = .error .noOrder ↔ ∃ a, x = .ok a ∧ f a = .error .noOrder := by
  rw [bind_eq_error]
  refine or_iff_right fun hx => ?_
  obtain ⟨cause, hcause⟩ := h _ hx
  cases hcause

theorem Options.orderRows_eq_noOrder {options : Options} {rows : List Row} :
    options.orderRows rows = .error .noOrder ↔
      ∃ order, options.order = some order ∧
        (∀ row ∈ rows, ∀ key ∈ order.keys, row.contains key) ∧
        sortRows order.direction order.keys rows = .error .noOrder := by
  constructor
  · intro h
    cases horder : options.order with
    | none =>
      simp only [orderRows, horder] at h
      cases h
    | some order =>
      simp only [orderRows, horder] at h
      obtain ⟨_, hcheck, hsort⟩ := (bind_eq_noOrder
        (onlyRefuses_forM (onlyRefuses_checkSortable order.keys) rows)).mp h
      exact ⟨order, rfl, fun row hrow =>
        contains_of_checkSortable (forM_eq_ok.mp hcheck row hrow), hsort⟩
  · rintro ⟨order, horder, hthere, hsort⟩
    rw [orderRows_some horder hthere, hsort]

theorem finish_eq_noOrder {query : CampusQuery.Query} {rows : List Row} :
    query.finish rows = .error .noOrder ↔
      rows.length ≤ 5000 ∧
        query.options.orderRows rows = .error .noOrder := by
  by_cases hlarge : 5000 < rows.length
  · rw [finish_of_lt hlarge]
    simp [hlarge]
  · have hsmall : rows.length ≤ 5000 := Nat.not_lt.mp hlarge
    rw [finish_eq hsmall, bind_eq_error]
    simp only [hsmall, true_and]
    refine or_iff_left ?_
    rintro ⟨sorted, -, hproject⟩
    obtain ⟨cause, hcause⟩ := onlyRefuses_project _ _ _ hproject
    cases hcause

/-- A query given as JSON ends without an order of its rows just if it breaks
down. -/
theorem perform_eq_noOrder {source : Source} {raw : Json} :
    perform source raw = .error .noOrder ↔ BreaksDown source raw := by
  have hrun : ∀ {dataset query}, validate source raw = .ok (dataset, query) →
      query.run dataset = query.gathered dataset >>= query.finish := by
    intro dataset query hvalidate
    obtain ⟨id, -, -, hread⟩ := validate_eq_ok.mp hvalidate
    exact run_eq (fits_of_read hread).dataset
  rw [perform, bind_eq_noOrder (onlyRefuses_validate source raw)]
  constructor
  · rintro ⟨⟨dataset, query⟩, hvalidate, h⟩
    dsimp only at h
    rw [hrun hvalidate, bind_eq_noOrder (onlyRefuses_gathered _ _)] at h
    obtain ⟨rows, hrows, hfinish⟩ := h
    obtain ⟨hsmall, hsort⟩ := finish_eq_noOrder.mp hfinish
    obtain ⟨order, horder, hthere, hnone⟩ :=
      Options.orderRows_eq_noOrder.mp hsort
    have hstops := ends_finish_of_gathered hrows
    rw [hfinish] at hstops
    cases hstops with
    | noOrder hsame hlong _ hsameOrder hrow hkey hnan =>
      obtain rfl := Except.ok.inj (hrows.symm.trans hsame)
      obtain rfl := Option.some.inj (horder.symm.trans hsameOrder)
      exact .intro hvalidate hrows hlong hsmall horder hthere hrow hkey hnan
        hnone
  · intro h
    cases h with
    | @intro dataset query rows _ order _ hvalidate hrows _ hsmall horder
        hthere _ _ _ hnone =>
      refine ⟨(dataset, query), hvalidate, ?_⟩
      dsimp only
      rw [hrun hvalidate, bind_eq_noOrder (onlyRefuses_gathered _ _)]
      exact ⟨rows, hrows, finish_eq_noOrder.mpr ⟨hsmall,
        Options.orderRows_eq_noOrder.mpr ⟨order, horder, hthere, hnone⟩⟩⟩

/-! ## Ends of queries -/

/-- Whatever a source has and reports, a query given as JSON is answered with
at most 5000 rows, or it is refused, or its result is too large, or it fails
to sort a record with "no number". -/
theorem perform_ends (source : Source) (raw : Json) :
    (∃ rows, perform source raw = .ok rows ∧ rows.length ≤ 5000) ∨
      ∃ e, perform source raw = .error e ∧ Reported source raw e := by
  have hends := ends_perform source raw
  generalize perform source raw = answer at hends
  cases answer with
  | ok rows => exact .inl ⟨rows, rfl, hends⟩
  | error e => exact .inr ⟨e, rfl, hends⟩

def averages : Json :=
  .object
    [("OPTIONS", .object
      [("COLUMNS", .array [.string "courses_avg"]),
       ("ORDER", .string "courses_avg")]),
     ("WHERE", .object [])]

/-- Sections with "no number" among them are not sorted, wherever they are
from. -/
theorem perform_averages {source : Source}
    (h : source "courses" = .ok (some turns)) :
    perform source averages = .error .noOrder := by
  have hread : Query.read turns.id turns.kind averages = .ok byAverage := rfl
  have hvalidate : validate source averages = .ok (turns, byAverage) :=
    validate_eq_ok.mpr ⟨"courses", boundDataset_of_read hread, h, hread⟩
  rw [perform, hvalidate]
  exact run_turns

/-- The last way is taken. -/
theorem perform_turns : perform (listed [turns]) averages = .error .noOrder :=
  perform_averages rfl

end CampusQuery.Query
