/-
CampusQuery.Proofs.Query.Safety — how an accepted query can fail.

Reading a query settles that its fields and columns are there, so none of the
checks that are made again while it runs can fail. What is left depends on
the records: there may be too many rows, a sum or a mean of numbers that are
not finite, or comparisons with "no number" that contradict one another.
`Fault` lists these cases; the stages of a query are taken one after the
other, each with the columns that its rows have, down to `run_ends`.
-/
import CampusQuery.Proofs.Query.Answer
import CampusQuery.Proofs.Query.Grouping
import CampusQuery.Proofs.Registry.Durability

namespace CampusQuery

open Numeric Outcome

theorem Numeric.Decimal.ofBinary64?_eq_none {x : Binary64} :
    Decimal.ofBinary64? x = none ↔ ¬x.isFinite := by
  cases x <;> simp [Decimal.ofBinary64?, Binary64.isFinite]

namespace Query

/-! ## Aggregates -/

/-- A number that an aggregate over a group cannot make a decimal of: the sum
of its values, or one of them if their mean is taken. -/
inductive Aggregate.NotFinite (aggregate : Aggregate) (bucket : List Row) :
    Binary64 → Prop
  | sum {values : List Value} :
      aggregate.op = .sum → bucket.mapM aggregate.sourceValue = .ok values →
      ¬(Binary64.sum (values.map Value.toNumber)).isFinite →
      NotFinite aggregate bucket (Binary64.sum (values.map Value.toNumber))
  | mean {values : List Value} {x : Binary64} :
      aggregate.op = .avg → bucket.mapM aggregate.sourceValue = .ok values →
      x ∈ values.map Value.toNumber → ¬x.isFinite →
      NotFinite aggregate bucket x

namespace Aggregate

theorem ends_toDecimal {bad : Error → Prop} {x : Binary64}
    (h : ¬x.isFinite → bad (.invalid (.run (.notFinite x)))) :
    Ends (fun _ => True) bad (toDecimal x) := by
  unfold toDecimal
  cases hdecimal : Decimal.ofBinary64? x with
  | some decimal => trivial
  | none => exact h (Decimal.ofBinary64?_eq_none.mp hdecimal)

/-- An aggregate over a group that is not empty has a value, unless a number is
not finite. -/
theorem ends_compute {bad : Error → Prop} {aggregate : Aggregate}
    {bucket : List Row} (hne : bucket ≠ [])
    (hsource : ∀ row ∈ bucket, row.contains aggregate.source.column)
    (hbad : ∀ x, aggregate.NotFinite bucket x →
      bad (.invalid (.run (.notFinite x)))) :
    Ends (fun _ => True) bad (aggregate.compute bucket) := by
  have hvalue : ∀ row ∈ bucket, ∃ value,
      aggregate.sourceValue row = .ok value := by
    intro row hrow
    obtain ⟨value, hvalue⟩ := Option.isSome_iff_exists.mp (hsource row hrow)
    exact ⟨value, by simp [sourceValue, hvalue]⟩
  obtain ⟨values, hvalues⟩ := exists_forall₂ hvalue
  have hread : bucket.mapM aggregate.sourceValue = .ok values :=
    mapM_eq_ok.mpr hvalues
  have hnumbers : values.map Value.toNumber ≠ [] := by
    intro hempty
    have hlength := hvalues.length_eq
    rw [List.map_eq_nil_iff.mp hempty] at hlength
    exact hne (List.eq_nil_of_length_eq_zero hlength)
  obtain ⟨first, rest, hcons⟩ := List.exists_cons_of_ne_nil hnumbers
  suffices hcompute : Ends (fun _ => True) bad
      (computeOf aggregate.op values) by
    unfold compute
    rw [hread]
    exact hcompute.bind fun x _ _ => trivial
  unfold computeOf
  cases hop : aggregate.op with
  | count => trivial
  | max => rw [hcons]; trivial
  | min => rw [hcons]; trivial
  | sum =>
    refine Ends.bind (ends_toDecimal fun hnot => ?_) fun _ _ _ => trivial
    exact hbad _ (.sum hop hread hnot)
  | avg =>
    simp only [meanOf, hcons, List.isEmpty_cons, Bool.false_eq_true, if_false]
    have hdecimals := @ends_mapM_all _ _ bad (fun _ => True) toDecimal
      (first :: rest) fun x hx => ends_toDecimal fun hnot =>
        hbad _ (.mean hop hread (hcons ▸ hx) hnot)
    exact hdecimals.bind fun _ _ _ => trivial

end Aggregate

/-! ## Groups -/

namespace Grouping

variable {grouping : Grouping} {bad : Error → Prop}

/-- The row of a group has all columns that results have. -/
theorem ends_bucketRow {bucket : List Row} (hne : bucket ≠ [])
    (hcovers : ∀ row ∈ bucket, grouping.Covers row)
    (hsources : ∀ aggregate ∈ grouping.aggregates, ∀ row ∈ bucket,
      row.contains aggregate.source.column)
    (hbad : ∀ aggregate ∈ grouping.aggregates, ∀ x,
      aggregate.NotFinite bucket x → bad (.invalid (.run (.notFinite x)))) :
    Ends (fun row => ∀ column ∈ grouping.resultColumns, row.contains column)
      bad (grouping.bucketRow bucket) := by
  have hcomputed : Ends
      (List.Forall₂ (fun (aggregate : Aggregate) (entry : String × Value) =>
        entry.1 = aggregate.name) grouping.aggregates) bad
      (grouping.aggregates.mapM fun aggregate => do
        return (aggregate.name, ← aggregate.compute bucket)) := by
    refine ends_mapM fun aggregate haggregate => ?_
    refine Ends.bind (Aggregate.ends_compute hne (hsources aggregate haggregate)
      (hbad aggregate haggregate)) fun value _ _ => ?_
    exact ends_ok.mpr rfl
  refine hcomputed.bind fun computed _ hnames => ?_
  refine ends_ok.mpr fun column hcolumn => ?_
  rw [Row.contains_ofColumns, List.map_append, List.mem_append]
  refine (List.mem_append.mp hcolumn).imp (fun hkey => ?_) fun hname => ?_
  · obtain ⟨first, rest, rfl⟩ := List.exists_cons_of_ne_nil hne
    obtain ⟨key, hmem, rfl⟩ := List.mem_map.mp hkey
    obtain ⟨value, hvalue⟩ := Option.isSome_iff_exists.mp
      (hcovers first List.mem_cons_self key hmem)
    refine List.mem_map.mpr ⟨(key.column, value), ?_, rfl⟩
    exact List.mem_filterMap.mpr ⟨key, hmem, by simp [hvalue]⟩
  · obtain ⟨aggregate, hmem, rfl⟩ := List.mem_map.mp hname
    obtain ⟨entry, hentry, hsame⟩ := exists_of_forall₂ hnames hmem
    exact List.mem_map.mpr ⟨entry, hentry, hsame⟩

/-- Rows that have all key and source columns are grouped into rows that have
all columns of results, unless a number is not finite. -/
theorem ends_apply {rows : List Row}
    (hcovers : ∀ row ∈ rows, grouping.Covers row)
    (hsources : ∀ aggregate ∈ grouping.aggregates, ∀ row ∈ rows,
      row.contains aggregate.source.column)
    (hbad : ∀ buckets, grouping.buckets rows = .ok buckets →
      ∀ bucket ∈ buckets, ∀ aggregate ∈ grouping.aggregates, ∀ x,
        aggregate.NotFinite bucket x →
          bad (.invalid (.run (.notFinite x)))) :
    Ends (fun results => ∀ row ∈ results, ∀ column ∈ grouping.resultColumns,
      row.contains column) bad (grouping.apply rows) := by
  obtain ⟨blocks, hgroups, -⟩ := exists_groups hcovers
  unfold apply
  rw [hgroups.buckets]
  refine ends_mapM_all fun bucket hbucket => ?_
  have hfault := hbad _ hgroups.buckets bucket hbucket
  obtain ⟨hne, hmem⟩ := hgroups.of_mem hbucket
  exact ends_bucketRow hne (fun row hrow => hcovers row (hmem row hrow))
    (fun aggregate haggregate row hrow =>
      hsources aggregate haggregate row (hmem row hrow)) hfault

end Grouping

/-! ## Whole queries -/

/-- What can still go wrong when an accepted query runs on a dataset. -/
inductive Fault (query : CampusQuery.Query) (dataset : Dataset) : Error → Prop
  | tooLarge {rows : List Row} :
      query.gathered dataset = .ok rows → 5000 < rows.length →
      Fault query dataset (.tooLarge rows.length 5000)
  | notFinite {grouping : Grouping} {selected : List Row}
      {buckets : List (List Row)} {bucket : List Row} {aggregate : Aggregate}
      {x : Binary64} :
      query.grouping = some grouping →
      selectRows dataset query.predicate = .ok selected →
      grouping.buckets selected = .ok buckets → bucket ∈ buckets →
      aggregate ∈ grouping.aggregates → aggregate.NotFinite bucket x →
      Fault query dataset (.invalid (.run (.notFinite x)))
  | noOrder {rows : List Row} {row : Row} {order : SortOrder} {key : String} :
      query.gathered dataset = .ok rows → 20 < rows.length →
      rows.length ≤ 5000 → query.options.order = some order → row ∈ rows →
      key ∈ order.keys → row.get? key = some (.number .nan) →
      Fault query dataset .noOrder

variable {query : CampusQuery.Query} {dataset : Dataset}

/-- The rows that are gathered have all shown columns. -/
theorem ends_gathered
    (hkind : ∀ record ∈ dataset.records, record.kind = dataset.kind)
    (hsize : dataset.records.length ≤ positionLimit)
    (hfits : Fits (scopeOf dataset) query) :
    Ends (fun rows => ∀ row ∈ rows, ∀ column ∈ query.options.columns,
      row.contains column) (query.Fault dataset) (query.gathered dataset) := by
  obtain ⟨selected, hselected, hshows⟩ :=
    exists_selectRows hkind hsize hfits.conditions
  have hthere : ∀ row ∈ selected, ∀ column ref,
      (scopeOf dataset).Names column ref → row.contains column := by
    intro row hrow column ref hnames
    obtain ⟨place, -, hshow⟩ := exists_of_forall₂ hshows.flip hrow
    exact Scope.Shows.contains hshow hnames
  unfold gathered
  rw [hselected]
  cases hgrouping : query.grouping with
  | none =>
    refine ends_ok.mpr fun row hrow column hcolumn => ?_
    obtain ⟨ref, hnames⟩ := hfits.plain hgrouping column hcolumn
    exact hthere row hrow column ref hnames
  | some grouping =>
    have happly : Ends _ (query.Fault dataset) (grouping.apply selected) :=
      Grouping.ends_apply
        (fun row hrow key hkey =>
          hthere row hrow _ key (hfits.keys grouping hgrouping key hkey))
        (fun aggregate haggregate row hrow => hthere row hrow _ _
          (hfits.sources grouping hgrouping aggregate haggregate))
        (fun buckets hbuckets bucket hbucket aggregate haggregate x hx =>
          .notFinite hgrouping hselected hbuckets hbucket haggregate hx)
    refine happly.imp fun rows hrows row hrow column hcolumn => ?_
    exact hrows row hrow column (hfits.results grouping hgrouping column hcolumn)

/-- Rows that have all shown columns are limited, sorted and shown, unless there
are too many or they have no order. -/
theorem ends_finish {rows : List Row} (hfits : Fits (scopeOf dataset) query)
    (hrows : query.gathered dataset = .ok rows)
    (hcolumns : ∀ row ∈ rows, ∀ column ∈ query.options.columns,
      row.contains column) :
    Ends (fun _ => True) (query.Fault dataset) (query.finish rows) := by
  by_cases hlarge : 5000 < rows.length
  · rw [finish_of_lt hlarge]
    exact .tooLarge hrows hlarge
  · have hsmall : rows.length ≤ 5000 := Nat.not_lt.mp hlarge
    rcases Options.orderRows_cases fun order horder row hrow key hkey =>
        hcolumns row hrow key (hfits.sorting order horder key hkey) with
      ⟨sorted, hsorted, hperm⟩ |
      ⟨hfail, hlong, order, horder, row, hrow, key, hkey, hnan⟩
    · rw [finish_of_le hsmall hsorted fun row hrow =>
        hcolumns row (hperm.mem_iff.mp hrow)]
      trivial
    · rw [finish_of_error hsmall hfail]
      exact .noOrder hrows hlong hsmall horder hrow hkey hnan

/-- A query that is accepted on a dataset runs on any dataset of the same id
and kind without going wrong: it has an answer, or there are more than 5000
rows, or a sum or a mean of numbers that are not finite, or more than 20 rows
to be sorted by a column with "no number" in it. -/
theorem run_ends {bound : Dataset} {raw : Json} {records : List Record}
    (hread : Query.read bound.id bound.kind raw = .ok query)
    (hmade : Dataset.ofRecords bound.id bound.kind records = .ok dataset)
    (hsize : records.length ≤ Nat.pow 2 32) :
    (∃ rows, query.run dataset = .ok rows) ∨
      ∃ e, query.run dataset = .error e ∧ query.Fault dataset e := by
  obtain ⟨-, -, hkind, rfl⟩ := Dataset.ofRecords_eq_ok.mp hmade
  have hfits : Fits (scopeOf ⟨bound.id, bound.kind, records⟩) query :=
    fits_of_read hread
  have hstages : query.run ⟨bound.id, bound.kind, records⟩
      = query.gathered ⟨bound.id, bound.kind, records⟩ >>= query.finish :=
    run_eq hfits.dataset
  have hends : Ends (fun _ => True)
      (query.Fault ⟨bound.id, bound.kind, records⟩)
      (query.gathered ⟨bound.id, bound.kind, records⟩ >>= query.finish) :=
    (ends_gathered hkind hsize hfits).bind fun rows hrows hcolumns =>
      ends_finish hfits hrows hcolumns
  rw [hstages]
  generalize query.gathered ⟨bound.id, bound.kind, records⟩ >>= query.finish
    = answer at hends
  cases answer with
  | ok rows => exact .inl ⟨rows, rfl⟩
  | error e => exact .inr ⟨e, rfl, hends⟩

/-- A section with the average 1 or 0 in turn, and one with "no number". -/
def turn (place : Nat) : Record :=
  averaging (toString place)
    (if place = 10 then .nan else if place % 2 = 0 then .ofInt 1 else .ofInt 0)

def turnRow (place : Nat) : Row :=
  match (turn place).toRow "courses" with
  | .ok row => row
  | .error _ => .empty

def turns : Dataset := ⟨"courses", .sections, (List.range 21).map turn⟩

def byAverage : CampusQuery.Query where
  dataset := "courses"
  predicate := none
  options := ⟨["courses_avg"], some (.single "courses_avg")⟩
  grouping := none

theorem sortRows_turnRow :
    sortRows .up ["courses_avg"] ((List.range 21).map turnRow)
      = .error .noOrder := by
  have hnan : ¬((List.range 21).map turnRow).all
      (hasOrderedKeys ["courses_avg"]) := by decide +kernel
  let less (a b : Row) : Bool := compareRows .up a b ["courses_avg"] == .lt
  have hless : ∀ i ∈ List.range 21, ∀ j ∈ List.range 21,
      less (turnRow i) (turnRow j) = Sorting.turnLess i j := by decide +kernel
  have hnone : Sorting.sortAnyway? less ((List.range 21).map turnRow) = none := by
    rw [@Sorting.sortAnyway?_map _ _ _ less turnRow _ hless,
      Sorting.sortAnyway?_turnLess]
    rfl
  rw [sortRows, if_neg hnan, hnone]

/-- Sorting by a column with "no number" in it does go wrong. -/
theorem run_turns : byAverage.run turns = .error .noOrder := by
  have hgathered : byAverage.gathered turns
      = .ok ((List.range 21).map turnRow) := by decide +kernel
  have hcolumns : ∀ row ∈ (List.range 21).map turnRow,
      ∀ key ∈ ["courses_avg"], row.contains key := by decide +kernel
  have hsmall : ((List.range 21).map turnRow).length ≤ maxRows := by decide
  have horder := @Options.orderRows_some byAverage.options _ _ rfl hcolumns
  have hfinish : byAverage.finish ((List.range 21).map turnRow)
      = .error .noOrder :=
    finish_of_error hsmall (horder.trans sortRows_turnRow)
  rw [run_eq rfl, hgathered]
  exact (pure_bind _ _).trans hfinish

theorem run_ends_turns :
    byAverage.run turns = .error .noOrder ∧
      byAverage.Fault turns .noOrder := by
  have hread : Query.read turns.id turns.kind
      (.object
        [("OPTIONS", .object
          [("COLUMNS", .array [.string "courses_avg"]),
           ("ORDER", .string "courses_avg")]),
         ("WHERE", .object [])]) = .ok byAverage := rfl
  have hmade : Dataset.ofRecords turns.id turns.kind turns.records
      = .ok turns := by decide +kernel
  refine ⟨run_turns, ?_⟩
  rcases run_ends hread hmade (by decide) with ⟨rows, hrows⟩ | ⟨e, he, hfault⟩
  · rw [run_turns] at hrows
    cases hrows
  · rw [run_turns] at he
    cases he
    exact hfault

end Query

end CampusQuery
