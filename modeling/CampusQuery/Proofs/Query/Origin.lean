/-
CampusQuery.Proofs.Query.Origin — where the values in rows come from.

A column of the row of a record is a field of this record, whatever its kind
(`field_of_selectRows`); grouping passes on key columns and computes the
rest. Counts, sums and means are always numbers, so where gathered rows have
"no number", an extreme of some group or a key has it, and in the end a field
of a record: `exists_nan_of_gathered`.
-/
import CampusQuery.Proofs.Query.Aggregate
import CampusQuery.Proofs.Query.Partition

namespace CampusQuery.Query

open Numeric Outcome

/-! ## Aggregates -/

namespace Aggregate

/-- Only an extreme can be "no number", and only if one of the values is. -/
theorem nan_mem_of_computeOf {op : AggregateOp} {values : List Value}
    (h : computeOf op values = .ok .nan) :
    op ≠ .count ∧ .nan ∈ values.map Value.toNumber := by
  unfold computeOf at h
  cases op with
  | count => cases Except.ok.inj h
  | max => exact ⟨by decide, mem_of_extremeOf h⟩
  | min => exact ⟨by decide, mem_of_extremeOf h⟩
  | sum =>
    obtain ⟨decimal, -, heq⟩ := bind_eq_ok.mp h
    cases pure_eq_ok.mp heq
  | avg =>
    simp only [meanOf] at h
    split at h
    · exact absurd h refuse_ne_ok
    · obtain ⟨decimals, -, heq⟩ := bind_eq_ok.mp h
      cases pure_eq_ok.mp heq

variable {aggregate : Aggregate} {bucket : List Row}

theorem exists_nan_of_compute
    (h : aggregate.compute bucket = .ok (.number .nan)) :
    aggregate.op ≠ .count ∧ ∃ row ∈ bucket, ∃ value,
      row.get? aggregate.source.column = some value ∧
        value.toNumber = .nan := by
  obtain ⟨values, hvalues, h⟩ := bind_eq_ok.mp h
  obtain ⟨x, hx, heq⟩ := bind_eq_ok.mp h
  obtain rfl := Value.number.inj (pure_eq_ok.mp heq)
  obtain ⟨hop, hmem⟩ := nan_mem_of_computeOf hx
  obtain ⟨value, hvalue, hnan⟩ := List.mem_map.mp hmem
  obtain ⟨row, hrow, hsource⟩ :=
    exists_of_forall₂ (mapM_eq_ok.mp hvalues).flip hvalue
  exact ⟨hop, row, hrow, value, sourceValue_eq_ok.mp hsource, hnan⟩

end Aggregate

/-! ## Groups -/

namespace Grouping

variable {grouping : Grouping} {rows : List Row}

/-- Rows that have been gathered into groups have the key columns. -/
theorem covers_of_groupText {row : Row} {text : String}
    (h : groupText (grouping.keys.map FieldRef.column) row = .ok text) :
    grouping.Covers row := by
  intro key hkey
  obtain ⟨texts, htexts, -⟩ := bind_eq_ok.mp h
  obtain ⟨_, -, htext⟩ :=
    exists_of_forall₂ (mapM_eq_ok.mp htexts) (List.mem_map_of_mem hkey)
  unfold keyText at htext
  split at htext
  · rename_i value hvalue
    simp [Row.contains, hvalue]
  · exact absurd htext refuse_ne_ok

theorem covers_of_apply {results : List Row}
    (h : grouping.apply rows = .ok results) :
    ∀ row ∈ rows, grouping.Covers row := by
  intro row hrow
  obtain ⟨buckets, hbuckets, -⟩ := bind_eq_ok.mp h
  obtain ⟨texts, htexts, -⟩ := bind_eq_ok.mp hbuckets
  obtain ⟨text, -, htext⟩ := exists_of_forall₂ (mapM_eq_ok.mp htexts) hrow
  exact covers_of_groupText htext

/-- "No number" in the row of a group is that of one of its rows, in a key
column or in the source of an aggregate. -/
theorem exists_nan_of_apply (hseparates : grouping.Separates)
    {results : List Row} (h : grouping.apply rows = .ok results) {row : Row}
    (hrow : row ∈ results) {column : String}
    (hget : row.get? column = some (.number .nan)) :
    (∃ member ∈ rows, member.get? column = some (.number .nan)) ∨
      ∃ aggregate ∈ grouping.aggregates, aggregate.op ≠ .count ∧
        ∃ member ∈ rows, ∃ value,
          member.get? aggregate.source.column = some value ∧
            value.toNumber = .nan := by
  obtain ⟨bucket, hne, hmem, hmade⟩ :=
    exists_group (covers_of_apply h) h hrow
  obtain ⟨first, rest, rfl⟩ := List.exists_cons_of_ne_nil hne
  rcases get?_bucketRow_cases hmade hget with ⟨-, hfirst⟩ | ⟨hname, -⟩
  · exact .inl ⟨first, hmem first List.mem_cons_self, hfirst⟩
  · obtain ⟨aggregate, haggregate, rfl⟩ := List.mem_map.mp hname
    obtain ⟨value, hvalue, hsame⟩ :=
      get?_aggregate hseparates hmade haggregate
    obtain rfl := Option.some.inj (hget.symm.trans hsame)
    obtain ⟨hop, member, hmember, found, hfound, hnan⟩ :=
      Aggregate.exists_nan_of_compute hvalue
    exact .inr ⟨aggregate, haggregate, hop, member, hmem member hmember,
      found, hfound, hnan⟩

end Grouping

/-- The aggregates of an accepted query are of numbers, or they count. -/
theorem typed_of_read {dataset : String} {kind : Kind} {raw : Json}
    {query : CampusQuery.Query} {grouping : Grouping}
    (h : Query.read dataset kind raw = .ok query)
    (hgrouping : query.grouping = some grouping) :
    ∀ aggregate ∈ grouping.aggregates,
      aggregate.op = .count ∨ aggregate.source.type = .numeric := by
  cases describes_of_read h with
  | plain => cases hgrouping
  | grouped _ _ _ hdescribed =>
    obtain rfl := Option.some.inj hgrouping
    cases hdescribed with
    | intro _ _ _ hrules =>
      intro aggregate haggregate
      obtain ⟨rule, -, hrule⟩ := exists_of_forall₂ hrules.flip haggregate
      cases hrule with
      | intro _ htyped => exact htyped

/-! ## Records -/

variable {query : CampusQuery.Query} {dataset : Dataset}

/-- What stands in a column of a selected row is a field of a record. -/
theorem field_of_selectRows {predicate : Option Predicate} {rows : List Row}
    (h : selectRows dataset predicate = .ok rows) {row : Row}
    (hrow : row ∈ rows) {column : String} {value : Value}
    (hget : row.get? column = some value) :
    ∃ record ∈ dataset.records, record.IsColumn dataset.id (column, value) := by
  obtain ⟨record, hrecord, hmade⟩ := exists_record_of_selectRows h hrow
  exact ⟨record, hrecord, Record.isColumn_of_get?_toRow hmade hget⟩

/-- The column that a key names holds a value of the type that the key tells,
if any, and only for records of the kind in scope. -/
theorem Scope.Names.of_isColumn {scope : Scope} {key : String} {ref : FieldRef}
    (h : scope.Names key ref) {record : Record} {value : Value}
    (hcolumn : record.IsColumn scope.dataset (key, value)) :
    record.field ref.field = .ok value ∧ record.kind = scope.kind ∧
      value.type = ref.type := by
  obtain ⟨hdataset, hfield, rfl⟩ := h
  obtain ⟨name, hname, hvalue⟩ := hcolumn
  have hsame : ref.field = name := by
    simpa only [FieldRef.column, hdataset, columnName_inj] using hname
  subst hsame
  exact ⟨hvalue, Record.kind_of_field hvalue hfield⟩

/-- Where gathered rows have "no number", a record has it. -/
theorem exists_nan_of_gathered {raw : Json} {rows : List Row}
    (hread : Query.read dataset.id dataset.kind raw = .ok query)
    (h : query.gathered dataset = .ok rows) {row : Row} (hrow : row ∈ rows)
    {column : String} (hget : row.get? column = some (.number .nan)) :
    ∃ record ∈ dataset.records, ∃ name,
      record.field name = .ok (.number .nan) := by
  obtain ⟨selected, hselected, hrows⟩ := bind_eq_ok.mp h
  have hdirect : ∀ member ∈ selected,
      member.get? column = some (.number .nan) →
        ∃ record ∈ dataset.records, ∃ name,
          record.field name = .ok (.number .nan) := by
    intro member hmember hnan
    obtain ⟨record, hrecord, name, -, hvalue⟩ :=
      field_of_selectRows hselected hmember hnan
    exact ⟨record, hrecord, name, hvalue⟩
  cases hgrouping : query.grouping with
  | none =>
    rw [hgrouping] at hrows
    obtain rfl := pure_eq_ok.mp hrows
    exact hdirect row hrow hget
  | some grouping =>
    rw [hgrouping] at hrows
    rcases Grouping.exists_nan_of_apply (separates_of_read hread hgrouping)
        hrows hrow hget with
      ⟨member, hmember, hnan⟩ |
      ⟨aggregate, haggregate, hop, member, hmember, value, hvalue, hnan⟩
    · exact hdirect member hmember hnan
    · obtain ⟨record, hrecord, hcolumn⟩ :=
        field_of_selectRows hselected hmember hvalue
      have hnames := (fits_of_read hread).sources grouping hgrouping aggregate
        haggregate
      obtain ⟨hfield, -, htype⟩ := hnames.of_isColumn hcolumn
      have htyped := typed_of_read hread hgrouping aggregate haggregate
      have hnumeric : value.type = .numeric := by
        simpa [hop, htype] using htyped
      cases value with
      | text => cases hnumeric
      | number x =>
        obtain rfl : x = .nan := hnan
        exact ⟨record, hrecord, _, hfield⟩

end CampusQuery.Query
