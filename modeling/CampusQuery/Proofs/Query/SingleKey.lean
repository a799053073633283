/-
CampusQuery.Proofs.Query.SingleKey — grouping by one field and asking for its
values.

Grouping tells values apart by their texts, conditions by comparing them. The
values of one field are of one type, so the two agree unless one of them is
"no number" (`display_eq_iff_equals`). The group of a value then has the rows
that are selected when the condition asks for this value as well
(`filter_joined`, `selectRows_narrowed`), and since different groups have
different texts there is one group for each value (`existsUnique_hasEqual`).
-/
import CampusQuery.Proofs.Query.Origin
import CampusQuery.Proofs.Query.Pattern
import CampusQuery.Proofs.Value

namespace CampusQuery

open Numeric Outcome

/-- Values of one type, other than "no number", have the same text if and only
if they are equal. -/
theorem Value.display_eq_iff_equals {v w : Value} (htype : v.type = w.type)
    (hnan : v ≠ .number .nan) : v.display = w.display ↔ v.equals w := by
  rw [display_eq_iff, or_iff_left]
  intro hlooks
  cases hlooks with
  | nan => exact hnan rfl
  | text => cases htype
  | number => cases htype

namespace Query

/-! ## The values of a field -/

/-- The row has the value in the column of the field. It is of the type of the
field and not "no number". -/
structure FieldRef.Has (ref : FieldRef) (row : Row) (value : Value) : Prop where
  get? : row.get? ref.column = some value
  type : value.type = ref.type
  ne_nan : value ≠ .number .nan

def FieldRef.hasEqual (ref : FieldRef) (value : Value) (row : Row) : Bool :=
  (row.get? ref.column).any (·.equals value)

variable {dataset : Dataset} {ref : FieldRef} {row : Row} {value other : Value}

theorem FieldRef.Has.unique (h : ref.Has row value)
    (hother : row.get? ref.column = some other) : other = value :=
  Option.some.inj (hother.symm.trans h.get?)

/-- A row has an equal value if and only if the texts are the same. -/
theorem FieldRef.Has.hasEqual_iff (h : ref.Has row value)
    (htype : other.type = ref.type) :
    ref.hasEqual other row ↔ value.display = other.display := by
  rw [Value.display_eq_iff_equals (h.type.trans htype.symm) h.ne_nan, hasEqual,
    h.get?, Option.any_some]

/-- The row of a record has the value of each field of the dataset. -/
theorem exists_get?_toRow
    (hkind : ∀ record ∈ dataset.records, record.kind = dataset.kind)
    (href : (scopeOf dataset).Names ref.column ref) {record : Record}
    (hrecord : record ∈ dataset.records)
    (hrow : record.toRow dataset.id = .ok row) :
    ∃ value, record.field ref.field = .ok value ∧
      row.get? ref.column = some value ∧ value.type = ref.type := by
  obtain ⟨same, hsame, hshows⟩ :=
    (scopeOf dataset).exists_toRow (hkind record hrecord)
  obtain rfl := Except.ok.inj (hsame.symm.trans hrow)
  obtain ⟨value, hvalue, hget⟩ := hshows _ _ href
  exact ⟨value, hvalue, hget, (Record.kind_of_field hvalue href.2.1).2⟩

/-- A row of a dataset has a value of the field if none of these is "no
number". -/
theorem exists_has
    (hkind : ∀ record ∈ dataset.records, record.kind = dataset.kind)
    (hnan : ∀ record ∈ dataset.records,
      record.field ref.field ≠ .ok (.number .nan))
    (href : (scopeOf dataset).Names ref.column ref)
    (hrow : ∃ record ∈ dataset.records, record.toRow dataset.id = .ok row) :
    ∃ value, ref.Has row value := by
  obtain ⟨record, hrecord, hmade⟩ := hrow
  obtain ⟨value, hvalue, hget, htype⟩ :=
    exists_get?_toRow hkind href hrecord hmade
  refine ⟨value, hget, htype, ?_⟩
  rintro rfl
  exact hnan record hrecord hvalue

/-! ## Asking for a value -/

/-- The condition that a field has a value: EQ with a number, and IS with a
text where it is read as the text itself. -/
def FieldRef.equalTo (ref : FieldRef) : Value → Predicate
  | .number x => .compare .equal ref x
  | .text text => .accepts ref ⟨.whole, text.toList⟩

/-- The condition that asks for a value of a field as well. -/
def Predicate.narrowed (predicate : Predicate) (ref : FieldRef)
    (value : Value) : Predicate :=
  .all [predicate, ref.equalTo value]

theorem fields_equalTo : (ref.equalTo value).fields = [ref] := by
  cases value <;> rfl

theorem mem_fields_narrowed {predicate : Predicate} {found : FieldRef} :
    found ∈ (predicate.narrowed ref value).fields ↔
      found ∈ predicate.fields ∨ found = ref := by
  simp [Predicate.narrowed, Predicate.fields, Predicate.fieldsOfEach,
    fields_equalTo]

/-- A record has an equal value if it meets the condition. -/
theorem isMetBy_equalTo {record : Record} {found : Value}
    (hfield : record.field ref.field = .ok found)
    (htype : found.type = value.type) :
    (ref.equalTo value).isMetBy record = found.equals value := by
  have hlookup := Record.field_eq_ok.mp hfield
  cases value with
  | number x =>
    cases found with
    | text => cases htype
    | number y =>
      simp [FieldRef.equalTo, Predicate.isMetBy, hlookup, Comparison.holds,
        Value.toNumber, Value.equals]
  | text s =>
    cases found with
    | number => cases htype
    | text t =>
      have hsame : (t.toList == s.toList) = (t == s) := by
        rw [Bool.eq_iff_iff, beq_iff_eq, beq_iff_eq, String.toList_inj]
      simp [FieldRef.equalTo, Predicate.isMetBy, hlookup, Pattern.accepts,
        Value.display, Value.equals, hsame]

/-- A condition on fields of the dataset can be evaluated for its records. -/
theorem keeps_some_eq_ok {predicate : Predicate}
    (hkind : ∀ record ∈ dataset.records, record.kind = dataset.kind)
    (hpredicate : ∀ found ∈ predicate.fields,
      (scopeOf dataset).Names found.column found) :
    ∀ record ∈ dataset.records,
      keeps (some predicate) record = .ok (isKept (some predicate) record) := by
  intro record hrecord
  have hnames : ∀ found, some predicate = some found →
      ∀ named ∈ found.fields,
        (scopeOf dataset).Names named.column named := by
    rintro _ ⟨⟩
    exact hpredicate
  exact keeps_eq_ok (hkind record hrecord) hnames

/-- Asking for a value as well selects the rows that have an equal value. -/
theorem selectRows_narrowed {predicate : Predicate} {rows : List Row}
    (hkind : ∀ record ∈ dataset.records, record.kind = dataset.kind)
    (hpredicate : ∀ found ∈ predicate.fields,
      (scopeOf dataset).Names found.column found)
    (href : (scopeOf dataset).Names ref.column ref)
    (hvalue : value.type = ref.type)
    (hrows : selectRows dataset (some predicate) = .ok rows) :
    selectRows dataset (some (predicate.narrowed ref value))
      = .ok (rows.filter (ref.hasEqual value)) := by
  have hnarrowed : ∀ found ∈ (predicate.narrowed ref value).fields,
      (scopeOf dataset).Names found.column found := by
    intro found hfound
    rcases mem_fields_narrowed.mp hfound with hbefore | rfl
    · exact hpredicate found hbefore
    · exact href
  refine selectRows_filter (keeps_some_eq_ok hkind hpredicate)
    (keeps_some_eq_ok hkind hnarrowed) ?_ hrows
  intro record hrecord row hrow
  obtain ⟨found, hfound, hget, htype⟩ :=
    exists_get?_toRow hkind href hrecord hrow
  have hequal := isMetBy_equalTo hfound (htype.trans hvalue.symm)
  simp [isKept, Predicate.narrowed, Predicate.isMetBy, Predicate.areMetBy,
    hequal, FieldRef.hasEqual, hget]

/-! ## Groups by one field -/

namespace Grouping

variable {grouping : Grouping} {rows results : List Row}

/-- Grouping makes a row for each text of the keys. -/
theorem apply_eq_ok (hrows : ∀ row ∈ rows, grouping.Covers row) :
    grouping.apply rows = .ok results ↔
      List.Forall₂ (fun text result =>
        grouping.bucketRow (rows.filter (grouping.joined · == text))
          = .ok result)
        (rows.map grouping.joined).eraseDups results := by
  unfold apply
  rw [buckets_eq hrows, gather_texts, bind_eq_ok]
  simp [mapM_eq_ok, List.forall₂_map_left_iff]

theorem covers_of_has (hkeys : grouping.keys = [ref])
    (hrows : ∀ row ∈ rows, ∃ value, ref.Has row value) :
    ∀ row ∈ rows, grouping.Covers row := by
  intro row hrow
  obtain ⟨value, hvalue⟩ := hrows row hrow
  simp [Covers, hkeys, Row.contains, hvalue.get?]

theorem joined_of_has (hkeys : grouping.keys = [ref])
    (h : ref.Has row value) : grouping.joined row = value.display := by
  simp [joined, displays, hkeys, h.get?, String.join]

theorem display_mem_texts (hkeys : grouping.keys = [ref])
    (h : ref.Has row value) (hrow : row ∈ rows) :
    value.display ∈ (rows.map grouping.joined).eraseDups := by
  rw [← joined_of_has hkeys h, List.mem_eraseDups]
  exact List.mem_map_of_mem hrow

/-- The group of a value has the rows with an equal value. -/
theorem filter_joined (hkeys : grouping.keys = [ref])
    (hrows : ∀ row ∈ rows, ∃ value, ref.Has row value)
    (htype : value.type = ref.type) :
    rows.filter (grouping.joined · == value.display)
      = rows.filter (ref.hasEqual value) := by
  refine List.filter_congr fun row hrow => ?_
  obtain ⟨found, hfound⟩ := hrows row hrow
  rw [Bool.eq_iff_iff, beq_iff_eq, joined_of_has hkeys hfound,
    hfound.hasEqual_iff htype]

/-- The row of a group has the value that the text is of, and sums up the rows
with an equal value. -/
theorem exists_has_of_bucketRow (hbuilt : grouping.IsBuilt)
    (hkeys : grouping.keys = [ref])
    (hrows : ∀ row ∈ rows, ∃ value, ref.Has row value) {text : String}
    (htext : text ∈ rows.map grouping.joined) {result : Row}
    (h : grouping.bucketRow (rows.filter (grouping.joined · == text))
      = .ok result) :
    ∃ value, ref.Has result value ∧ value.display = text ∧
      grouping.Summarizes (rows.filter (ref.hasEqual value)) result := by
  obtain ⟨member, hmember, rfl⟩ := List.mem_map.mp htext
  -- The row takes its value from the first row of the group.
  have hin : member ∈ rows.filter
      (grouping.joined · == grouping.joined member) :=
    List.mem_filter.mpr ⟨hmember, beq_self_eq_true _⟩
  obtain ⟨first, rest, hbucket⟩ :=
    List.exists_cons_of_ne_nil (List.ne_nil_of_mem hin)
  have hfirst := List.mem_filter.mp (hbucket ▸ List.mem_cons_self : first ∈ _)
  obtain ⟨value, hvalue⟩ := hrows first hfirst.1
  have htext : value.display = grouping.joined member :=
    (joined_of_has hkeys hvalue).symm.trans (eq_of_beq hfirst.2)
  have hcovers := covers_of_has hkeys hrows first hfirst.1
  rw [hbucket] at h
  have hget : result.get? ref.column = first.get? ref.column :=
    get?_bucketRow hbuilt hcovers h (hkeys ▸ List.mem_singleton_self ref)
  refine ⟨value, ?_, htext, ?_⟩
  · exact ⟨hget.trans hvalue.get?, hvalue.type, hvalue.ne_nan⟩
  · rw [← filter_joined hkeys hrows hvalue.type, htext, hbucket]
    exact summarizes_of_bucketRow hbuilt hcovers h

/-- The rows of the groups, for each text one that has a value with this
text. -/
theorem forall₂_has (hbuilt : grouping.IsBuilt) (hkeys : grouping.keys = [ref])
    (hrows : ∀ row ∈ rows, ∃ value, ref.Has row value)
    (h : grouping.apply rows = .ok results) :
    List.Forall₂ (fun text result =>
      ∃ value, ref.Has result value ∧ value.display = text ∧
        grouping.Summarizes (rows.filter (ref.hasEqual value)) result)
      (rows.map grouping.joined).eraseDups results := by
  have hmade := List.forall₂_iff_zip.mp
    ((apply_eq_ok (covers_of_has hkeys hrows)).mp h)
  refine List.forall₂_iff_zip.mpr ⟨hmade.1, ?_⟩
  intro text result hpair
  have htext := List.mem_eraseDups.mp (List.of_mem_zip hpair).1
  exact exists_has_of_bucketRow hbuilt hkeys hrows htext (hmade.2 hpair)

/-- If each row has a value with one of different texts, there is exactly one
row for a value with such a text. -/
theorem existsUnique_hasEqual {texts : List String} (hnodup : texts.Nodup)
    (h : List.Forall₂ (fun text result =>
      ∃ value, ref.Has result value ∧ value.display = text) texts results)
    (htype : value.type = ref.type) (hmem : value.display ∈ texts) :
    ∃! place : Fin results.length, ref.hasEqual value (results.get place) := by
  have hlength := h.length_eq
  have hiff : ∀ (i : Nat) (hi : i < texts.length),
      ref.hasEqual value (results.get ⟨i, hlength ▸ hi⟩) ↔
        texts.get ⟨i, hi⟩ = value.display := by
    intro i hi
    obtain ⟨found, hfound, htext⟩ := h.get hi (hlength ▸ hi)
    rw [← htext]
    exact hfound.hasEqual_iff htype
  obtain ⟨⟨i, hi⟩, hvalue⟩ := List.mem_iff_get.mp hmem
  refine ⟨⟨i, hlength ▸ hi⟩, (hiff i hi).mpr hvalue, ?_⟩
  rintro ⟨j, hj⟩ hother
  have hsame := ((hiff j (hlength ▸ hj)).mp hother).trans hvalue.symm
  exact Fin.ext (Fin.mk.inj ((hnodup.get_inj_iff).mp hsame))

/-- There are rows for the groups if and only if the aggregates can be computed
over the rows with each value. -/
theorem exists_apply_iff (hkeys : grouping.keys = [ref])
    (hrows : ∀ row ∈ rows, ∃ value, ref.Has row value) :
    (∃ results, grouping.apply rows = .ok results) ↔
      ∀ row ∈ rows, ∃ value, ref.Has row value ∧
        grouping.Computes (rows.filter (ref.hasEqual value)) := by
  simp only [apply_eq_ok (covers_of_has hkeys hrows)]
  constructor
  · rintro ⟨results, hresults⟩ row hrow
    obtain ⟨value, hvalue⟩ := hrows row hrow
    obtain ⟨result, -, hresult⟩ :=
      exists_of_forall₂ hresults (display_mem_texts hkeys hvalue hrow)
    rw [filter_joined hkeys hrows hvalue.type] at hresult
    exact ⟨value, hvalue, exists_bucketRow_iff.mp ⟨result, hresult⟩⟩
  · intro h
    refine exists_forall₂ fun text htext => ?_
    obtain ⟨row, hrow, rfl⟩ := List.mem_map.mp (List.mem_eraseDups.mp htext)
    obtain ⟨value, hvalue, hcomputes⟩ := h row hrow
    rw [joined_of_has hkeys hvalue, filter_joined hkeys hrows hvalue.type]
    exact exists_bucketRow_iff.mpr hcomputes

/-- The rows that grouping by a field makes of selected rows sum up what is
selected when the condition asks for their values as well, a text without
asterisks by IS, and each value of the field has exactly one of them. There are
none if and only if some aggregate cannot be computed over what is selected for
some value. -/
theorem apply_agrees_narrowed {predicate : Predicate}
    (hkind : ∀ record ∈ dataset.records, record.kind = dataset.kind)
    (hnan : ∀ record ∈ dataset.records,
      record.field ref.field ≠ .ok (.number .nan))
    (hpredicate : ∀ found ∈ predicate.fields,
      (scopeOf dataset).Names found.column found)
    (href : (scopeOf dataset).Names ref.column ref)
    (hbuilt : grouping.IsBuilt) (hkeys : grouping.keys = [ref])
    (hrows : selectRows dataset (some predicate) = .ok rows) :
    (∀ results, grouping.apply rows = .ok results →
      (∀ result ∈ results, ∃ value,
        result.get? ref.column = some value ∧ value.type = ref.type ∧
        (∀ text, value = .text text → '*' ∉ text.toList →
          Predicate.accepts ref <$> Pattern.parse text
            = .ok (ref.equalTo value)) ∧
        ∃ chosen,
          selectRows dataset (some (predicate.narrowed ref value))
            = .ok chosen ∧
          grouping.Summarizes chosen result) ∧
      ∀ row ∈ rows, ∃ value, row.get? ref.column = some value ∧
        ∃! place : Fin results.length,
          ref.hasEqual value (results.get place)) ∧
    ((∃ results, grouping.apply rows = .ok results) ↔
      ∀ row ∈ rows, ∃ value, row.get? ref.column = some value ∧
        ∃ chosen,
          selectRows dataset (some (predicate.narrowed ref value))
            = .ok chosen ∧
          grouping.Computes chosen) := by
  have hhas : ∀ row ∈ rows, ∃ value, ref.Has row value := fun _ hrow =>
    exists_has hkind hnan href (exists_record_of_selectRows hrows hrow)
  have hchosen : ∀ {row value}, ref.Has row value →
      selectRows dataset (some (predicate.narrowed ref value))
        = .ok (rows.filter (ref.hasEqual value)) := fun hvalue =>
    selectRows_narrowed hkind hpredicate href hvalue.type hrows
  refine ⟨fun results hresults => ?_, ?_⟩
  · have hmade := forall₂_has hbuilt hkeys hhas hresults
    constructor
    · intro result hresult
      obtain ⟨text, -, value, hvalue, -, hsums⟩ :=
        exists_of_forall₂ hmade.flip hresult
      refine ⟨value, hvalue.get?, hvalue.type, ?_, _, hchosen hvalue, hsums⟩
      rintro text rfl hplain
      rw [Pattern.parse_of_not_mem hplain]
      rfl
    · intro row hrow
      obtain ⟨value, hvalue⟩ := hhas row hrow
      refine ⟨value, hvalue.get?, existsUnique_hasEqual (nodup_eraseDups _) ?_
        hvalue.type (display_mem_texts hkeys hvalue hrow)⟩
      exact hmade.imp fun _ _ ⟨found, hfound, htext, _⟩ =>
        ⟨found, hfound, htext⟩
  · rw [exists_apply_iff hkeys hhas]
    refine forall₂_congr fun row hrow => ?_
    constructor
    · rintro ⟨value, hvalue, hcomputes⟩
      exact ⟨value, hvalue.get?, _, hchosen hvalue, hcomputes⟩
    · rintro ⟨value, hget, chosen, hselected, hcomputes⟩
      obtain ⟨same, hsame⟩ := hhas row hrow
      obtain rfl := hsame.unique hget
      obtain rfl := Except.ok.inj (hselected.symm.trans (hchosen hsame))
      exact ⟨value, hsame, hcomputes⟩

/-- Three sections, whose averages are zero of either sign and 70. -/
def zeroAverages : Dataset where
  id := "courses"
  kind := .sections
  records := [averaging "1" .zero, averaging "2" Binary64.zero.negate,
    averaging "3" (.ofInt 70)]

/-- Counts the sections with each average. -/
def byAverageCount : Grouping where
  keys := [⟨"courses", "avg", .numeric⟩]
  aggregates := [⟨"count", .count, ⟨"courses", "uuid", .text⟩⟩]

def inDepartment : Predicate :=
  .accepts ⟨"courses", "dept", .text⟩ ⟨.whole, ['c', 'p', 's', 'c']⟩

/-- The zeros make one row, and 70 another one. -/
theorem apply_agrees_narrowed_zeroAverages :
    ∃ rows results,
      selectRows zeroAverages (some inDepartment) = .ok rows ∧
      byAverageCount.apply rows = .ok results ∧ results.length = 2 ∧
      (∀ result ∈ results, ∃ value,
        result.get? "courses_avg" = some value ∧
        ∃ chosen,
          selectRows zeroAverages (some
            (inDepartment.narrowed ⟨"courses", "avg", .numeric⟩ value))
              = .ok chosen ∧
          byAverageCount.Summarizes chosen result) ∧
      ∀ row ∈ rows, ∃ value, row.get? "courses_avg" = some value ∧
        ∃! place : Fin results.length,
          FieldRef.hasEqual ⟨"courses", "avg", .numeric⟩ value
            (results.get place) := by
  have hkeys : empty.setKeys byAverageCount.keys
      = .ok ⟨byAverageCount.keys, []⟩ := rfl
  have hcount : addAggregate ⟨byAverageCount.keys, []⟩ "count" .count
      ⟨"courses", "uuid", .text⟩ = .ok byAverageCount := by decide
  have hbuilt : byAverageCount.IsBuilt :=
    .addAggregate (.setKeys .empty hkeys) hcount
  have hlength : List.length <$>
      (selectRows zeroAverages (some inDepartment) >>= byAverageCount.apply)
        = .ok 2 := by decide +kernel
  obtain ⟨results, hresults, htwo⟩ := map_eq_ok.mp hlength
  obtain ⟨rows, hrows, happly⟩ := bind_eq_ok.mp hresults
  have hkind : ∀ record ∈ zeroAverages.records,
      record.kind = zeroAverages.kind := by decide
  have hnan : ∀ record ∈ zeroAverages.records,
      record.field "avg" ≠ .ok (.number .nan) := by decide +kernel
  have hnames : ∀ field type, field ∈ Kind.sections.fieldsOf type →
      (scopeOf zeroAverages).Names (columnName "courses" field)
        ⟨"courses", field, type⟩ := fun _ _ hfield => ⟨rfl, hfield, rfl⟩
  have hpredicate : ∀ found ∈ inDepartment.fields,
      (scopeOf zeroAverages).Names found.column found :=
    List.forall_mem_singleton.mpr (hnames "dept" .text (by decide))
  obtain ⟨hagree, -⟩ := apply_agrees_narrowed hkind hnan hpredicate
    (hnames "avg" .numeric (by decide)) hbuilt rfl hrows
  obtain ⟨hsums, hunique⟩ := hagree results happly
  refine ⟨rows, results, hrows, happly, htwo, ?_, hunique⟩
  intro result hresult
  obtain ⟨value, hvalue, -, -, hchosen⟩ := hsums result hresult
  exact ⟨value, hvalue, hchosen⟩

end Grouping

end Query

end CampusQuery
