/-
CampusQuery.Proofs.Query.Columns — the columns of an answer and what they
hold.

Rows are made three times: from records, from groups and for showing. The row
of a record has a value of the right type for every field (`Scope.Types`). That
of a group has the key columns, each once, and then the aggregates, which are
numbers; since a column of a field has an underscore and the name of an
aggregate has none, neither takes the place of the other
(`Grouping.names_bucketRow`). Showing picks columns from these. `run_columns`
puts the three together for every accepted query.
-/
import CampusQuery.Proofs.Query.Safety

namespace CampusQuery

open Outcome

def Row.Holds (row : Row) (column : String) (type : FieldType) : Prop :=
  ∃ value, row.get? column = some value ∧ value.type = type

theorem Row.Holds.contains {row : Row} {column : String} {type : FieldType}
    (h : row.Holds column type) : row.contains column := by
  obtain ⟨value, hvalue, -⟩ := h
  simp [Row.contains, hvalue]

namespace Query

/-! ## Rows of records -/

/-- The row has a value of the right type for every key that names a field. -/
def Scope.Types (scope : Scope) (row : Row) : Prop :=
  ∀ key ref, scope.Names key ref → row.Holds key ref.type

theorem Scope.Shows.types {scope : Scope} {record : Record} {row : Row}
    (h : scope.Shows record row) (hkind : record.kind = scope.kind) :
    scope.Types row := by
  intro key ref hnames
  obtain ⟨value, hvalue, hget⟩ := h key ref hnames
  obtain ⟨same, hsame, htype⟩ := record.exists_field (hkind ▸ hnames.2.1)
  obtain rfl := Except.ok.inj (hvalue.symm.trans hsame)
  exact ⟨value, hget, htype⟩

/-! ## Rows of groups -/

namespace Grouping

/-- The aggregates have different names, none of which could be that of a
column of a field. -/
structure Separates (grouping : Grouping) : Prop where
  nodup : (grouping.aggregates.map (·.name)).Nodup
  no_underscore : ∀ aggregate ∈ grouping.aggregates,
    '_' ∉ aggregate.name.toList

variable {grouping : Grouping} {first row : Row} {rest rows : List Row}

/-- No aggregate has the name of a column of a field. -/
theorem Separates.column_not_mem (h : grouping.Separates) (key : FieldRef) :
    key.column ∉ grouping.aggregates.map (·.name) := by
  intro hmem
  obtain ⟨aggregate, haggregate, hname⟩ := List.mem_map.mp hmem
  refine h.no_underscore aggregate haggregate ?_
  exact hname ▸ underscore_mem_column key

/-- Texts without repetitions that come behind others are all kept. -/
theorem eraseDups_append_of_nodup {texts behind : List String}
    (hnodup : behind.Nodup) (hnew : ∀ text ∈ behind, text ∉ texts) :
    (texts ++ behind).eraseDups = texts.eraseDups ++ behind := by
  have hkept : behind.removeAll texts = behind :=
    List.filter_eq_self.mpr (by simpa using hnew)
  rw [List.eraseDups_append, hkept]
  refine congrArg _ ?_
  clear hkept hnew
  induction behind with
  | nil => rfl
  | cons text rest ih =>
    obtain ⟨hnot, hrest⟩ := List.nodup_cons.mp hnodup
    have hothers : rest.filter (fun other => !other == text) = rest := by
      refine List.filter_eq_self.mpr fun other hother => ?_
      have hne : other ≠ text := fun hsame => hnot (hsame ▸ hother)
      simpa using hne
    rw [List.eraseDups_cons, hothers, ih hrest]

/-- The key columns of a group are those of its first row. -/
theorem map_fst_keyColumns (hfirst : grouping.Covers first) :
    (grouping.keyColumns (first :: rest)).map Prod.fst
      = grouping.keys.map FieldRef.column := by
  have hcolumns : ∀ column ∈ grouping.keys.map FieldRef.column,
      first.contains column := by
    simpa [Covers] using hfirst
  rw [← Row.map_fst_filterMap_get? hcolumns, List.filterMap_map]
  rfl

/-- The row of a group is made of its key columns and of numbers under the
names of the aggregates. -/
theorem bucketRow_eq_ok
    (h : grouping.bucketRow (first :: rest) = .ok row) :
    ∃ computed, row = .ofColumns
        (grouping.keyColumns (first :: rest) ++ computed) ∧
      computed.map Prod.fst = grouping.aggregates.map (·.name) ∧
      ∀ entry ∈ computed, entry.2.type = .numeric := by
  obtain ⟨computed, hcomputed, hrow⟩ := bind_eq_ok.mp h
  have hentries := mapM_eq_ok.mp hcomputed
  have hentry : ∀ (aggregate : Aggregate) (entry : String × Value),
      (do return (aggregate.name, ← aggregate.compute (first :: rest)))
        = Except.ok entry →
      entry.1 = aggregate.name ∧ entry.2.type = .numeric := by
    intro aggregate entry hentry
    obtain ⟨value, hvalue, hpair⟩ := bind_eq_ok.mp hentry
    obtain rfl := pure_eq_ok.mp hpair
    obtain ⟨values, -, hnumber⟩ := bind_eq_ok.mp hvalue
    obtain ⟨x, -, hx⟩ := bind_eq_ok.mp hnumber
    obtain rfl := pure_eq_ok.mp hx
    exact ⟨rfl, rfl⟩
  refine ⟨computed, (pure_eq_ok.mp hrow).symm, ?_, ?_⟩
  · rw [← List.forall₂_eq_eq_eq, List.forall₂_map_left_iff,
      List.forall₂_map_right_iff]
    exact (hentries.imp fun _ _ hpair => (hentry _ _ hpair).1).flip
  · intro entry hmem
    obtain ⟨aggregate, -, hpair⟩ := exists_of_forall₂ hentries.flip hmem
    exact (hentry aggregate entry hpair).2

/-- The row of a group has the key columns, each once where it first stands,
and then the aggregates. -/
theorem names_bucketRow (hseparates : grouping.Separates)
    (hfirst : grouping.Covers first)
    (h : grouping.bucketRow (first :: rest) = .ok row) :
    row.names = (grouping.keys.map FieldRef.column).eraseDups
      ++ grouping.aggregates.map (·.name) := by
  obtain ⟨computed, rfl, hnames, -⟩ := bucketRow_eq_ok h
  rw [Row.names_ofColumns, List.map_append, map_fst_keyColumns hfirst, hnames]
  refine eraseDups_append_of_nodup hseparates.nodup fun name hname hcolumn => ?_
  obtain ⟨key, -, rfl⟩ := List.mem_map.mp hcolumn
  exact hseparates.column_not_mem key hname

/-- It has exactly the columns that results are said to have. -/
theorem contains_bucketRow (hfirst : grouping.Covers first)
    (h : grouping.bucketRow (first :: rest) = .ok row) {column : String} :
    row.contains column ↔ column ∈ grouping.resultColumns := by
  obtain ⟨computed, rfl, hnames, -⟩ := bucketRow_eq_ok h
  rw [Row.contains_ofColumns, List.map_append, map_fst_keyColumns hfirst,
    hnames, resultColumns]

/-- What it holds is from the first row, or it is a number under the name of an
aggregate. -/
theorem get?_bucketRow_cases {column : String} {value : Value}
    (h : grouping.bucketRow (first :: rest) = .ok row)
    (hget : row.get? column = some value) :
    (column ∈ grouping.keys.map FieldRef.column ∧
      first.get? column = some value) ∨
    (column ∈ grouping.aggregates.map (·.name) ∧ value.type = .numeric) := by
  obtain ⟨computed, rfl, hnames, hnumeric⟩ := bucketRow_eq_ok h
  rcases List.mem_append.mp (Row.mem_of_get?_ofColumns hget) with hshown | hnew
  · obtain ⟨key, hkey, hentry⟩ := List.mem_filterMap.mp hshown
    obtain ⟨found, hfound, hpair⟩ := Option.map_eq_some_iff.mp hentry
    obtain ⟨rfl, rfl⟩ := Prod.mk.inj hpair
    exact .inl ⟨List.mem_map_of_mem hkey, hfound⟩
  · refine .inr ⟨?_, hnumeric _ hnew⟩
    rw [← hnames]
    exact List.mem_map_of_mem hnew

/-- A key column holds what it holds in the first row. -/
theorem holds_key (hseparates : grouping.Separates)
    (hfirst : grouping.Covers first)
    (h : grouping.bucketRow (first :: rest) = .ok row) {key : FieldRef}
    (hkey : key ∈ grouping.keys) {type : FieldType}
    (hholds : first.Holds key.column type) : row.Holds key.column type := by
  have hthere : row.contains key.column :=
    (contains_bucketRow hfirst h).mpr
      (List.mem_append_left _ (List.mem_map_of_mem hkey))
  obtain ⟨value, hvalue⟩ := Option.isSome_iff_exists.mp hthere
  rcases get?_bucketRow_cases h hvalue with ⟨-, hget⟩ | ⟨hname, -⟩
  · obtain ⟨kept, hkept, htype⟩ := hholds
    obtain rfl := Option.some.inj (hget.symm.trans hkept)
    exact ⟨value, hvalue, htype⟩
  · exact absurd hname (hseparates.column_not_mem key)

/-- An aggregate is a number. -/
theorem holds_aggregate (hseparates : grouping.Separates)
    (hfirst : grouping.Covers first)
    (h : grouping.bucketRow (first :: rest) = .ok row) {aggregate : Aggregate}
    (haggregate : aggregate ∈ grouping.aggregates) :
    row.Holds aggregate.name .numeric := by
  have hname := List.mem_map_of_mem (f := (·.name)) haggregate
  have hthere : row.contains aggregate.name :=
    (contains_bucketRow hfirst h).mpr (List.mem_append_right _ hname)
  obtain ⟨value, hvalue⟩ := Option.isSome_iff_exists.mp hthere
  rcases get?_bucketRow_cases h hvalue with ⟨hcolumn, -⟩ | ⟨-, htype⟩
  · obtain ⟨key, -, hkey⟩ := List.mem_map.mp hcolumn
    exact absurd (hkey ▸ hname) (hseparates.column_not_mem key)
  · exact ⟨value, hvalue, htype⟩

/-- Every row that grouping makes is that of a group of the given rows. -/
theorem exists_group {results : List Row}
    (hcovers : ∀ row ∈ rows, grouping.Covers row)
    (h : grouping.apply rows = .ok results) (hrow : row ∈ results) :
    ∃ bucket ≠ [], (∀ member ∈ bucket, member ∈ rows) ∧
      grouping.bucketRow bucket = .ok row := by
  obtain ⟨blocks, hgroups, -⟩ := exists_groups hcovers
  unfold apply at h
  rw [hgroups.buckets] at h
  obtain ⟨bucket, hbucket, hmade⟩ :=
    exists_of_forall₂ (mapM_eq_ok.mp h).flip hrow
  obtain ⟨hne, hmem⟩ := hgroups.of_mem hbucket
  exact ⟨bucket, hne, hmem, hmade⟩

/-- Its first row is one of them. -/
theorem exists_bucket {results : List Row}
    (hcovers : ∀ row ∈ rows, grouping.Covers row)
    (h : grouping.apply rows = .ok results) (hrow : row ∈ results) :
    ∃ first ∈ rows, ∃ rest, grouping.bucketRow (first :: rest) = .ok row := by
  obtain ⟨bucket, hne, hmem, hmade⟩ := exists_group hcovers h hrow
  obtain ⟨first, rest, rfl⟩ := List.exists_cons_of_ne_nil hne
  exact ⟨first, hmem first List.mem_cons_self, rest, hmade⟩

end Grouping

/-- Transformations that follow the grammar keep the names apart. -/
theorem IsGrouping.separates {scope : Scope} {value : Json}
    {grouping : Grouping} (h : IsGrouping scope value grouping) :
    grouping.Separates := by
  cases h with
  | intro _ _ _ hrules hnodup =>
    refine ⟨hnodup, fun aggregate haggregate => ?_⟩
    obtain ⟨rule, -, hrule⟩ := exists_of_forall₂ hrules.flip haggregate
    cases hrule with
    | intro _ _ _ hname => exact hname

/-- So do the transformations of an accepted query. -/
theorem separates_of_read {dataset : String} {kind : Kind} {raw : Json}
    {query : CampusQuery.Query} {grouping : Grouping}
    (h : Query.read dataset kind raw = .ok query)
    (hgrouping : query.grouping = some grouping) : grouping.Separates := by
  cases describes_of_read h with
  | plain => cases hgrouping
  | grouped _ _ _ hdescribed =>
    obtain rfl := Option.some.inj hgrouping
    exact hdescribed.separates

/-! ## Answers -/

/-- A column that the query can show, and the type of its values: those of a
field have its type, and aggregates are numbers. -/
inductive Offers (query : CampusQuery.Query) (scope : Scope) :
    String → FieldType → Prop
  | field {column : String} {ref : FieldRef} :
      scope.Names column ref → Offers query scope column ref.type
  | aggregate {grouping : Grouping} {aggregate : Aggregate} :
      query.grouping = some grouping → aggregate ∈ grouping.aggregates →
      Offers query scope aggregate.name .numeric

variable {query : CampusQuery.Query} {dataset : Dataset}

/-- The columns that a query shows are among those that it can show. -/
theorem Fits.exists_offers {scope : Scope} (h : Fits scope query)
    {column : String} (hcolumn : column ∈ query.options.columns) :
    ∃ type, query.Offers scope column type := by
  cases hgrouping : query.grouping with
  | none =>
    obtain ⟨ref, hnames⟩ := h.plain hgrouping column hcolumn
    exact ⟨ref.type, .field hnames⟩
  | some grouping =>
    rcases List.mem_append.mp (h.results grouping hgrouping column hcolumn) with
      hcolumnOf | hname
    · obtain ⟨key, hkey, rfl⟩ := List.mem_map.mp hcolumnOf
      exact ⟨key.type, .field (h.keys grouping hgrouping key hkey)⟩
    · obtain ⟨aggregate, haggregate, rfl⟩ := List.mem_map.mp hname
      exact ⟨.numeric, .aggregate hgrouping haggregate⟩

/-- The selected rows have values of the right types. -/
theorem types_of_selectRows {selected : List Row}
    (hkind : ∀ record ∈ dataset.records, record.kind = dataset.kind)
    (hsize : dataset.records.length ≤ positionLimit)
    (hfits : Fits (scopeOf dataset) query)
    (h : selectRows dataset query.predicate = .ok selected) :
    ∀ row ∈ selected, (scopeOf dataset).Types row := by
  intro row hrow
  obtain ⟨rows, hrows, hshows⟩ :=
    exists_selectRows hkind hsize hfits.conditions
  obtain rfl := Except.ok.inj (h.symm.trans hrows)
  obtain ⟨place, -, hshow⟩ := exists_of_forall₂ hshows.flip hrow
  exact Scope.Shows.types hshow (hkind _ (List.get_mem dataset.records place))

theorem Fits.covers {scope : Scope} (h : Fits scope query)
    {grouping : Grouping} (hgrouping : query.grouping = some grouping)
    {row : Row} (htypes : scope.Types row) : grouping.Covers row :=
  fun key hkey =>
    (htypes _ key (h.keys grouping hgrouping key hkey)).contains

/-- What is gathered has values of the right types in the columns that are
shown. -/
theorem holds_of_gathered {raw : Json} {rows : List Row}
    (hkind : ∀ record ∈ dataset.records, record.kind = dataset.kind)
    (hsize : dataset.records.length ≤ positionLimit)
    (hread : Query.read dataset.id dataset.kind raw = .ok query)
    (h : query.gathered dataset = .ok rows) {row : Row} (hrow : row ∈ rows)
    {column : String} (hcolumn : column ∈ query.options.columns)
    {type : FieldType} (hoffers : query.Offers (scopeOf dataset) column type) :
    row.Holds column type := by
  have hfits : Fits (scopeOf dataset) query := fits_of_read hread
  obtain ⟨selected, hselected, hrows⟩ := bind_eq_ok.mp h
  have htypes := types_of_selectRows hkind hsize hfits hselected
  cases hgrouping : query.grouping with
  | none =>
    rw [hgrouping] at hrows
    obtain rfl := pure_eq_ok.mp hrows
    cases hoffers with
    | field hnames => exact htypes row hrow column _ hnames
    | aggregate hsome => simp [hgrouping] at hsome
  | some grouping =>
    rw [hgrouping] at hrows
    have hseparates := separates_of_read hread hgrouping
    have hcovers : ∀ row ∈ selected, grouping.Covers row :=
      fun row hrow => hfits.covers hgrouping (htypes row hrow)
    obtain ⟨first, hfirst, rest, hmade⟩ :=
      Grouping.exists_bucket hcovers hrows hrow
    have hcover := hcovers first hfirst
    cases hoffers with
    | @field _ ref hnames =>
      -- A column that names a field is a key, since it is not an aggregate.
      rcases List.mem_append.mp
          (hfits.results grouping hgrouping column hcolumn) with
        hcolumnOf | hname
      · obtain ⟨key, hkey, rfl⟩ := List.mem_map.mp hcolumnOf
        exact Grouping.holds_key hseparates hcover hmade hkey
          (htypes first hfirst _ ref hnames)
      · rw [← hnames.column] at hname
        exact absurd hname (hseparates.column_not_mem ref)
    | aggregate hsome haggregate =>
      obtain rfl := Option.some.inj (hgrouping.symm.trans hsome)
      exact Grouping.holds_aggregate hseparates hcover hmade haggregate

/-- What is answered are gathered rows with the shown columns only. -/
theorem exists_of_finish {rows answer : List Row}
    (hsorting : ∀ order, query.options.order = some order →
      ∀ key ∈ order.keys, key ∈ query.options.columns)
    (hcolumns : ∀ row ∈ rows, ∀ column ∈ query.options.columns,
      row.contains column)
    (h : query.finish rows = .ok answer) {shown : Row}
    (hshown : shown ∈ answer) :
    ∃ row ∈ rows, query.options.shown row = shown := by
  by_cases hlarge : maxRows < rows.length
  · rw [finish_of_lt hlarge] at h
    cases h
  · have hsmall := Nat.not_lt.mp hlarge
    rcases Options.orderRows_cases fun order horder row hrow key hkey =>
        hcolumns row hrow key (hsorting order horder key hkey) with
      ⟨sorted, hsorted, hperm⟩ | ⟨hfail, -⟩
    · have hthere : ∀ row ∈ sorted, ∀ column ∈ query.options.columns,
          row.contains column :=
        fun row hrow => hcolumns row (hperm.mem_iff.mp hrow)
      rw [finish_of_le hsmall hsorted hthere] at h
      obtain rfl := Except.ok.inj h
      obtain ⟨row, hrow, rfl⟩ := List.mem_map.mp hshown
      exact ⟨row, hperm.mem_iff.mp hrow, rfl⟩
    · rw [finish_of_error hsmall hfail] at h
      cases h

/-- An accepted query answers with rows that have exactly the shown columns,
each once where it is first listed; columns of fields hold values of the types
of the fields, and aggregates are numbers. If it has transformations then the
rows that these make have exactly the columns that results are said to have: the
keys, each once where it first stands, and then the aggregates. -/
theorem run_columns {raw : Json}
    (hkind : ∀ record ∈ dataset.records, record.kind = dataset.kind)
    (hsize : dataset.records.length ≤ Nat.pow 2 32)
    (hread : Query.read dataset.id dataset.kind raw = .ok query) :
    (∀ answer, query.run dataset = .ok answer → ∀ row ∈ answer,
      row.names = query.options.columns.eraseDups ∧
      ∀ column ∈ query.options.columns,
        (∃ type, query.Offers (scopeOf dataset) column type) ∧
        ∀ type, query.Offers (scopeOf dataset) column type →
          row.Holds column type) ∧
    ∀ grouping selected results, query.grouping = some grouping →
      selectRows dataset query.predicate = .ok selected →
      grouping.apply selected = .ok results → ∀ row ∈ results,
        row.names = (grouping.keys.map FieldRef.column).eraseDups
          ++ grouping.aggregates.map (·.name) ∧
        ∀ column, row.contains column ↔ column ∈ grouping.resultColumns := by
  have hfits : Fits (scopeOf dataset) query := fits_of_read hread
  constructor
  · intro answer hrun shown hshown
    rw [run_eq hfits.dataset] at hrun
    obtain ⟨rows, hrows, hfinish⟩ := bind_eq_ok.mp hrun
    have hholds : ∀ row ∈ rows, ∀ column ∈ query.options.columns, ∀ type,
        query.Offers (scopeOf dataset) column type → row.Holds column type :=
      fun row hrow column hcolumn type =>
        holds_of_gathered hkind hsize hread hrows hrow hcolumn
    have hcolumns : ∀ row ∈ rows, ∀ column ∈ query.options.columns,
        row.contains column := by
      intro row hrow column hcolumn
      obtain ⟨type, hoffers⟩ := hfits.exists_offers hcolumn
      exact (hholds row hrow column hcolumn type hoffers).contains
    obtain ⟨row, hrow, rfl⟩ :=
      exists_of_finish hfits.sorting hcolumns hfinish hshown
    have hthere := hcolumns row hrow
    refine ⟨Options.names_shown hthere, fun column hcolumn =>
      ⟨hfits.exists_offers hcolumn, fun type hoffers => ?_⟩⟩
    obtain ⟨value, hvalue, htype⟩ := hholds row hrow column hcolumn type hoffers
    have hsame := Options.get?_shown hcolumn (hthere column hcolumn)
    exact ⟨value, hsame.trans hvalue, htype⟩
  · intro grouping selected results hgrouping hselected hresults row hrow
    have htypes := types_of_selectRows hkind hsize hfits hselected
    have hcovers : ∀ row ∈ selected, grouping.Covers row :=
      fun row hrow => hfits.covers hgrouping (htypes row hrow)
    obtain ⟨first, hfirst, rest, hmade⟩ :=
      Grouping.exists_bucket hcovers hresults hrow
    have hcover := hcovers first hfirst
    exact ⟨Grouping.names_bucketRow (separates_of_read hread hgrouping) hcover
      hmade, fun column => Grouping.contains_bucketRow hcover hmade⟩

/-- The sections of each department, counted; a key and a column are listed
twice. -/
def perDepartment : CampusQuery.Query where
  dataset := "courses"
  predicate := none
  options := ⟨["n", "courses_dept", "n"], none⟩
  grouping := some
    ⟨[⟨"courses", "dept", .text⟩, ⟨"courses", "dept", .text⟩],
      [⟨"n", .count, ⟨"courses", "uuid", .text⟩⟩]⟩

/-- They are gathered and shown once. -/
theorem run_columns_perDepartment :
    (∃ row, perDepartment.run offered = .ok [row] ∧
      row.names = ["n", "courses_dept"] ∧ row.Holds "n" .numeric ∧
      row.Holds "courses_dept" .text) ∧
    ∃ row, perDepartment.gathered offered = .ok [row] ∧
      row.names = ["courses_dept", "n"] := by
  have hread : Query.read offered.id offered.kind
      (.object
        [("OPTIONS", .object
          [("COLUMNS", .array
            [.string "n", .string "courses_dept", .string "n"])]),
         ("TRANSFORMATIONS", .object
          [("APPLY", .array
            [.object [("n", .object [("COUNT", .string "courses_uuid")])]]),
           ("GROUP", .array
            [.string "courses_dept", .string "courses_dept"])]),
         ("WHERE", .object [])])
      = .ok perDepartment := rfl
  have hrun : perDepartment.run offered = .ok
      [⟨[("n", .number (.ofInt 4)), ("courses_dept", .text "cpsc")]⟩] := by
    decide +kernel
  have hgathered : perDepartment.gathered offered = .ok
      [⟨[("courses_dept", .text "cpsc"), ("n", .number (.ofInt 4))]⟩] := by
    decide +kernel
  obtain ⟨hanswer, hresults⟩ := run_columns (by decide) (by decide) hread
  obtain ⟨hnames, hholds⟩ := hanswer _ hrun _ List.mem_cons_self
  have hnamed : (scopeOf offered).Names "courses_dept"
      ⟨"courses", "dept", .text⟩ := ⟨rfl, by decide, by decide⟩
  have hcounted : perDepartment.Offers (scopeOf offered) "n" .numeric :=
    @Offers.aggregate _ _ _ ⟨"n", .count, ⟨"courses", "uuid", .text⟩⟩ rfl
      List.mem_cons_self
  obtain ⟨selected, hselected, happly⟩ := bind_eq_ok.mp hgathered
  refine ⟨⟨_, hrun, hnames, ?_, ?_⟩, _, hgathered, ?_⟩
  · exact (hholds "n" (by decide)).2 _ hcounted
  · exact (hholds "courses_dept" (by decide)).2 _ (.field hnamed)
  · exact (hresults _ selected _ rfl hselected happly _ List.mem_cons_self).1

end Query

end CampusQuery
