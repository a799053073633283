/-
CampusQuery.Proofs.Record.Row — the row of a record.

A record has a value of the right type for every field of its kind
(`exists_field`), and no other fields (`kind_of_field`); any other name is
reported (`field_eq_error`). Its row has a column for each of these fields,
which holds the value as it is (`exists_toRow`): columns of different fields
have different names, so none of them takes the place of another. Other columns
it has none (`isColumn_of_get?_toRow`).
-/
import CampusQuery.Proofs.Query.FieldRef
import CampusQuery.Proofs.Record.Json
import CampusQuery.Proofs.Row

namespace CampusQuery

open Outcome

/-- Fields of one dataset have columns of different names. -/
theorem columnName_inj {dataset field other : String} :
    columnName dataset field = columnName dataset other ↔ field = other := by
  simp [columnName_eq]

namespace Record

variable {record : Record} {name : String} {value : Value}

theorem field_eq_ok :
    record.field name = .ok value ↔
      record.fields.lookup name = some value := by
  unfold field
  cases record.fields.lookup name <;> simp

/-- A record has a value for every field of its kind. -/
theorem exists_field (record : Record) {type : FieldType} {name : String}
    (h : name ∈ record.kind.fieldsOf type) :
    ∃ value, record.field name = .ok value ∧ value.type = type := by
  have hall : ∀ name ∈ record.kind.fieldsOf type,
      (record.fields.lookup name).map Value.type = some type := by
    cases record <;> cases type <;>
      simp [kind, Kind.fieldsOf, Kind.textFields, Kind.numericFields, fields,
        Section.fields, Room.fields, List.lookup_cons, Value.type]
  obtain ⟨value, hvalue, htype⟩ := Option.map_eq_some_iff.mp (hall name h)
  exact ⟨value, field_eq_ok.mpr hvalue, htype⟩

/-- The name of a field tells the kind of the record and the type of the
value. -/
theorem kind_of_field {kind : Kind} {type : FieldType}
    (h : record.field name = .ok value) (hname : name ∈ kind.fieldsOf type) :
    record.kind = kind ∧ value.type = type := by
  have hall : ∀ entry ∈ record.kind.layout,
      entry.1 ∈ kind.fieldsOf type → record.kind = kind ∧ entry.2 = type := by
    generalize record.kind = found
    cases found <;> cases kind <;> cases type <;> decide
  have hfield := Json.mem_of_lookup (field_eq_ok.mp h)
  have hlayout := Json.mem_of_lookup (record.layout_lookup hfield)
  exact hall (name, value.type) hlayout hname

/-- A record has the fields of its kind and no others. -/
theorem exists_field_iff :
    (∃ value, record.field name = .ok value) ↔
      record.kind.fieldType? name ≠ none := by
  constructor
  · rintro ⟨value, hvalue⟩
    have hall : ∀ entry ∈ record.kind.layout,
        record.kind.fieldType? entry.1 = some entry.2 := by
      generalize record.kind = kind
      cases kind <;> decide
    have hfield := Json.mem_of_lookup (field_eq_ok.mp hvalue)
    have hlayout := Json.mem_of_lookup (record.layout_lookup hfield)
    rw [hall (name, value.type) hlayout]
    exact Option.some_ne_none _
  · intro h
    obtain ⟨type, htype⟩ := Option.ne_none_iff_exists'.mp h
    obtain ⟨value, hvalue, -⟩ :=
      record.exists_field (Kind.fieldType?_eq_some.mp htype)
    exact ⟨value, hvalue⟩

/-- Any other name is reported as unknown. -/
theorem field_eq_error {e : Error} :
    record.field name = .error e ↔ record.kind.fieldType? name = none ∧
      e = .invalid (.field (.unknown name record.kind)) := by
  have hiff := @exists_field_iff record name
  unfold field at hiff ⊢
  cases hlookup : record.fields.lookup name with
  | some value =>
    have hfound : record.kind.fieldType? name ≠ none :=
      hiff.mp ⟨value, by rw [hlookup]⟩
    simp [hfound]
  | none =>
    have hmissing : record.kind.fieldType? name = none := by
      by_contra hfound
      obtain ⟨value, hvalue⟩ := hiff.mpr hfound
      rw [hlookup] at hvalue
      exact refuse_ne_ok hvalue
    simp [hmissing, refuse, eq_comm]

/-! ## Columns -/

/-- The entry is the column of a field. -/
def IsColumn (record : Record) (dataset : String) (entry : String × Value) :
    Prop :=
  ∃ name, entry.1 = columnName dataset name ∧ record.field name = .ok entry.2

/-- The fields of a type become columns with their values, if these are read as
they are. -/
theorem exists_columns (record : Record) (dataset : String) {type : FieldType}
    {read : Value → Value}
    (hread : ∀ value, value.type = type → read value = value) :
    ∃ columns,
      (record.kind.fieldsOf type).mapM (record.column dataset read)
        = .ok columns ∧
      (∀ entry ∈ columns, record.IsColumn dataset entry) ∧
      ∀ name ∈ record.kind.fieldsOf type, ∃ value,
        record.field name = .ok value ∧
          (columnName dataset name, value) ∈ columns := by
  have hcolumn : ∀ name ∈ record.kind.fieldsOf type, ∃ entry,
      record.column dataset read name = .ok entry ∧
        entry.1 = columnName dataset name ∧ record.field name = .ok entry.2 := by
    intro name hname
    obtain ⟨value, hvalue, htype⟩ := record.exists_field hname
    exact ⟨(columnName dataset name, value),
      by simp [column, hvalue, hread value htype], rfl, hvalue⟩
  obtain ⟨columns, hcolumns⟩ := exists_forall₂ hcolumn
  refine ⟨columns, mapM_eq_ok.mpr (hcolumns.imp fun _ _ h => h.1), ?_, ?_⟩
  · intro entry hentry
    obtain ⟨name, -, -, hname, hvalue⟩ := exists_of_forall₂ hcolumns.flip hentry
    exact ⟨name, hname, hvalue⟩
  · intro name hname
    obtain ⟨entry, hentry, -, hcolumn, hvalue⟩ := exists_of_forall₂ hcolumns hname
    exact ⟨entry.2, hvalue, hcolumn ▸ hentry⟩

/-- The row of a record is made of columns of its fields, of which there is one
for every field of its kind. -/
theorem exists_toRow_columns (record : Record) (dataset : String) :
    ∃ columns, record.toRow dataset = .ok (.ofColumns columns) ∧
      (∀ entry ∈ columns, record.IsColumn dataset entry) ∧
      ∀ type, ∀ name ∈ record.kind.fieldsOf type, ∃ value,
        record.field name = .ok value ∧
          (columnName dataset name, value) ∈ columns := by
  obtain ⟨texts, htexts, hisText, htextOf⟩ :=
    @exists_columns record dataset .text (fun value => .text value.display)
      (fun value h => by cases value <;> simp_all [Value.type, Value.display])
  obtain ⟨numbers, hnumbers, hisNumber, hnumberOf⟩ :=
    @exists_columns record dataset .numeric (fun value => .number value.toNumber)
      (fun value h => by cases value <;> simp_all [Value.type, Value.toNumber])
  simp only [Kind.fieldsOf] at htexts hnumbers
  have hrow : record.toRow dataset = .ok (.ofColumns (texts ++ numbers)) :=
    bind_eq_ok.mpr ⟨texts, htexts, bind_eq_ok.mpr ⟨numbers, hnumbers, rfl⟩⟩
  refine ⟨_, hrow, fun entry hentry => ?_, fun type name hname => ?_⟩
  · rcases List.mem_append.mp hentry with htext | hnumber
    · exact hisText entry htext
    · exact hisNumber entry hnumber
  · cases type with
    | text =>
      obtain ⟨value, hvalue, hmem⟩ := htextOf name hname
      exact ⟨value, hvalue, List.mem_append_left _ hmem⟩
    | numeric =>
      obtain ⟨value, hvalue, hmem⟩ := hnumberOf name hname
      exact ⟨value, hvalue, List.mem_append_right _ hmem⟩

/-- A record becomes a row that has the value of every field of its kind. -/
theorem exists_toRow (record : Record) (dataset : String) :
    ∃ row, record.toRow dataset = .ok row ∧
      ∀ type, ∀ name ∈ record.kind.fieldsOf type, ∃ value,
        record.field name = .ok value ∧
          row.get? (columnName dataset name) = some value := by
  obtain ⟨columns, hrow, hcolumns, hthere⟩ :=
    record.exists_toRow_columns dataset
  refine ⟨_, hrow, fun type name hname => ?_⟩
  obtain ⟨value, hvalue, hmem⟩ := hthere type name hname
  refine ⟨value, hvalue, Row.get?_ofColumns hmem fun other hother => ?_⟩
  obtain ⟨same, hsame, hfield⟩ := hcolumns _ hother
  obtain rfl := columnName_inj.mp hsame
  exact Except.ok.inj (hfield.symm.trans hvalue)

/-- What stands in a column of the row is a field of the record. -/
theorem isColumn_of_get?_toRow {dataset column : String} {row : Row}
    (h : record.toRow dataset = .ok row) (hget : row.get? column = some value) :
    record.IsColumn dataset (column, value) := by
  obtain ⟨columns, hrow, hcolumns, -⟩ := record.exists_toRow_columns dataset
  obtain rfl := Except.ok.inj (hrow.symm.trans h)
  exact hcolumns _ (Row.mem_of_get?_ofColumns hget)

end Record

namespace Query

/-- The row has the value of the record for every key that names a field. -/
def Scope.Shows (scope : Scope) (record : Record) (row : Row) : Prop :=
  ∀ key ref, scope.Names key ref →
    ∃ value, record.field ref.field = .ok value ∧ row.get? key = some value

/-- A record of the right kind becomes a row that shows it. -/
theorem Scope.exists_toRow (scope : Scope) {record : Record}
    (hkind : record.kind = scope.kind) :
    ∃ row, record.toRow scope.dataset = .ok row ∧ scope.Shows record row := by
  obtain ⟨row, hrow, hvalues⟩ := record.exists_toRow scope.dataset
  refine ⟨row, hrow, fun key ref hnames => ?_⟩
  obtain ⟨hdataset, hfield, rfl⟩ := hnames
  obtain ⟨value, hvalue, hget⟩ := hvalues ref.type ref.field (hkind ▸ hfield)
  refine ⟨value, hvalue, ?_⟩
  rw [FieldRef.column, hdataset]
  exact hget

end Query

end CampusQuery
