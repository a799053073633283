/-
CampusQuery.Proofs.Query.Naming — the columns of rows and the keys of queries.

The row of a record shows the fields of the record under the names of their
columns and nothing else (`get?_toRow_iff`), each name once
(`nodup_names_toRow`). In a dataset whose id has no underscore these names are
the keys that can be looked up (`mem_names_toRow_iff`): a key that is found is
the column of its field, and the row has the value there that conditions on
the field test. In any other dataset no key is found.
-/
import CampusQuery.Proofs.Query.Acceptance
import CampusQuery.Proofs.Query.Grouping

namespace CampusQuery

open Outcome

theorem Value.type_eq_text_iff {value : Value} :
    value.type = .text ↔ ∃ text, value = .text text := by
  cases value <;> simp [type]

namespace Record

variable {record : Record} {dataset key : String} {value : Value} {row : Row}

/-- A row has the fields of the record as columns, and no others. -/
theorem get?_toRow_iff (h : record.toRow dataset = .ok row) :
    row.get? key = some value ↔
      ∃ name, key = columnName dataset name ∧ record.field name = .ok value := by
  constructor
  · exact isColumn_of_get?_toRow h
  · rintro ⟨name, rfl, hvalue⟩
    obtain ⟨shown, hrow, hfields⟩ := record.exists_toRow dataset
    obtain rfl := Except.ok.inj (hrow.symm.trans h)
    obtain ⟨type, htype⟩ :=
      Option.ne_none_iff_exists'.mp (exists_field_iff.mp ⟨value, hvalue⟩)
    obtain ⟨other, hother, hget⟩ :=
      hfields type name (Kind.fieldType?_eq_some.mp htype)
    obtain rfl := Except.ok.inj (hother.symm.trans hvalue)
    exact hget

/-- No column of a row stands in it twice. -/
theorem nodup_names_toRow (h : record.toRow dataset = .ok row) :
    row.names.Nodup := by
  obtain ⟨columns, hrow, -⟩ := record.exists_toRow_columns dataset
  obtain rfl := Except.ok.inj (hrow.symm.trans h)
  rw [Row.names_ofColumns]
  exact Query.Grouping.nodup_eraseDups _

end Record

namespace Query

variable {scope : Scope} {record : Record} {key : String} {ref : FieldRef}
  {row : Row}

/-- Of a key that is found the row of a record has the value of the field. -/
theorem Scope.exists_shown (h : scope.field key = .ok ref)
    (hkind : record.kind = scope.kind)
    (hrow : record.toRow scope.dataset = .ok row) :
    ∃ value, row.get? key = some value ∧ record.field ref.field = .ok value ∧
      value.type = ref.type := by
  obtain ⟨hdataset, hfield, hkey⟩ :=
    (Scope.field_eq_ok (Scope.underscore_not_mem_of_field h)).mp h
  obtain ⟨value, hvalue, htype⟩ := record.exists_field (hkind ▸ hfield)
  refine ⟨value, (Record.get?_toRow_iff hrow).mpr ⟨ref.field, ?_, hvalue⟩,
    hvalue, htype⟩
  rw [hkey, FieldRef.column, hdataset]

/-- The columns of a row are the keys that are found. -/
theorem mem_names_toRow_iff (hid : '_' ∉ scope.dataset.toList)
    (hkind : record.kind = scope.kind)
    (hrow : record.toRow scope.dataset = .ok row) :
    key ∈ row.names ↔ ∃ ref, scope.field key = .ok ref := by
  rw [← Row.contains_iff, Row.contains, Option.isSome_iff_exists]
  constructor
  · rintro ⟨value, hget⟩
    obtain ⟨name, rfl, hvalue⟩ := (Record.get?_toRow_iff hrow).mp hget
    obtain ⟨type, htype⟩ := Option.ne_none_iff_exists'.mp
      (Record.exists_field_iff.mp ⟨value, hvalue⟩)
    have hfield := Kind.fieldType?_eq_some.mp htype
    exact ⟨⟨scope.dataset, name, type⟩,
      (Scope.field_eq_ok hid).mpr ⟨rfl, hkind ▸ hfield, rfl⟩⟩
  · rintro ⟨ref, href⟩
    obtain ⟨value, hget, -⟩ := Scope.exists_shown href hkind hrow
    exact ⟨value, hget⟩

/-- The row of a record and the look-up of keys agree. In a dataset whose id has
no underscore the row of any record has each of its columns once, and these are
exactly the keys that are found. Each of them is the column of the field it
names, and the value that stands there is the one that the record has in this
field, of the type that was found, and the one that conditions on the field
test. In a dataset whose id has an underscore no key is found. -/
theorem toRow_agrees_parse (record : Record) (dataset : String) :
    ('_' ∉ dataset.toList → ∃ row, record.toRow dataset = .ok row ∧
      row.names.Nodup ∧
      (∀ key, key ∈ row.names ↔
        ∃ ref, FieldRef.parse key dataset record.kind = .ok ref) ∧
      ∀ key ref, FieldRef.parse key dataset record.kind = .ok ref →
        ref.column = key ∧ ∃ value, row.get? key = some value ∧
          record.field ref.field = .ok value ∧
          (ref.type = .text ↔ ∃ text, value = .text text) ∧
          (∀ op bound, (Predicate.compare op ref bound).holds record
            = .ok (op.holds value.toNumber bound)) ∧
          ∀ pattern, (Predicate.accepts ref pattern).holds record
            = .ok (pattern.accepts value.display)) ∧
    ('_' ∈ dataset.toList → ∀ kind key ref,
      FieldRef.parse key dataset kind ≠ .ok ref) := by
  constructor
  · intro hid
    obtain ⟨row, hrow, -⟩ := record.exists_toRow dataset
    let scope : Scope := ⟨dataset, record.kind⟩
    have hkeys : ∀ key, key ∈ row.names ↔ ∃ ref, scope.field key = .ok ref :=
      fun _ => mem_names_toRow_iff hid rfl hrow
    refine ⟨row, hrow, Record.nodup_names_toRow hrow, hkeys, ?_⟩
    intro key ref href
    have hfound : scope.field key = .ok ref := href
    have hnames : scope.Names key ref := (Scope.field_eq_ok hid).mp hfound
    obtain ⟨value, hget, hvalue, htype⟩ := Scope.exists_shown hfound rfl hrow
    refine ⟨hnames.column, value, hget, hvalue, ?_, fun op bound => ?_,
      fun pattern => ?_⟩
    · rw [← htype, Value.type_eq_text_iff]
    · rw [Predicate.holds, hvalue]
      rfl
    · rw [Predicate.holds, hvalue]
      rfl
  · intro hid kind key ref href
    have hfound : (Scope.mk dataset kind).field key = .ok ref := href
    exact Scope.underscore_not_mem_of_field hfound hid

/-- The row of a room shows the derived name of the room, and no key is found
in a dataset whose id has an underscore. -/
theorem toRow_agrees_parse_hall :
    let hall : Record := .ofRoom (.named "Hall" "HALL" "1" "1 Main Mall"
      (.ofInt 49) (.ofInt (-123)) (.ofInt 150) "Tiered" "Fixed" "hall.htm")
    '_' ∉ "campus".toList ∧
    FieldRef.parse "campus_name" "campus" .rooms
      = .ok ⟨"campus", "name", .text⟩ ∧
    (∃ row, hall.toRow "campus" = .ok row ∧ row.names.Nodup ∧
      "campus_name" ∈ row.names ∧
      row.get? "campus_name" = some (.text "HALL_1")) ∧
    '_' ∈ "old_campus".toList ∧
    ∀ kind key ref, FieldRef.parse key "old_campus" kind ≠ .ok ref := by
  intro hall
  have hid : '_' ∉ "campus".toList := by decide
  have hold : '_' ∈ "old_campus".toList := by decide
  have hparse : FieldRef.parse "campus_name" "campus" hall.kind
      = .ok ⟨"campus", "name", .text⟩ := rfl
  obtain ⟨row, hrow, hnodup, hnames, hvalues⟩ :=
    (toRow_agrees_parse hall "campus").1 hid
  obtain ⟨-, value, hget, hvalue, -⟩ := hvalues _ _ hparse
  have hname : hall.field "name" = .ok (.text "HALL_1") := rfl
  obtain rfl := Except.ok.inj (hvalue.symm.trans hname)
  exact ⟨hid, hparse, ⟨row, hrow, hnodup, (hnames _).mpr ⟨_, hparse⟩, hget⟩,
    hold, (toRow_agrees_parse hall "old_campus").2 hold⟩

end Query

end CampusQuery
