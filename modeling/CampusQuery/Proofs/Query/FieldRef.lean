/-
CampusQuery.Proofs.Query.FieldRef — which keys name a field.

`Scope.Names` says, without any reading of keys, that a key is the column
of a field of the dataset in scope. For a dataset whose id has no
underscore, `field_eq_ok` shows that looking a key up finds exactly the
field that the key names, and `check_of_names` that a field found once
passes every later check.
-/
import Mathlib.Data.List.TakeDrop
import Mathlib.Data.List.TakeWhile
import CampusQuery.Proofs.Outcome
import CampusQuery.Query.Validation

namespace CampusQuery

open Outcome

/-! ## Fields of a kind -/

def Kind.fieldsOf (kind : Kind) : FieldType → List String
  | .text => kind.textFields
  | .numeric => kind.numericFields

/-- No field has two types. -/
theorem Kind.not_mem_textFields {kind : Kind} {field : String}
    (h : field ∈ kind.numericFields) : field ∉ kind.textFields := by
  cases kind <;> revert h <;>
    simp only [numericFields, textFields, List.mem_cons, List.not_mem_nil,
      or_false] <;>
    rintro (rfl | rfl | rfl | rfl | rfl) <;> decide

theorem Kind.fieldType?_eq_some {kind : Kind} {field : String}
    {type : FieldType} :
    kind.fieldType? field = some type ↔ field ∈ kind.fieldsOf type := by
  unfold fieldType?
  by_cases ht : field ∈ kind.textFields
  · rw [if_pos ht]
    cases type with
    | text => simp [fieldsOf, ht]
    | numeric =>
      have : field ∉ kind.numericFields := fun h => not_mem_textFields h ht
      simp [fieldsOf, this]
  · rw [if_neg ht]
    by_cases hn : field ∈ kind.numericFields <;> cases type <;>
      simp [fieldsOf, ht, hn]

/-- No field has an underscore in its name. -/
theorem Kind.underscore_not_mem {kind : Kind} {type : FieldType}
    {field : String} (h : field ∈ kind.fieldsOf type) :
    '_' ∉ field.toList := by
  have all : ∀ name ∈ kind.fieldsOf type, '_' ∉ name.toList := by
    cases kind <;> cases type <;> decide
  exact all field h

/-! ## Keys -/

theorem columnName_eq (dataset field : String) :
    columnName dataset field = dataset ++ "_" ++ field := rfl

theorem toList_columnName (dataset field : String) :
    (columnName dataset field).toList
      = dataset.toList ++ '_' :: field.toList := by
  simp [columnName_eq]

namespace Query

/-- A key is cut in two at its only underscore. -/
theorem splitKey?_eq_some {key dataset field : String} :
    splitKey? key = some (dataset, field) ↔
      '_' ∉ dataset.toList ∧ '_' ∉ field.toList ∧
        key = columnName dataset field := by
  have hcut := List.takeWhile_append_dropWhile
    (p := fun c => c != '_') (l := key.toList)
  unfold splitKey?
  rw [List.span_eq_takeWhile_dropWhile]
  constructor
  · intro h
    cases hrest : key.toList.dropWhile (· != '_') with
    | nil => simp [hrest] at h
    | cons c rest =>
      have hc : c = '_' := by
        have := List.head?_dropWhile_not (· != '_') key.toList
        simpa [hrest] using this
      simp only [hrest] at h
      split at h
      · cases h
      · rename_i hfield
        simp only [Option.some.injEq, Prod.mk.injEq] at h
        obtain ⟨rfl, rfl⟩ := h
        refine ⟨?_, by simpa using hfield, ?_⟩
        · intro hmem
          have := List.mem_takeWhile_imp (by simpa using hmem)
          simp at this
        · rw [← String.toList_inj, toList_columnName]
          simp only [String.toList_ofList]
          rw [hrest, hc] at hcut
          exact hcut.symm
  · rintro ⟨hdataset, hfield, rfl⟩
    have hpre : ∀ c ∈ dataset.toList, (c != '_') = true := by
      intro c hc
      have : c ≠ '_' := fun e => hdataset (e ▸ hc)
      simpa using this
    rw [toList_columnName, List.takeWhile_append_of_pos hpre,
      List.dropWhile_append_of_pos hpre]
    simp [hfield]

namespace Scope

/-- The key is the column of the field, which the dataset in scope has. -/
def Names (scope : Scope) (key : String) (ref : FieldRef) : Prop :=
  ref.dataset = scope.dataset ∧
    ref.field ∈ scope.kind.fieldsOf ref.type ∧ key = ref.column

theorem Names.column {scope : Scope} {key : String} {ref : FieldRef}
    (h : scope.Names key ref) : ref.column = key := h.2.2.symm

/-- A column names the field that it is of. -/
theorem Names.self {scope : Scope} {key : String} {ref : FieldRef}
    (h : scope.Names key ref) : scope.Names ref.column ref :=
  ⟨h.1, h.2.1, rfl⟩

variable {scope : Scope} {key : String} {ref : FieldRef}

/-- Looking a key up finds the field that it names. -/
theorem field_eq_ok (hid : '_' ∉ scope.dataset.toList) :
    scope.field key = .ok ref ↔ scope.Names key ref := by
  unfold field FieldRef.parse Names FieldRef.column
  constructor
  · intro h
    split at h
    · exact absurd h refuse_ne_ok
    · rename_i dataset name hsplit
      obtain ⟨-, -, rfl⟩ := splitKey?_eq_some.mp hsplit
      split at h
      · exact absurd h refuse_ne_ok
      · rename_i hbound
        have hdataset : dataset = scope.dataset := by simpa using hbound
        split at h
        · exact absurd h refuse_ne_ok
        · rename_i type htype
          cases h
          exact ⟨hdataset, Kind.fieldType?_eq_some.mp htype, rfl⟩
  · obtain ⟨dataset, field, type⟩ := ref
    rintro ⟨hdataset, hfield, rfl⟩
    simp only at hdataset hfield
    subst hdataset
    have hsplit : splitKey? (columnName scope.dataset field)
        = some (scope.dataset, field) :=
      splitKey?_eq_some.mpr ⟨hid, Kind.underscore_not_mem hfield, rfl⟩
    simp only [hsplit, ne_eq, not_true_eq_false, if_false,
      Kind.fieldType?_eq_some.mpr hfield]

theorem parseText_eq_ok (hid : '_' ∉ scope.dataset.toList) :
    FieldRef.parseText key scope.dataset scope.kind = .ok ref ↔
      scope.Names key ref ∧ ref.type = .text := by
  unfold FieldRef.parseText
  rw [bind_eq_ok]
  constructor
  · rintro ⟨found, hfound, h⟩
    by_cases htype : found.type = .text
    · rw [if_pos htype, pure_eq_ok] at h
      subst h
      exact ⟨(field_eq_ok hid).mp hfound, htype⟩
    · rw [if_neg htype] at h
      exact absurd h refuse_ne_ok
  · rintro ⟨hnames, htype⟩
    exact ⟨ref, (field_eq_ok hid).mpr hnames, by rw [if_pos htype]; rfl⟩

theorem parseNumeric_eq_ok (hid : '_' ∉ scope.dataset.toList) :
    FieldRef.parseNumeric key scope.dataset scope.kind = .ok ref ↔
      scope.Names key ref ∧ ref.type = .numeric := by
  unfold FieldRef.parseNumeric
  rw [bind_eq_ok]
  constructor
  · rintro ⟨found, hfound, h⟩
    by_cases htype : found.type = .numeric
    · rw [if_pos htype, pure_eq_ok] at h
      subst h
      exact ⟨(field_eq_ok hid).mp hfound, htype⟩
    · rw [if_neg htype] at h
      exact absurd h refuse_ne_ok
  · rintro ⟨hnames, htype⟩
    exact ⟨ref, (field_eq_ok hid).mpr hnames, by rw [if_pos htype]; rfl⟩

/-- A field that was found is found again. -/
theorem check_of_names (hid : '_' ∉ scope.dataset.toList)
    (h : scope.Names key ref) :
    ref.check scope.dataset scope.kind = .ok () := by
  have hagain := (field_eq_ok hid).mpr h.self
  unfold field at hagain
  unfold FieldRef.check
  rw [bind_eq_ok]
  exact ⟨ref, hagain, by rw [if_pos rfl]; rfl⟩

end Scope

end Query

end CampusQuery
