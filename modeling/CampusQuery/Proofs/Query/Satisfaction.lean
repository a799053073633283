/-
CampusQuery.Proofs.Query.Satisfaction — which records meet a condition.

`isMetBy` reads a condition as the truth value that it has of a record, and
`fields` lists the fields of its comparisons and patterns from left to right.
Evaluating a condition looks all of these up and then gives the truth value
(`holds_eq`). So it fails at the first field that the record does not have, and
nothing else decides whether it does (`holds_reports_leftmost`).
-/
import CampusQuery.Proofs.Record.Row
import CampusQuery.Query.Predicate

namespace CampusQuery.Query.Predicate

open Outcome

/-! ## Fields of a condition -/

mutual

def fields : Predicate → List FieldRef
  | compare _ field _ | accepts field _ => [field]
  | all parts | any parts => fieldsOfEach parts
  | negation part => fields part

def fieldsOfEach : List Predicate → List FieldRef
  | [] => []
  | part :: rest => fields part ++ fieldsOfEach rest

end

theorem mem_fieldsOfEach {parts : List Predicate} {ref : FieldRef} :
    ref ∈ fieldsOfEach parts ↔ ∃ part ∈ parts, ref ∈ part.fields := by
  induction parts with
  | nil => simp [fieldsOfEach]
  | cons part rest ih => simp [fieldsOfEach, ih]

theorem fieldsOfEach_map_negation {parts : List Predicate} :
    fieldsOfEach (parts.map negation) = fieldsOfEach parts := by
  induction parts with
  | nil => rfl
  | cons part rest ih => simp [fieldsOfEach, fields, ih]

/-! ## Truth -/

mutual

def isMetBy : Predicate → Record → Bool
  | compare op field bound, record =>
    (record.fields.lookup field.field).any fun value =>
      op.holds value.toNumber bound
  | accepts field pattern, record =>
    (record.fields.lookup field.field).any fun value =>
      pattern.accepts value.display
  | all parts, record => areMetBy parts record
  | any parts, record => isOneMetBy parts record
  | negation part, record => !isMetBy part record

def areMetBy : List Predicate → Record → Bool
  | [], _ => true
  | part :: rest, record => isMetBy part record && areMetBy rest record

def isOneMetBy : List Predicate → Record → Bool
  | [], _ => false
  | part :: rest, record => isMetBy part record || isOneMetBy rest record

end

theorem areMetBy_eq (parts : List Predicate) (record : Record) :
    areMetBy parts record = parts.all (·.isMetBy record) := by
  induction parts with
  | nil => simp [areMetBy]
  | cons part rest ih => simp [areMetBy, ih]

theorem isOneMetBy_eq (parts : List Predicate) (record : Record) :
    isOneMetBy parts record = parts.any (·.isMetBy record) := by
  induction parts with
  | nil => simp [isOneMetBy]
  | cons part rest ih => simp [isOneMetBy, ih]

/-! ## Evaluation -/

/-- The values that a record has in some fields, looked up from left to
right. -/
def lookUp (record : Record) (refs : List FieldRef) : Outcome (List Value) :=
  refs.mapM fun ref => record.field ref.field

theorem lookUp_append (record : Record) (refs others : List FieldRef) :
    lookUp record (refs ++ others) = do
      let values ← lookUp record refs
      return values ++ (← lookUp record others) :=
  List.mapM_append

/-- A field is looked up for a comparison or a pattern. -/
theorem lookUp_singleton (record : Record) (ref : FieldRef) :
    lookUp record [ref] = do return [← record.field ref.field] := by
  simp [lookUp]

mutual

/-- Evaluating a condition looks up all its fields from left to right, whatever
comes out of them, and then gives its truth value. -/
theorem holds_eq (record : Record) : ∀ predicate : Predicate,
    predicate.holds record = do
      let _ ← lookUp record predicate.fields
      return predicate.isMetBy record
  | compare op field bound => by
    rw [holds, fields, isMetBy, lookUp_singleton]
    cases hvalue : record.field field.field with
    | error e => rfl
    | ok value => simp [Record.field_eq_ok.mp hvalue]
  | accepts field pattern => by
    rw [holds, fields, isMetBy, lookUp_singleton]
    cases hvalue : record.field field.field with
    | error e => rfl
    | ok value => simp [Record.field_eq_ok.mp hvalue]
  | all parts => by
    rw [holds, fields, isMetBy, holdsEach_eq record parts, areMetBy_eq]
    cases lookUp record (fieldsOfEach parts) with
    | error e => rfl
    | ok values => simp [List.all_map]
  | any parts => by
    rw [holds, fields, isMetBy, holdsEach_eq record parts, isOneMetBy_eq]
    cases lookUp record (fieldsOfEach parts) with
    | error e => rfl
    | ok values => simp [List.any_map]
  | negation part => by
    rw [holds, fields, isMetBy, holds_eq record part]
    cases lookUp record part.fields <;> rfl

theorem holdsEach_eq (record : Record) : ∀ parts : List Predicate,
    holdsEach parts record = do
      let _ ← lookUp record (fieldsOfEach parts)
      return parts.map (·.isMetBy record)
  | [] => rfl
  | part :: rest => by
    rw [holdsEach, fieldsOfEach, holds_eq record part, holdsEach_eq record rest,
      lookUp_append]
    cases lookUp record part.fields with
    | error e => rfl
    | ok values => cases lookUp record (fieldsOfEach rest) <;> rfl

end

variable {predicate : Predicate} {record : Record}

/-- A condition has a truth value for a record if the record has all its
fields. -/
theorem holds_eq_ok {truth : Bool} :
    predicate.holds record = .ok truth ↔
      (∀ ref ∈ predicate.fields, ∃ value, record.field ref.field = .ok value) ∧
        predicate.isMetBy record = truth := by
  rw [holds_eq, bind_eq_ok]
  simp only [pure_eq_ok, lookUp, mapM_eq_ok]
  constructor
  · rintro ⟨values, hvalues, htruth⟩
    refine ⟨fun ref href => ?_, htruth⟩
    obtain ⟨value, -, hvalue⟩ := exists_of_forall₂ hvalues href
    exact ⟨value, hvalue⟩
  · rintro ⟨hfields, htruth⟩
    obtain ⟨values, hvalues⟩ := exists_forall₂ hfields
    exact ⟨values, hvalues, htruth⟩

/-- Otherwise the first field is reported that the record does not have. -/
theorem holds_eq_error {e : Error} :
    predicate.holds record = .error e ↔
      ∃ before ref after, predicate.fields = before ++ ref :: after ∧
        (∀ earlier ∈ before, ∃ value,
          record.field earlier.field = .ok value) ∧
        record.field ref.field = .error e := by
  rw [holds_eq, bind_eq_error, lookUp, mapM_eq_error]
  simp [pure, Except.pure]

/-- Evaluating a condition fails if and only if the kind of the record lacks the
field of some comparison or pattern in it, and then it reports the leftmost of
these fields. Nothing is passed over because other parts have settled the answer
already. On any other record it gives the truth value. -/
theorem holds_reports_leftmost (predicate : Predicate) (record : Record) :
    ((∃ e, predicate.holds record = .error e) ↔
      ∃ ref ∈ predicate.fields, record.kind.fieldType? ref.field = none) ∧
    predicate.holds record =
      match predicate.fields.find? fun ref =>
        (record.kind.fieldType? ref.field).isNone with
      | some ref => refuse (.field (.unknown ref.field record.kind))
      | none => .ok (predicate.isMetBy record) := by
  constructor
  · constructor
    · rintro ⟨e, he⟩
      obtain ⟨before, ref, after, hsplit, -, href⟩ := holds_eq_error.mp he
      exact ⟨ref, by simp [hsplit], (Record.field_eq_error.mp href).1⟩
    · rintro ⟨ref, href, hmissing⟩
      cases h : predicate.holds record with
      | error e => exact ⟨e, rfl⟩
      | ok truth =>
        have hfound := (holds_eq_ok.mp h).1 ref href
        exact absurd hmissing (Record.exists_field_iff.mp hfound)
  · cases hfind : predicate.fields.find? fun ref =>
        (record.kind.fieldType? ref.field).isNone with
    | some ref =>
      obtain ⟨hmissing, before, after, hsplit, hbefore⟩ :=
        List.find?_eq_some_iff_append.mp hfind
      refine holds_eq_error.mpr ⟨before, ref, after, hsplit, ?_, ?_⟩
      · intro earlier hearlier
        have hfound := hbefore earlier hearlier
        exact Record.exists_field_iff.mpr
          (Option.isSome_iff_ne_none.mp (by simpa using hfound))
      · exact Record.field_eq_error.mpr ⟨by simpa using hmissing, rfl⟩
    | none =>
      refine holds_eq_ok.mpr ⟨fun ref href => ?_, rfl⟩
      have hfound := List.find?_eq_none.mp hfind ref href
      exact Record.exists_field_iff.mpr (by simpa using hfound)

/-- A conjunction with a part that is false of everything reports a field of
rooms behind that part when it is asked about a section. -/
example (pattern : Pattern) (value : Section) :
    (all [any [], accepts ⟨"campus", "furniture", .text⟩ pattern]).holds
      (.ofSection value)
      = refuse (.field (.unknown "furniture" .sections)) := rfl

end CampusQuery.Query.Predicate
