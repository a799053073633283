/-
CampusQuery.Query.FieldRef — references to the fields of a dataset.

A query names a field as `dataset_field`. `FieldRef.parse` accepts a key
only if it has exactly one underscore, its first part is the dataset the
query is bound to and its second part is a field of that dataset's kind.
-/
import CampusQuery.Error.Basic
import CampusQuery.Record.Basic

namespace CampusQuery.Query

/-- A field of a dataset, with the type that it had when it was looked up. -/
structure FieldRef where
  dataset : String
  field : String
  type : FieldType
deriving DecidableEq

/-- The text before the first underscore, if there is one. -/
def datasetPart? (key : String) : Option String :=
  match key.toList.span (· != '_') with
  | (dataset, _ :: _) => some (String.ofList dataset)
  | (_, []) => none

def splitKey? (key : String) : Option (String × String) :=
  match key.toList.span (· != '_') with
  | (dataset, _ :: field) =>
    if field.contains '_' then none
    else some (String.ofList dataset, String.ofList field)
  | (_, []) => none

namespace FieldRef

/-- Looks a key up in the dataset `bound` of the given kind. -/
def parse (key bound : String) (kind : Kind) : Outcome FieldRef :=
  match splitKey? key with
  | none => refuse (.field (.malformed key))
  | some (dataset, field) =>
    if dataset ≠ bound then refuse (.field (.foreign key dataset bound))
    else match kind.fieldType? field with
      | none => refuse (.field (.unknown key kind))
      | some type => .ok ⟨dataset, field, type⟩

def parseText (key bound : String) (kind : Kind) : Outcome FieldRef := do
  let ref ← parse key bound kind
  if ref.type = .text then return ref else refuse (.field (.notText key))

def parseNumeric (key bound : String) (kind : Kind) : Outcome FieldRef := do
  let ref ← parse key bound kind
  if ref.type = .numeric then return ref
  else refuse (.field (.notNumeric key))

def column (ref : FieldRef) : String := columnName ref.dataset ref.field

/-- Checks that the field is still there and of the same type. -/
def check (ref : FieldRef) (bound : String) (kind : Kind) :
    Outcome Unit := do
  let again ← parse ref.column bound kind
  if again.type = ref.type then return ()
  else refuse (.field (.retyped ref.column))

end FieldRef

end CampusQuery.Query
