/-
CampusQuery.Query.Predicate — conditions on records.

A predicate compares a numeric field with a number, matches a text field
against a pattern, or combines other predicates. Every part is evaluated,
whatever the others say, so a field that a record does not have is reported
wherever it stands.
-/
import CampusQuery.Query.FieldRef
import CampusQuery.Query.Pattern

namespace CampusQuery.Query

open Numeric

inductive Predicate
  | compare (op : Comparison) (field : FieldRef) (bound : Binary64)
  | accepts (field : FieldRef) (pattern : Pattern)
  | all (parts : List Predicate)
  | any (parts : List Predicate)
  | negation (part : Predicate)

namespace Predicate

/-! ## Evaluation -/

mutual

def holds : Predicate → Record → Outcome Bool
  | compare op field bound, record => do
    let value ← record.field field.field
    return op.holds value.toNumber bound
  | accepts field pattern, record => do
    let value ← record.field field.field
    return pattern.accepts value.display
  | all parts, record => do return (← holdsEach parts record).all id
  | any parts, record => do return (← holdsEach parts record).any id
  | negation part, record => do return !(← holds part record)

def holdsEach : List Predicate → Record → Outcome (List Bool)
  | [], _ => return []
  | part :: rest, record => do
    let first ← holds part record
    return first :: (← holdsEach rest record)

end

/-! ## Checking -/

def checkField (field : FieldRef) (needed : FieldType)
    (fault : String → FieldFault) (dataset : String) (kind : Kind) :
    Outcome Unit := do
  field.check dataset kind
  if field.type = needed then return ()
  else refuse (.field (fault field.column))

mutual

/-- Checks every field of a condition, and that AND and OR have parts. -/
def check : Predicate → String → Kind → Outcome Unit
  | compare _ field _, dataset, kind =>
    checkField field .numeric .notNumeric dataset kind
  | accepts field _, dataset, kind =>
    checkField field .text .notText dataset kind
  | all parts, dataset, kind | any parts, dataset, kind =>
    if parts.isEmpty then refuse (.clause .emptyLogic)
    else checkEach parts dataset kind
  | negation part, dataset, kind => check part dataset kind

def checkEach : List Predicate → String → Kind → Outcome Unit
  | [], _, _ => return ()
  | part :: rest, dataset, kind => do
    check part dataset kind
    checkEach rest dataset kind

end

end Predicate

end CampusQuery.Query
