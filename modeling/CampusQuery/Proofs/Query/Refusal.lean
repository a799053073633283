/-
CampusQuery.Proofs.Query.Refusal — what is no query is refused.

Reading a query fails by a refusal and by nothing else, whatever the JSON
is. Every function that takes part in the reading has a lemma of its own
here, so that those of its callers need not look into it.
-/
import CampusQuery.Proofs.Outcome
import CampusQuery.Query.Validation

namespace CampusQuery.Query

open Outcome

/-! ## Shapes -/

@[simp] theorem onlyRefuses_malformed {α : Type} (fault : QueryFault) :
    OnlyRefuses (malformed fault : Outcome α) := onlyRefuses_refuse _

@[simp] theorem onlyRefuses_required {α : Type} (fault : QueryFault)
    (found : Option α) : OnlyRefuses (required fault found) := by
  cases found <;> simp [required]

@[simp] theorem onlyRefuses_readMembers (part : QueryPart) (value : Json) :
    OnlyRefuses (readMembers part value) := onlyRefuses_required _ _

@[simp] theorem onlyRefuses_onlyMember (part : QueryPart)
    (members : List (String × Json)) :
    OnlyRefuses (onlyMember part members) := by
  unfold onlyMember
  split <;> simp

@[simp] theorem onlyRefuses_readEntry (part : QueryPart) (value : Json) :
    OnlyRefuses (readEntry part value) := by
  simp [readEntry]

@[simp] theorem onlyRefuses_readTexts (part : QueryPart) (value : Json) :
    OnlyRefuses (readTexts part value) := by
  rw [readTexts, onlyRefuses_bind]
  refine ⟨onlyRefuses_required _ _, fun items _ => ?_⟩
  split
  · exact onlyRefuses_malformed _
  · exact onlyRefuses_mapM (fun _ => onlyRefuses_required _ _) items

/-! ## Fields -/

@[simp] theorem onlyRefuses_parse (key bound : String) (kind : Kind) :
    OnlyRefuses (FieldRef.parse key bound kind) := by
  unfold FieldRef.parse
  split
  · simp
  · split
    · simp
    · split <;> simp

@[simp] theorem onlyRefuses_parseText (key bound : String) (kind : Kind) :
    OnlyRefuses (FieldRef.parseText key bound kind) := by
  rw [FieldRef.parseText, onlyRefuses_bind]
  refine ⟨onlyRefuses_parse _ _ _, fun field _ => ?_⟩
  split <;> simp

@[simp] theorem onlyRefuses_parseNumeric (key bound : String) (kind : Kind) :
    OnlyRefuses (FieldRef.parseNumeric key bound kind) := by
  rw [FieldRef.parseNumeric, onlyRefuses_bind]
  refine ⟨onlyRefuses_parse _ _ _, fun field _ => ?_⟩
  split <;> simp

@[simp] theorem onlyRefuses_check (field : FieldRef) (bound : String)
    (kind : Kind) : OnlyRefuses (field.check bound kind) := by
  rw [FieldRef.check, onlyRefuses_bind]
  refine ⟨onlyRefuses_parse _ _ _, fun again _ => ?_⟩
  split <;> simp

/-! ## Conditions -/

@[simp] theorem onlyRefuses_parsePattern (raw : String) :
    OnlyRefuses (Pattern.parse raw) := by
  simp only [Pattern.parse]
  split <;> simp

@[simp] theorem onlyRefuses_checkField (field : FieldRef) (needed : FieldType)
    (fault : String → FieldFault) (dataset : String) (kind : Kind) :
    OnlyRefuses (Predicate.checkField field needed fault dataset kind) := by
  rw [Predicate.checkField, onlyRefuses_bind]
  refine ⟨onlyRefuses_check _ _ _, fun _ _ => ?_⟩
  split <;> simp

mutual

theorem onlyRefuses_checkPredicate (dataset : String) (kind : Kind) :
    ∀ predicate : Predicate, OnlyRefuses (predicate.check dataset kind)
  | .compare _ _ _ | .accepts _ _ => onlyRefuses_checkField _ _ _ _ _
  | .all parts | .any parts => by
    rw [Predicate.check]
    split
    · exact onlyRefuses_refuse _
    · exact onlyRefuses_checkEach dataset kind parts
  | .negation part => onlyRefuses_checkPredicate dataset kind part

theorem onlyRefuses_checkEach (dataset : String) (kind : Kind) :
    ∀ parts : List Predicate,
      OnlyRefuses (Predicate.checkEach parts dataset kind)
  | [] => onlyRefuses_pure _
  | part :: rest => onlyRefuses_bind.mpr
    ⟨onlyRefuses_checkPredicate dataset kind part,
      fun _ _ => onlyRefuses_checkEach dataset kind rest⟩

end

namespace Scope

variable (scope : Scope)

@[simp] theorem onlyRefuses_field (key : String) :
    OnlyRefuses (scope.field key) := onlyRefuses_parse _ _ _

theorem onlyRefuses_readPattern (body : Json) :
    OnlyRefuses (scope.readPattern body) := by
  simp [readPattern]

theorem onlyRefuses_readComparison (op : Comparison) (body : Json) :
    OnlyRefuses (scope.readComparison op body) := by
  simp [readComparison]

theorem onlyRefuses_readParts {read : String → Json → Outcome Predicate}
    (hread : ∀ key value, OnlyRefuses (read key value)) (word : FilterWord)
    (body : Json) : OnlyRefuses (readParts read word body) := by
  rw [readParts, onlyRefuses_bind]
  refine ⟨onlyRefuses_required _ _, fun items _ => ?_⟩
  split
  · exact onlyRefuses_malformed _
  · refine onlyRefuses_mapM (fun item => ?_) items
    exact onlyRefuses_bind.mpr
      ⟨onlyRefuses_readEntry _ _, fun member _ => hread _ _⟩

theorem onlyRefuses_readFilter : ∀ (levels : Nat) (key : String) (body : Json),
    OnlyRefuses (scope.readFilter levels key body)
  | 0, _, _ => onlyRefuses_malformed _
  | levels + 1, key, body => by
    have hread := onlyRefuses_readFilter levels
    unfold readFilter
    split
    · exact onlyRefuses_map.mpr (onlyRefuses_readParts hread _ _)
    · exact onlyRefuses_map.mpr (onlyRefuses_readParts hread _ _)
    · simp [hread]
    · exact scope.onlyRefuses_readPattern body
    · exact scope.onlyRefuses_readComparison _ body
    · exact onlyRefuses_malformed _

theorem onlyRefuses_readConditions (value : Json) :
    OnlyRefuses (scope.readConditions value) := by
  rw [readConditions, onlyRefuses_bind]
  refine ⟨onlyRefuses_readMembers _ _, fun members _ => ?_⟩
  split
  · exact onlyRefuses_pure _
  · simp [scope.onlyRefuses_readFilter]

/-! ## Transformations -/

theorem onlyRefuses_checkType (op : AggregateOp) (source : FieldRef) :
    OnlyRefuses (Aggregate.checkType op source) := by
  unfold Aggregate.checkType
  split <;> simp

theorem onlyRefuses_addAggregate (grouping : Grouping) (name : String)
    (op : AggregateOp) (source : FieldRef) :
    OnlyRefuses (grouping.addAggregate name op source) := by
  unfold Grouping.addAggregate
  split
  · simp
  · split <;> simp [onlyRefuses_checkType]

theorem onlyRefuses_readRule (grouping : Grouping) (rule : Json) :
    OnlyRefuses (scope.readRule grouping rule) := by
  simp [readRule, onlyRefuses_addAggregate]

theorem onlyRefuses_setKeys (grouping : Grouping) (keys : List FieldRef) :
    OnlyRefuses (grouping.setKeys keys) := by
  unfold Grouping.setKeys
  split <;> simp

theorem onlyRefuses_readGrouping (value : Json) :
    OnlyRefuses (scope.readGrouping value) := by
  rw [readGrouping, onlyRefuses_bind]
  refine ⟨onlyRefuses_readMembers _ _, fun members _ => ?_⟩
  split
  · exact onlyRefuses_malformed _
  · simp [onlyRefuses_mapM scope.onlyRefuses_field, onlyRefuses_setKeys,
      onlyRefuses_foldlM scope.onlyRefuses_readRule]

end Scope

theorem onlyRefuses_checkGrouping (grouping : Grouping) (dataset : String)
    (kind : Kind) : OnlyRefuses (grouping.check dataset kind) := by
  unfold Grouping.check
  split
  · exact onlyRefuses_refuse _
  · refine onlyRefuses_bind.mpr ⟨onlyRefuses_forM (fun key => ?_) _,
      fun _ _ => onlyRefuses_forM (fun aggregate => ?_) _⟩
    · exact onlyRefuses_check _ _ _
    · simp [Aggregate.check, Scope.onlyRefuses_checkType]

/-! ## Options -/

theorem onlyRefuses_checkOrder (columns : List String) (order : SortOrder) :
    OnlyRefuses (Options.checkOrder columns order) := by
  unfold Options.checkOrder
  split
  · simp
  · split <;> simp

theorem onlyRefuses_ofParts (columns : List String)
    (order : Option SortOrder) :
    OnlyRefuses (Options.ofParts columns order) := by
  unfold Options.ofParts
  split
  · simp
  · simp [onlyRefuses_option_forM (onlyRefuses_checkOrder columns)]

theorem onlyRefuses_readSortKeys (members : List (String × Json)) :
    OnlyRefuses (readSortKeys members) := by
  unfold readSortKeys
  split <;> simp

theorem onlyRefuses_readOrder (value : Json) :
    OnlyRefuses (readOrder value) := by
  unfold readOrder
  split
  · simp
  · exact onlyRefuses_readSortKeys _
  · simp

theorem onlyRefuses_readOptions (value : Json) :
    OnlyRefuses (readOptions value) := by
  simp only [readOptions, onlyRefuses_bind, onlyRefuses_readMembers,
    onlyRefuses_required, onlyRefuses_readTexts, true_and]
  intro members _ texts _ columns _
  split
  · split <;> simp
  · split <;> simp [onlyRefuses_readOrder]

/-! ## Queries -/

theorem onlyRefuses_checkColumns (scope : Scope) (grouping : Option Grouping)
    (columns : List String) :
    OnlyRefuses (checkColumns scope grouping columns) := by
  unfold checkColumns
  split
  · split <;> simp
  · exact onlyRefuses_forM (fun column => onlyRefuses_map.mpr (by simp)) _

theorem onlyRefuses_checkClauses (members : List (String × Json)) :
    OnlyRefuses (checkClauses members) := by
  rw [checkClauses]
  generalize (if (members.lookup "TRANSFORMATIONS").isSome then 3 else 2) = n
  by_cases h : members.length = n <;> simp [h]

/-- A JSON value is read as a query or refused. -/
theorem onlyRefuses_read (dataset : String) (kind : Kind) (raw : Json) :
    OnlyRefuses (Query.read dataset kind raw) := by
  simp [Query.read, onlyRefuses_checkClauses, onlyRefuses_checkColumns,
    Scope.onlyRefuses_readConditions, onlyRefuses_readOptions,
    onlyRefuses_option_mapM (Scope.onlyRefuses_readGrouping _),
    onlyRefuses_ofParts,
    onlyRefuses_option_forM (onlyRefuses_checkPredicate dataset kind),
    onlyRefuses_option_forM fun grouping : Grouping =>
      onlyRefuses_checkGrouping grouping dataset kind]

end CampusQuery.Query
