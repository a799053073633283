/-
CampusQuery.Proofs.Query.Grammar — the grammar of queries.

Every relation here ties a piece of JSON to the piece of a query that it
describes, without saying how the one is found from the other. Objects have
exactly the members that are listed, in any order: `HasMembers`.
`Describes` is the grammar of whole queries on the dataset in scope.
-/
import CampusQuery.Proofs.Query.FieldRef
import CampusQuery.Proofs.Query.Pattern

namespace CampusQuery.Query

/-! ## Shapes -/

/-- An object with exactly the given members. -/
def HasMembers (value : Json) (members : List (String × Json)) : Prop :=
  ∃ found, value = .object found ∧ found.Perm members

/-- A list of one text or more. -/
def IsTexts (value : Json) (texts : List String) : Prop :=
  texts ≠ [] ∧ value = .array (texts.map .string)

/-! ## Conditions -/

namespace Predicate

mutual

/-- The most AND, OR and NOT that stand above a comparison or a pattern. -/
def nesting : Predicate → Nat
  | compare _ _ _ | accepts _ _ => 0
  | all parts | any parts => nestingOf parts + 1
  | negation part => nesting part + 1

def nestingOf : List Predicate → Nat
  | [] => 0
  | part :: rest => max (nesting part) (nestingOf rest)

end

end Predicate

mutual

/-- The value is a filter on the dataset in scope, which describes the
condition. -/
inductive IsFilter (scope : Scope) : Json → Predicate → Prop
  | conjunction {items : List Json} {parts : List Predicate} :
      items ≠ [] → AreFilters scope items parts →
      IsFilter scope (.object [("AND", .array items)]) (.all parts)
  | disjunction {items : List Json} {parts : List Predicate} :
      items ≠ [] → AreFilters scope items parts →
      IsFilter scope (.object [("OR", .array items)]) (.any parts)
  | negation {item : Json} {part : Predicate} :
      IsFilter scope item part →
      IsFilter scope (.object [("NOT", item)]) (.negation part)
  | pattern {key raw : String} {field : FieldRef} :
      scope.Names key field → field.type = .text → WildcardsAtEnds raw →
      IsFilter scope (.object [("IS", .object [(key, .string raw)])])
        (.accepts field (.split raw))
  | comparison {op : Comparison} {key : String} {bound : JsonNumber}
      {field : FieldRef} :
      scope.Names key field → field.type = .numeric →
      IsFilter scope (.object [(op.name, .object [(key, .number bound)])])
        (.compare op field bound.toBinary64)

inductive AreFilters (scope : Scope) : List Json → List Predicate → Prop
  | nil : AreFilters scope [] []
  | cons {item : Json} {part : Predicate} {items : List Json}
      {parts : List Predicate} :
      IsFilter scope item part → AreFilters scope items parts →
      AreFilters scope (item :: items) (part :: parts)

end

/-- No conditions, or one filter in which at most twenty AND, OR and NOT stand
above each other. -/
inductive AreConditions (scope : Scope) : Json → Option Predicate → Prop
  | none : AreConditions scope (.object []) none
  | some {value : Json} {predicate : Predicate} :
      IsFilter scope value predicate → predicate.nesting ≤ 20 →
      AreConditions scope value (some predicate)

/-! ## Options -/

inductive IsOrder (columns : List String) : Json → SortOrder → Prop
  | single {key : String} :
      key ∈ columns → IsOrder columns (.string key) (.single key)
  | multiple {value texts : Json} {direction : Direction}
      {keys : List String} :
      HasMembers value [("dir", .string direction.name), ("keys", texts)] →
      IsTexts texts keys → (∀ key ∈ keys, key ∈ columns) →
      IsOrder columns value (.multiple direction keys)

inductive AreOptions : Json → Options → Prop
  | unsorted {value texts : Json} {columns : List String} :
      HasMembers value [("COLUMNS", texts)] → IsTexts texts columns →
      AreOptions value ⟨columns, none⟩
  | sorted {value texts sorting : Json} {columns : List String}
      {order : SortOrder} :
      HasMembers value [("COLUMNS", texts), ("ORDER", sorting)] →
      IsTexts texts columns → IsOrder columns sorting order →
      AreOptions value ⟨columns, some order⟩

/-! ## Transformations -/

/-- A rule that computes an aggregate over a field. Values of any type can be
counted; the other aggregates are of numbers. -/
inductive IsRule (scope : Scope) : Json → Aggregate → Prop
  | intro {name key : String} {op : AggregateOp} {source : FieldRef} :
      scope.Names key source → op = .count ∨ source.type = .numeric →
      name ≠ "" → '_' ∉ name.toList →
      IsRule scope
        (.object [(name, .object [(op.name, .string key)])])
        ⟨name, op, source⟩

/-- Keys, of which there is one, and rules under different names. -/
inductive IsGrouping (scope : Scope) : Json → Grouping → Prop
  | intro {value texts : Json} {names : List String} {rules : List Json}
      {keys : List FieldRef} {aggregates : List Aggregate} :
      HasMembers value [("GROUP", texts), ("APPLY", .array rules)] →
      IsTexts texts names → List.Forall₂ scope.Names names keys →
      List.Forall₂ (IsRule scope) rules aggregates →
      (aggregates.map (·.name)).Nodup →
      IsGrouping scope value ⟨keys, aggregates⟩

/-! ## Queries -/

/-- The value is a query on the dataset in scope, described member by
member. Without transformations fields of the dataset can be shown, with
them only their keys and aggregates. -/
inductive Describes (scope : Scope) : Json → CampusQuery.Query → Prop
  | plain {raw conditions shown : Json} {predicate : Option Predicate}
      {options : Options} :
      HasMembers raw [("WHERE", conditions), ("OPTIONS", shown)] →
      AreConditions scope conditions predicate → AreOptions shown options →
      (∀ column ∈ options.columns, ∃ field, scope.Names column field) →
      Describes scope raw
        { dataset := scope.dataset, predicate, options, grouping := none }
  | grouped {raw conditions shown transformations : Json}
      {predicate : Option Predicate} {options : Options}
      {grouping : Grouping} :
      HasMembers raw
        [("WHERE", conditions), ("OPTIONS", shown),
          ("TRANSFORMATIONS", transformations)] →
      AreConditions scope conditions predicate → AreOptions shown options →
      IsGrouping scope transformations grouping →
      (∀ column ∈ options.columns,
        column ∈ grouping.keys.map FieldRef.column ∨
          column ∈ grouping.aggregates.map (·.name)) →
      Describes scope raw
        { dataset := scope.dataset, predicate, options
          grouping := some grouping }

end CampusQuery.Query
