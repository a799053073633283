/-
CampusQuery.Query.Validation — queries from JSON.

`Query.read` turns a JSON value into a query on a dataset, or says what is
wrong with it. A value is looked at clause by clause: first the conditions,
then the options, then the transformations; after that come the checks that
need more than one clause. Nothing of the dataset is used but its id and
its kind.
-/
import CampusQuery.Query.Basic

namespace CampusQuery.Query

/-! ## Shapes -/

def malformed {α : Type} (fault : QueryFault) : Outcome α :=
  refuse (.query fault)

def required {α : Type} (fault : QueryFault) : Option α → Outcome α
  | some value => .ok value
  | none => malformed fault

/-- The members of a part that must be an object. -/
def readMembers (part : QueryPart) (value : Json) :
    Outcome (List (String × Json)) :=
  required (.notAnObject part) value.members?

def onlyMember (part : QueryPart) :
    List (String × Json) → Outcome (String × Json)
  | [member] => .ok member
  | _ => malformed (.notOneKey part)

/-- The member of a part that must be an object with exactly one. -/
def readEntry (part : QueryPart) (value : Json) :
    Outcome (String × Json) := do
  onlyMember part (← readMembers part value)

/-- The texts of a part that must be a list of some. -/
def readTexts (part : QueryPart) (value : Json) : Outcome (List String) := do
  let items ← required (.notAnArray part) value.items?
  if items.isEmpty then malformed (.emptyList part)
  else items.mapM fun item => required (.notStrings part) item.text?

/-- The dataset that the fields of a query are looked up in. -/
structure Scope where
  dataset : String
  kind : Kind

namespace Scope

def field (scope : Scope) (key : String) : Outcome FieldRef :=
  FieldRef.parse key scope.dataset scope.kind

/-! ## Conditions -/

def readPattern (scope : Scope) (body : Json) : Outcome Predicate := do
  let (key, value) ← readEntry (.filter .pattern) body
  let pattern ← required (.patternNotText key) value.text?
  let field ← FieldRef.parseText key scope.dataset scope.kind
  return .accepts field (← Pattern.parse pattern)

def readComparison (scope : Scope) (op : Comparison) (body : Json) :
    Outcome Predicate := do
  let (key, value) ← readEntry (.filter (.comparison op)) body
  let bound ← required (.boundNotNumber op key) value.float?
  let field ← FieldRef.parseNumeric key scope.dataset scope.kind
  return .compare op field bound

def readParts (read : String → Json → Outcome Predicate) (word : FilterWord)
    (body : Json) : Outcome (List Predicate) := do
  let items ← required (.notAnArray (.filter word)) body.items?
  if items.isEmpty then malformed (.noFilters word)
  else items.mapM fun item => do
    let (key, value) ← readEntry (.filter word) item
    read key value

/-- Reads a filter that may nest as many levels deep as are left. -/
def readFilter (scope : Scope) : Nat → String → Json → Outcome Predicate
  | 0, _, _ => malformed .tooDeep
  | levels + 1, key, body =>
    match FilterWord.ofName? key with
    | some .conjunction =>
      .all <$> readParts (scope.readFilter levels) .conjunction body
    | some .disjunction =>
      .any <$> readParts (scope.readFilter levels) .disjunction body
    | some .negation => do
      let (key, value) ← readEntry (.filter .negation) body
      return .negation (← scope.readFilter levels key value)
    | some .pattern => scope.readPattern body
    | some (.comparison op) => scope.readComparison op body
    | none => malformed (.unknownFilter key)

/-- Reads the conditions of a query; an empty object sets none. -/
def readConditions (scope : Scope) (value : Json) :
    Outcome (Option Predicate) := do
  let members ← readMembers .conditions value
  if members.isEmpty then return none
  else
    let (key, body) ← onlyMember .conditions members
    return some (← scope.readFilter (maxNesting + 1) key body)

/-! ## Transformations -/

def readRule (scope : Scope) (grouping : Grouping) (rule : Json) :
    Outcome Grouping := do
  let (name, body) ← readEntry .applyRule rule
  let (word, source) ← readEntry .applyBody body
  let op ← required (.unknownAggregate word) (AggregateOp.ofName? word)
  let key ← required (.sourceNotText name) source.text?
  grouping.addAggregate name op (← scope.field key)

def readGrouping (scope : Scope) (value : Json) : Outcome Grouping := do
  let members ← readMembers .transformations value
  if members.length ≠ 2 then malformed .transformationMembers
  else
    let group ← required (.missingPart .transformations .group)
      (members.lookup "GROUP")
    let apply ← required (.missingPart .transformations .apply)
      (members.lookup "APPLY")
    let rules ← required (.notAnArray .apply) apply.items?
    let texts ← readTexts .group group
    let keys ← texts.mapM scope.field
    rules.foldlM scope.readRule (← Grouping.empty.setKeys keys)

end Scope

/-! ## Options -/

def readSortKeys (members : List (String × Json)) : Outcome SortOrder := do
  if members.length ≠ 2 then malformed .orderMembers
  else
    let direction ← required .orderDirection
      (((members.lookup "dir").bind Json.text?).bind Direction.ofName?)
    let keys ← required (.missingPart .order .keys) (members.lookup "keys")
    return .multiple direction (← readTexts .orderKeys keys)

def readOrder : Json → Outcome SortOrder
  | .string key => return .single key
  | .object members => readSortKeys members
  | _ => malformed .orderShape

def readOptions (value : Json) :
    Outcome (List String × Option SortOrder) := do
  let members ← readMembers .options value
  let columns ← required (.missingPart .options .columns)
    (members.lookup "COLUMNS")
  let columns ← readTexts .columns columns
  match members.lookup "ORDER" with
  | none =>
    if members.length ≠ 1 then malformed .strayOption
    else return (columns, none)
  | some order =>
    if members.length ≠ 2 then malformed .strayOption
    else return (columns, some (← readOrder order))

/-! ## Queries -/

/-- Checks that the shown columns will be there: results of the grouping,
or fields of the dataset if there is none. -/
def checkColumns (scope : Scope) (grouping : Option Grouping)
    (columns : List String) : Outcome Unit :=
  match grouping with
  | some grouping =>
    match columns.find? (· ∉ grouping.resultColumns) with
    | some column => malformed (.unavailableColumn column)
    | none => return ()
  | none => columns.forM fun column => discard (scope.field column)

def checkClauses (members : List (String × Json)) : Outcome Unit :=
  let expected := if (members.lookup "TRANSFORMATIONS").isSome then 3 else 2
  if members.length = expected then .ok ()
  else malformed (.keyCount expected members.length)

def read (dataset : String) (kind : Kind) (raw : Json) : Outcome Query := do
  let scope : Scope := ⟨dataset, kind⟩
  let members ← readMembers .query raw
  checkClauses members
  let conditions ← required (.missingClause .conditions)
    (members.lookup "WHERE")
  let predicate ← scope.readConditions conditions
  let options ← required (.missingClause .options)
    (members.lookup "OPTIONS")
  let (columns, order) ← readOptions options
  let grouping ← (members.lookup "TRANSFORMATIONS").mapM scope.readGrouping
  checkColumns scope grouping columns
  let options ← Options.ofParts columns order
  predicate.forM fun predicate => predicate.check dataset kind
  grouping.forM fun grouping => grouping.check dataset kind
  return { dataset, predicate, options, grouping }

end CampusQuery.Query
