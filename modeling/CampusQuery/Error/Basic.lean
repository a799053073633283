/-
CampusQuery.Error.Basic — everything that can go wrong.

An `Error` is of one of eight classes. Requests that are refused carry the
cause as data, one family of causes for each part of the program; the
wording is in the `message` functions alone.
-/
import CampusQuery.Error.Record
import CampusQuery.Error.Query

namespace CampusQuery

open Numeric Query

/-! ## Causes of a refusal -/

inductive FieldFault
  | unknown (field : String) (kind : Kind)
  | malformed (key : String)
  | foreign (key dataset bound : String)
  | notText (key : String)
  | notNumeric (key : String)
  | retyped (column : String)
deriving DecidableEq

def FieldFault.message : FieldFault → String
  | unknown field kind => s!"Unknown field '{field}' for {kind.name}"
  | malformed key => s!"Malformed field '{key}'"
  | foreign key dataset bound =>
    s!"Field '{key}' references dataset '{dataset}', " ++
      s!"but the query is bound to '{bound}'"
  | notText key => s!"Field '{key}' is not a string field"
  | notNumeric key => s!"Field '{key}' is not a numeric field"
  | retyped column => s!"Field '{column}' changed type after binding"

/-- What is wrong with a clause of a query that is well formed as such. -/
inductive ClauseFault
  | strayWildcard (pattern : String)
  | emptyLogic
  | emptyGroup
  | aggregateName (name : String)
  | duplicateAggregate (name : String)
  | needsNumeric (op : AggregateOp) (column : String)
  | noColumns
  | noOrderKeys
  | orderKeyNotShown (key : String)
deriving DecidableEq

def ClauseFault.message : ClauseFault → String
  | strayWildcard pattern =>
    s!"Wildcards may only lead or trail the pattern '{pattern}'"
  | emptyLogic => "Logical comparison needs at least one filter"
  | emptyGroup => "GROUP must list at least one key"
  | aggregateName name =>
    s!"APPLY name '{name}' must be non-empty and contain no underscore"
  | duplicateAggregate name => s!"Duplicate APPLY name '{name}'"
  | needsNumeric op column =>
    s!"{op.name} requires a numeric field, got '{column}'"
  | noColumns => "COLUMNS must list at least one column"
  | noOrderKeys => "ORDER keys must not be empty"
  | orderKeyNotShown key => s!"ORDER key '{key}' is not in COLUMNS"

inductive RunFault
  | boundElsewhere (bound dataset : String)
  | tooManyRecords
  | lostRecord
  | noGroupColumn (column : String)
  | noSourceColumn (column name : String)
  | emptyBucket (op : AggregateOp)
  | notFinite (value : Binary64)
  | noSortColumn (column : String)
  | noResultColumn (column : String)
deriving DecidableEq

def RunFault.message : RunFault → String
  | boundElsewhere bound dataset =>
    s!"Query bound to '{bound}' cannot run against '{dataset}'"
  | tooManyRecords => "Dataset too large to scan"
  | lostRecord => "Selected record vanished during scan"
  | noGroupColumn column => s!"Column '{column}' missing while grouping"
  | noSourceColumn column name =>
    s!"Column '{column}' missing while applying {name}"
  | emptyBucket op => s!"Cannot apply {op.name} to an empty group"
  | notFinite value => s!"Cannot aggregate non-finite value {value.plain}"
  | noSortColumn column => s!"Cannot order by missing column '{column}'"
  | noResultColumn column => s!"Column '{column}' is not in the result"

inductive DatasetFault
  | invalidId (id : String)
  | noRecords (id : String) (kind : Kind)
  | strayRecord (id : String) (kind stray : Kind)
  | taken (id : String)
  | unknown (id : String)
  | notRecords
  | invalidKind (name : String)
deriving DecidableEq

def DatasetFault.message : DatasetFault → String
  | invalidId id => s!"Invalid dataset id '{id}'"
  | noRecords id kind => s!"Dataset '{id}' has no valid {kind.name} records"
  | strayRecord id kind stray =>
    s!"Dataset '{id}' of kind {kind.name} contains a {stray.name} record"
  | taken id => s!"Dataset '{id}' already exists"
  | unknown id => s!"Dataset '{id}' does not exist"
  | notRecords => "Dataset content must be a JSON array of records"
  | invalidKind name => s!"Invalid kind '{name}'"

/-- Why a request is refused. A text reported from elsewhere is kept as it
is. -/
inductive Invalid
  | record (kind : Kind) (fault : RecordFault)
  | field (fault : FieldFault)
  | query (fault : QueryFault)
  | clause (fault : ClauseFault)
  | run (fault : RunFault)
  | dataset (fault : DatasetFault)
  | reported (text : String)
deriving DecidableEq

def Invalid.message : Invalid → String
  | record kind fault => s!"Invalid {kind.name} record: {fault.message}"
  | field fault => fault.message
  | query fault => fault.message
  | clause fault => fault.message
  | run fault => fault.message
  | dataset fault => fault.message
  | reported text => text

/-! ## Damaged storage -/

inductive Corruption
  | unknownKind (id kind : String)
  | checksum (id : String)
  | record (id : String) (kind : Kind) (fault : RecordFault)
  | reported (text : String)
deriving DecidableEq

/-! ## Errors -/

/-- The heading that refusals are reported under. -/
def refusal (cause : Invalid) : String := s!"Invalid query: {cause.message}"

def Corruption.message : Corruption → String
  | unknownKind id kind => s!"dataset '{id}' has unknown kind '{kind}'"
  | checksum id => s!"checksum mismatch for dataset '{id}'"
  | record id kind fault => s!"dataset '{id}': {refusal (.record kind fault)}"
  | reported text => text

/-- A failed request: refused, its result too large, its subject not there,
or stopped by bad settings, by storage, by damaged data, by a lock or by
comparisons that contradict one another. -/
inductive Error
  | invalid (cause : Invalid)
  | tooLarge (rows limit : Nat)
  | notFound (text : String)
  | config (text : String)
  | storage (text : String)
  | corrupted (cause : Corruption)
  | lock (text : String)
  | noOrder
deriving DecidableEq

def Error.message : Error → String
  | invalid cause => refusal cause
  | tooLarge rows limit =>
    s!"Result too large: {rows} rows exceed the limit of {limit}, " ++
      "narrow the query"
  | notFound text => s!"Not found: {text}"
  | config text => s!"Config error: {text}"
  | storage text => s!"Persistence error: {text}"
  | corrupted cause => s!"Data corruption: {cause.message}"
  | lock text => s!"Lock poisoned: {text}"
  | noOrder =>
    "user-provided comparison function does not correctly implement a " ++
      "total order"

abbrev Outcome := Except Error

def refuse {α : Type} (cause : Invalid) : Outcome α := .error (.invalid cause)

end CampusQuery
