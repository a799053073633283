/-
CampusQuery.Error.Query — why a JSON value is not a query.

`QueryPart` names the places of a query that a message can point to, and
`QueryFault` what can be wrong with the shape of a query there.
-/
import CampusQuery.Query.Keyword

namespace CampusQuery.Query

/-- A place in the text of a query. -/
inductive QueryPart
  | query
  | conditions
  | filter (word : FilterWord)
  | options
  | columns
  | order
  | keys
  | orderKeys
  | transformations
  | group
  | apply
  | applyRule
  | applyBody
deriving DecidableEq

def QueryPart.name : QueryPart → String
  | query => "Query"
  | conditions => "WHERE"
  | filter word => word.name
  | options => "OPTIONS"
  | columns => "COLUMNS"
  | order => "ORDER"
  | keys => "keys"
  | orderKeys => "ORDER keys"
  | transformations => "TRANSFORMATIONS"
  | group => "GROUP"
  | apply => "APPLY"
  | applyRule => "APPLY rule"
  | applyBody => "APPLY body"

/-- The deepest nesting of AND, OR and NOT that a query may have. -/
def maxNesting : Nat := 20

inductive QueryFault
  | notAnObject (part : QueryPart)
  | notOneKey (part : QueryPart)
  | notAnArray (part : QueryPart)
  | emptyList (part : QueryPart)
  | notStrings (part : QueryPart)
  | keyCount (expected found : Nat)
  | missingClause (part : QueryPart)
  | missingPart (whole part : QueryPart)
  | tooDeep
  | unknownFilter (word : String)
  | noFilters (word : FilterWord)
  | patternNotText (field : String)
  | boundNotNumber (op : Comparison) (field : String)
  | strayOption
  | orderMembers
  | orderDirection
  | orderShape
  | transformationMembers
  | unknownAggregate (word : String)
  | sourceNotText (name : String)
  | unavailableColumn (column : String)
  | unbound
deriving DecidableEq

def QueryFault.message : QueryFault → String
  | notAnObject part => s!"{part.name} must be an object"
  | notOneKey part => s!"{part.name} must have exactly one key"
  | notAnArray part => s!"{part.name} must be an array"
  | emptyList part => s!"{part.name} must not be empty"
  | notStrings part => s!"{part.name} must only contain strings"
  | keyCount expected found =>
    s!"Query must have exactly {expected} top-level keys, found {found}"
  | missingClause part => s!"Missing {part.name}"
  | missingPart whole part => s!"{whole.name} is missing {part.name}"
  | tooDeep => s!"Filters nest deeper than {maxNesting} levels"
  | unknownFilter word => s!"Unknown filter '{word}'"
  | noFilters word => s!"{word.name} must contain at least one filter"
  | patternNotText field => s!"IS value for '{field}' must be a string"
  | boundNotNumber op field =>
    s!"{op.name} value for '{field}' must be a number"
  | strayOption => "OPTIONS may only contain COLUMNS and ORDER"
  | orderMembers => "ORDER must have exactly the keys dir and keys"
  | orderDirection => "ORDER dir must be UP or DOWN"
  | orderShape => "ORDER must be a string or an object"
  | transformationMembers =>
    "TRANSFORMATIONS must contain exactly GROUP and APPLY"
  | unknownAggregate word => s!"Unknown APPLY token '{word}'"
  | sourceNotText name => s!"APPLY field for '{name}' must be a string"
  | unavailableColumn column =>
    s!"Column '{column}' must be a GROUP key or an APPLY name"
  | unbound => "Query does not reference any dataset field"

end CampusQuery.Query
