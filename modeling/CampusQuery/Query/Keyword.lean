/-
CampusQuery.Query.Keyword — the fixed words of the query language.

Comparisons, filters, aggregates and sorting directions are each written as
one upper-case word. For every family `name` gives the word and `ofName?`
reads it; case counts.
-/
import CampusQuery.Numeric.Binary64
import CampusQuery.Schema

namespace CampusQuery.Query

open Numeric

/-! ## Comparisons -/

inductive Comparison
  | equal
  | less
  | greater
deriving DecidableEq, Repr

namespace Comparison

def name : Comparison → String
  | equal => "EQ"
  | less => "LT"
  | greater => "GT"

def ofName? : String → Option Comparison
  | "EQ" => some equal
  | "LT" => some less
  | "GT" => some greater
  | _ => none

def holds : Comparison → Binary64 → Binary64 → Bool
  | equal, x, y => x.equals y
  | less, x, y => x.less y
  | greater, x, y => x.greater y

end Comparison

/-! ## Filters -/

inductive FilterWord
  | conjunction
  | disjunction
  | negation
  | pattern
  | comparison (op : Comparison)
deriving DecidableEq, Repr

namespace FilterWord

def name : FilterWord → String
  | conjunction => "AND"
  | disjunction => "OR"
  | negation => "NOT"
  | pattern => "IS"
  | comparison op => op.name

def ofName? : String → Option FilterWord
  | "AND" => some conjunction
  | "OR" => some disjunction
  | "NOT" => some negation
  | "IS" => some pattern
  | word => (Comparison.ofName? word).map comparison

end FilterWord

/-! ## Aggregates -/

inductive AggregateOp
  | max
  | min
  | avg
  | sum
  | count
deriving DecidableEq, Repr

namespace AggregateOp

def name : AggregateOp → String
  | max => "MAX"
  | min => "MIN"
  | avg => "AVG"
  | sum => "SUM"
  | count => "COUNT"

def ofName? : String → Option AggregateOp
  | "MAX" => some max
  | "MIN" => some min
  | "AVG" => some avg
  | "SUM" => some sum
  | "COUNT" => some count
  | _ => none

/-- Any field can be counted; everything else needs numbers. -/
def accepts (op : AggregateOp) (type : FieldType) : Bool :=
  op = count || type = .numeric

end AggregateOp

/-! ## Sorting directions -/

inductive Direction
  | up
  | down
deriving DecidableEq, Repr

namespace Direction

def name : Direction → String
  | up => "UP"
  | down => "DOWN"

def ofName? : String → Option Direction
  | "UP" => some up
  | "DOWN" => some down
  | _ => none

end Direction

end CampusQuery.Query
