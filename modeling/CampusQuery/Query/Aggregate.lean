/-
CampusQuery.Query.Aggregate — one value for a group of rows.

The extremes are taken by comparison alone and the count is the number of
distinct values. Sums and means are rounded to two places, halves away from
zero: a sum is added up in floating point and rounded as a decimal, a mean
is exact until it is rounded.
-/
import CampusQuery.Numeric.Decimal
import CampusQuery.Query.FieldRef

namespace CampusQuery.Query

open Numeric

/-- A named value to be computed over a field of a group of rows. -/
structure Aggregate where
  name : String
  op : AggregateOp
  source : FieldRef
deriving DecidableEq

namespace Aggregate

/-! ## Computing over numbers and values -/

def toDecimal (x : Binary64) : Outcome Decimal :=
  match Decimal.ofBinary64? x with
  | some decimal => .ok decimal
  | none => refuse (.run (.notFinite x))

/-- The last of the numbers that beats all before it. -/
def extreme (beats : Binary64 → Binary64 → Bool) (first : Binary64)
    (rest : List Binary64) : Binary64 :=
  rest.foldl (fun best x => if beats x best then x else best) first

def extremeOf (op : AggregateOp) (beats : Binary64 → Binary64 → Bool) :
    List Binary64 → Outcome Binary64
  | [] => refuse (.run (.emptyBucket op))
  | first :: rest => .ok (extreme beats first rest)

def sumOf (numbers : List Binary64) : Outcome Binary64 := do
  return (← toDecimal (Binary64.sum numbers)).toHundredths

def meanOf (numbers : List Binary64) : Outcome Binary64 :=
  if numbers.isEmpty then refuse (.run (.emptyBucket .avg))
  else do
    let decimals ← numbers.mapM toDecimal
    return ((Decimal.sum decimals).dividedBy numbers.length).toHundredths

def computeOf (op : AggregateOp) (values : List Value) : Outcome Binary64 :=
  let numbers := values.map Value.toNumber
  match op with
  | .count => .ok (.ofInt (Value.countDistinct values))
  | .max => extremeOf .max Binary64.greater numbers
  | .min => extremeOf .min Binary64.less numbers
  | .sum => sumOf numbers
  | .avg => meanOf numbers

/-! ## Computing over rows -/

def sourceValue (aggregate : Aggregate) (row : Row) : Outcome Value :=
  match row.get? aggregate.source.column with
  | some value => .ok value
  | none =>
    refuse (.run (.noSourceColumn aggregate.source.column aggregate.name))

def compute (aggregate : Aggregate) (rows : List Row) : Outcome Value := do
  let values ← rows.mapM aggregate.sourceValue
  return .number (← computeOf aggregate.op values)

/-! ## Checking -/

def checkType (op : AggregateOp) (source : FieldRef) : Outcome Unit :=
  if op.accepts source.type then .ok ()
  else refuse (.clause (.needsNumeric op source.column))

def check (aggregate : Aggregate) (dataset : String) (kind : Kind) :
    Outcome Unit := do
  aggregate.source.check dataset kind
  checkType aggregate.op aggregate.source

end Aggregate

end CampusQuery.Query
