/-
CampusQuery.Query.Building — groupings that are built call by call.

A grouping that is being built is changed in place, by calls in any order that
set its keys or add an aggregate. A call may be refused, and then whatever it
has changed up to there stays changed; nothing but the order of its steps
keeps the grouping as it was.
-/
import CampusQuery.Query.Grouping

namespace CampusQuery.Query.Grouping

/-- A call on a grouping that is being built. -/
inductive Call
  | setKeys (keys : List FieldRef)
  | addAggregate (name : String) (op : AggregateOp) (source : FieldRef)

/-- Steps that change a grouping in place and may be refused on the way. -/
abbrev InPlace := ExceptT Error (StateM Grouping)

namespace Call

def steps : Call → InPlace Unit
  | setKeys keys => do
    if keys.isEmpty then
      throw (.invalid (.clause .emptyGroup))
    modify fun grouping => { grouping with keys }
  | addAggregate name op source => do
    if name = "" ∨ name.toList.contains '_' then
      throw (.invalid (.clause (.aggregateName name)))
    if (← get).aggregates.any (·.name = name) then
      throw (.invalid (.clause (.duplicateAggregate name)))
    if !op.accepts source.type then
      throw (.invalid (.clause (.needsNumeric op source.column)))
    modify fun grouping => { grouping with
      aggregates := grouping.aggregates ++ [⟨name, op, source⟩] }

/-- The answer to a call, and the grouping after it. -/
def make (call : Call) (grouping : Grouping) : Outcome Unit × Grouping :=
  Id.run (call.steps.run.run grouping)

/-- The grouping that a call makes of another one. -/
def apply (grouping : Grouping) : Call → Outcome Grouping
  | setKeys keys => grouping.setKeys keys
  | addAggregate name op source => grouping.addAggregate name op source

end Call

def makeAll (calls : List Call) (grouping : Grouping) :
    List (Outcome Unit) × Grouping :=
  Id.run ((calls.mapM fun call : Call => call.steps.run).run grouping)

end CampusQuery.Query.Grouping
