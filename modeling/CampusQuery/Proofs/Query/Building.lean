/-
CampusQuery.Proofs.Query.Building — what calls make of a grouping.

`make_eq` says all that a call does in place: it does what it makes of the
grouping, or it is refused and leaves the grouping as it was. So a grouping
after any calls is one that can be built (`isBuilt_makeAll`). By induction on
the calls its aggregates are those of the calls that succeeded, in their order
(`aggregates_makeAll`), and its keys those of the last one that set them
(`keys_makeAll`). `makeAll_keeps_apart` puts this together with what holds of
every grouping that can be built.
-/
import CampusQuery.Proofs.Query.Partition
import CampusQuery.Query.Building

namespace CampusQuery.Query.Grouping

open Outcome

variable {grouping after : Grouping}

/-! ## One call -/

/-- A step that reads the grouping finds it as it is. -/
theorem run_get_bind (step : Grouping → InPlace Unit) :
    (get >>= step).run.run grouping = (step grouping).run.run grouping := rfl

namespace Call

/-- The calls that succeed: keys that are not empty, and an aggregate under a
name that is new and could not be the name of a field, with an operation that
can be applied to its field. -/
def Fits (grouping : Grouping) : Call → Prop
  | setKeys keys => keys ≠ []
  | addAggregate name op source =>
    name ≠ "" ∧ '_' ∉ name.toList ∧
      name ∉ grouping.aggregates.map (·.name) ∧ op.accepts source.type

def result (grouping : Grouping) : Call → Grouping
  | setKeys keys => { grouping with keys }
  | addAggregate name op source =>
    { grouping with aggregates := grouping.aggregates ++ [⟨name, op, source⟩] }

theorem apply_eq_ok {call : Call} :
    call.apply grouping = .ok after ↔
      call.Fits grouping ∧ after = call.result grouping := by
  cases call with
  | setKeys keys => exact Scope.setKeys_eq_ok
  | addAggregate name op source =>
    simp only [apply, Grouping.addAggregate, ite_refuse_eq_ok, bind_unit_eq_ok,
      Scope.checkType_eq_ok, pure_eq_ok, Fits, result]
    simp [and_assoc, eq_comm (a := after)]

/-- A call does what it makes of the grouping, or it is refused and changes
nothing. -/
theorem make_eq (call : Call) (grouping : Grouping) :
    call.make grouping =
      match call.apply grouping with
      | .ok after => (.ok (), after)
      | .error error => (.error error, grouping) := by
  cases call with
  | setKeys keys =>
    cases keys with
    | nil => rfl
    | cons key keys => rfl
  | addAggregate name op source =>
    simp only [apply, Grouping.addAggregate, Aggregate.checkType]
    -- The three checks come first, and none of them changes the grouping.
    by_cases hname : name = "" ∨ name.toList.contains '_'
    · simp only [make, steps, if_pos hname]
      rfl
    by_cases hnew : grouping.aggregates.any (·.name = name)
    · simp only [make, steps, if_neg hname, run_get_bind, if_pos hnew]
      rfl
    cases haccepts : op.accepts source.type with
    | true =>
      simp only [make, steps, if_neg hname, run_get_bind, if_neg hnew, haccepts]
      rfl
    | false =>
      simp only [make, steps, if_neg hname, run_get_bind, if_neg hnew, haccepts]
      rfl

/-- A call that fits succeeds. -/
theorem Fits.make {call : Call} (h : call.Fits grouping) :
    call.make grouping = (.ok (), call.result grouping) := by
  rw [make_eq, apply_eq_ok.mpr ⟨h, rfl⟩]

/-- Any other call is refused and changes nothing. -/
theorem exists_refused {call : Call} (h : ¬call.Fits grouping) :
    ∃ error, call.apply grouping = .error error ∧
      call.make grouping = (.error error, grouping) := by
  cases happly : call.apply grouping with
  | ok after => exact absurd (apply_eq_ok.mp happly).1 h
  | error error => exact ⟨error, rfl, by rw [make_eq, happly]⟩

end Call

/-- What calls do to a grouping that can be built can be built. -/
theorem IsBuilt.make (h : grouping.IsBuilt) (call : Call) :
    (call.make grouping).2.IsBuilt := by
  rw [Call.make_eq]
  cases happly : call.apply grouping with
  | error error => exact h
  | ok after =>
    cases call with
    | setKeys keys => exact h.setKeys happly
    | addAggregate name op source => exact h.addAggregate happly

/-- The names of aggregates are not empty, and their operations can be applied
to their fields. -/
theorem IsBuilt.accepts (h : grouping.IsBuilt) :
    ∀ aggregate ∈ grouping.aggregates,
      aggregate.name ≠ "" ∧ aggregate.op.accepts aggregate.source.type := by
  induction h with
  | empty => simp [Grouping.empty]
  | setKeys _ hset ih =>
    obtain ⟨-, rfl⟩ := Scope.setKeys_eq_ok.mp hset
    exact ih
  | @addAggregate grouping after name op source _ hadd ih =>
    have happly : (Call.addAggregate name op source).apply grouping
        = .ok after := hadd
    obtain ⟨⟨hname, -, -, haccepts⟩, rfl⟩ := Call.apply_eq_ok.mp happly
    intro aggregate haggregate
    rcases List.mem_append.mp haggregate with hold | hnew
    · exact ih aggregate hold
    · obtain rfl := List.mem_singleton.mp hnew
      exact ⟨hname, haccepts⟩

/-! ## Answers -/

/-- The aggregate that a call adds if it succeeds. -/
def added? : Call × Outcome Unit → Option Aggregate
  | (.addAggregate name op source, .ok ()) => some ⟨name, op, source⟩
  | _ => none

/-- The keys that a call sets if it succeeds. -/
def keysSet? : Call × Outcome Unit → Option (List FieldRef)
  | (.setKeys keys, .ok ()) => some keys
  | _ => none

theorem aggregates_make (call : Call) (grouping : Grouping) :
    (call.make grouping).2.aggregates = grouping.aggregates ++
      (added? (call, (call.make grouping).1)).toList := by
  by_cases hfits : call.Fits grouping
  · rw [hfits.make]
    cases call <;> simp [Call.result, added?]
  · obtain ⟨error, -, hmake⟩ := Call.exists_refused hfits
    simp [hmake, added?]

theorem keys_make (call : Call) (grouping : Grouping) :
    (call.make grouping).2.keys =
      (keysSet? (call, (call.make grouping).1)).getD grouping.keys := by
  by_cases hfits : call.Fits grouping
  · rw [hfits.make]
    cases call <;> simp [Call.result, keysSet?]
  · obtain ⟨error, -, hmake⟩ := Call.exists_refused hfits
    simp [hmake, keysSet?]

/-! ## Runs of calls -/

theorem makeAll_concat (calls : List Call) (call : Call) :
    makeAll (calls ++ [call]) grouping =
      ((makeAll calls grouping).1
          ++ [(call.make (makeAll calls grouping).2).1],
        (call.make (makeAll calls grouping).2).2) := by
  simp [makeAll, Call.make]

theorem length_makeAll (calls : List Call) :
    (makeAll calls grouping).1.length = calls.length := by
  induction calls using List.reverseRecOn with
  | nil => rfl
  | append_singleton front last ih => simp [makeAll_concat, ih]

theorem isBuilt_makeAll (h : grouping.IsBuilt) (calls : List Call) :
    (makeAll calls grouping).2.IsBuilt := by
  induction calls using List.reverseRecOn with
  | nil => exact h
  | append_singleton front last ih =>
    rw [makeAll_concat]
    exact ih.make last

/-- The aggregates are those of the calls that succeeded, in their order. -/
theorem aggregates_makeAll (calls : List Call) :
    (makeAll calls grouping).2.aggregates = grouping.aggregates ++
      (calls.zip (makeAll calls grouping).1).filterMap added? := by
  induction calls using List.reverseRecOn with
  | nil => simp [makeAll]
  | append_singleton front last ih =>
    rw [makeAll_concat, List.zip_append (length_makeAll front).symm,
      List.filterMap_append, ← List.append_assoc, ← ih, aggregates_make]
    cases hadded : added? (last, (last.make (makeAll front grouping).2).1) <;>
      simp [hadded]

/-- The keys are those of the last call that succeeded in setting them. -/
theorem keys_makeAll (calls : List Call) :
    (makeAll calls grouping).2.keys =
      ((calls.zip (makeAll calls grouping).1).filterMap keysSet?).getLast?.getD
        grouping.keys := by
  induction calls using List.reverseRecOn with
  | nil => simp [makeAll]
  | append_singleton front last ih =>
    rw [makeAll_concat, List.zip_append (length_makeAll front).symm,
      List.filterMap_append, List.getLast?_append, keys_make, ih]
    simp

/-- After any calls on a new grouping, of which some may have been refused,
the aggregates have different names, and these are not empty and have no
underscore, so that none is the name of a key column; and their operations can
be applied to their fields. The aggregates are those of the calls that
succeeded, in their order, and the keys those of the last one that set them.
Whether one call more succeeds is told by what it asks for, and if it is
refused the grouping stays as it was. -/
theorem makeAll_keeps_apart (calls : List Call) :
    let answers := (makeAll calls empty).1
    let grouping := (makeAll calls empty).2
    ((∀ aggregate ∈ grouping.aggregates,
        aggregate.name ≠ "" ∧ '_' ∉ aggregate.name.toList ∧
          aggregate.op.accepts aggregate.source.type) ∧
      (grouping.aggregates.map (·.name)).Nodup ∧
      ∀ key ∈ grouping.keys,
        key.column ∉ grouping.aggregates.map (·.name)) ∧
    (answers.length = calls.length ∧
      grouping.aggregates = (calls.zip answers).filterMap added? ∧
      grouping.keys =
        ((calls.zip answers).filterMap keysSet?).getLast?.getD []) ∧
    ∀ call : Call,
      (call.Fits grouping → ∃ after, call.apply grouping = .ok after ∧
        makeAll (calls ++ [call]) empty = (answers ++ [.ok ()], after)) ∧
      (¬call.Fits grouping → ∃ error, call.apply grouping = .error error ∧
        makeAll (calls ++ [call]) empty
          = (answers ++ [.error error], grouping)) := by
  intro answers grouping
  have hbuilt : grouping.IsBuilt := isBuilt_makeAll .empty calls
  have hseparates := hbuilt.separates
  refine ⟨⟨?_, hseparates.nodup, fun key _ => hseparates.column_not_mem key⟩,
    ⟨length_makeAll calls, aggregates_makeAll calls, keys_makeAll calls⟩, ?_⟩
  · intro aggregate haggregate
    obtain ⟨hname, haccepts⟩ := hbuilt.accepts aggregate haggregate
    exact ⟨hname, hbuilt.underscore_not_mem aggregate haggregate, haccepts⟩
  · intro call
    rw [makeAll_concat]
    constructor
    · intro hfits
      exact ⟨_, Call.apply_eq_ok.mpr ⟨hfits, rfl⟩, by rw [hfits.make]⟩
    · intro hfits
      obtain ⟨error, happly, hmake⟩ := Call.exists_refused hfits
      exact ⟨error, happly, by rw [hmake]⟩

/-- A text field has no maximum, a name cannot be used twice, and keys that
are not given leave those that are set. -/
example :
    let department : FieldRef := ⟨"courses", "dept", .text⟩
    let average : FieldRef := ⟨"courses", "avg", .numeric⟩
    (makeAll [.addAggregate "top" .max department,
      .addAggregate "top" .max average, .setKeys [department],
      .addAggregate "top" .count department, .setKeys []] empty).2
        = ⟨[department], [⟨"top", .max, average⟩]⟩ := by
  decide

end CampusQuery.Query.Grouping
