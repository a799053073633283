/-
CampusQuery.Proofs.Query.Aggregate — what an aggregate looks at.

Of the rows only the values in the source column count (`compute_eq`). An
extreme is one of the numbers (`extreme_mem`).
-/
import Mathlib.Data.List.Perm.Basic
import Mathlib.Order.Lattice
import CampusQuery.Proofs.Outcome
import CampusQuery.Query.Aggregate

namespace CampusQuery.Query

open Numeric Outcome

/-- The rows have these values in the column of the field. -/
def FieldRef.Reads (ref : FieldRef) (rows : List Row) (values : List Value) :
    Prop :=
  List.Forall₂ (fun row value => row.get? ref.column = some value) rows values

namespace FieldRef

variable {ref : FieldRef} {rows others : List Row}

theorem Reads.length_eq {values : List Value} (h : ref.Reads rows values) :
    rows.length = values.length := List.Forall₂.length_eq h

theorem Reads.ne_nil {values : List Value} (h : ref.Reads rows values)
    (hrows : rows ≠ []) : values ≠ [] := by
  rintro rfl
  exact hrows (List.length_eq_zero_iff.mp h.length_eq)

/-- Rows in another order have the same values in that order. -/
theorem Reads.perm {α : Type} {value : α → Value} {items : List α}
    (h : ref.Reads rows (items.map value)) (hperm : rows.Perm others) :
    ∃ moved : List α,
      ref.Reads others (moved.map value) ∧ items.Perm moved := by
  rw [Reads, List.forall₂_map_right_iff] at h
  obtain ⟨moved, hmoved, hitems⟩ := List.perm_comp_forall₂ hperm.symm h
  exact ⟨moved, List.forall₂_map_right_iff.mpr hmoved, hitems.symm⟩

end FieldRef

namespace Aggregate

variable {aggregate : Aggregate} {rows : List Row} {values : List Value}

/-! ## Columns -/

theorem sourceValue_eq_ok {row : Row} {value : Value} :
    aggregate.sourceValue row = .ok value ↔
      row.get? aggregate.source.column = some value := by
  unfold sourceValue
  cases row.get? aggregate.source.column with
  | none => simp
  | some found => simp

/-- An aggregate is computed over the values of the column alone. -/
theorem compute_eq {ref : FieldRef} (h : ref.Reads rows values)
    (name : String) (op : AggregateOp) :
    compute ⟨name, op, ref⟩ rows = .number <$> computeOf op values := by
  have hvalues : rows.mapM (sourceValue ⟨name, op, ref⟩) = .ok values := by
    refine mapM_eq_ok.mpr (List.Forall₂.imp (fun row value hget => ?_) h)
    exact sourceValue_eq_ok.mpr hget
  rw [compute, hvalues]
  rfl

theorem map_toNumber_number (numbers : List Binary64) :
    (numbers.map Value.number).map Value.toNumber = numbers := by
  rw [List.map_map]
  exact List.map_id numbers

/-! ## Extremes -/

variable {beats : Binary64 → Binary64 → Bool}

theorem extreme_mem (first : Binary64) (rest : List Binary64) :
    extreme beats first rest ∈ first :: rest := by
  induction rest generalizing first with
  | nil => simp [extreme]
  | cons x rest ih =>
    have hstep : extreme beats first (x :: rest)
        = extreme beats (if beats x first then x else first) rest := rfl
    rw [hstep]
    rcases List.mem_cons.mp (ih (if beats x first then x else first)) with
      hbest | hrest
    · rw [hbest]
      split <;> simp
    · exact List.mem_cons_of_mem _ (List.mem_cons_of_mem _ hrest)

/-- Of two numbers the one at the lesser place wins. "No number" neither wins
nor loses. -/
structure Ranks {κ : Type} [LinearOrder κ]
    (beats : Binary64 → Binary64 → Bool) (place : Binary64 → κ) : Prop where
  beats_iff : ∀ {x y}, x ≠ .nan → y ≠ .nan → (beats x y ↔ place x < place y)
  nan_beats : ∀ x, beats .nan x = false
  beats_nan : ∀ x, beats x .nan = false

section

variable {κ : Type} [LinearOrder κ] {place : Binary64 → κ}

/-- "No number" in front stays there. -/
theorem Ranks.extreme_nan (h : Ranks beats place) (rest : List Binary64) :
    extreme beats .nan rest = .nan := by
  induction rest with
  | nil => rfl
  | cons x rest ih =>
    rw [extreme, List.foldl_cons, h.beats_nan]
    exact ih

/-- Behind a number "no number" is passed over, and of the others none goes
before the extreme. -/
theorem Ranks.extreme_spec (h : Ranks beats place) {first : Binary64}
    (hfirst : first ≠ .nan) (rest : List Binary64) :
    extreme beats first rest ≠ .nan ∧ ∀ x ∈ first :: rest, x ≠ .nan →
      place (extreme beats first rest) ≤ place x := by
  induction rest generalizing first with
  | nil => simp [extreme, hfirst]
  | cons next rest ih =>
    have hstep : extreme beats first (next :: rest)
        = extreme beats (if beats next first then next else first) rest := rfl
    rw [hstep, List.forall_mem_cons, List.forall_mem_cons]
    by_cases hwins : beats next first
    · have hnext : next ≠ .nan := by
        rintro rfl
        exact absurd hwins (by simp [h.nan_beats])
      obtain ⟨hresult, hle⟩ := ih hnext
      rw [List.forall_mem_cons] at hle
      have hless := (h.beats_iff hnext hfirst).mp hwins
      rw [if_pos hwins]
      exact ⟨hresult, fun _ => (hle.1 hnext).trans hless.le, hle⟩
    · obtain ⟨hresult, hle⟩ := ih hfirst
      rw [List.forall_mem_cons] at hle
      rw [if_neg hwins]
      refine ⟨hresult, hle.1, fun hnext => ?_, hle.2⟩
      have hless := mt (h.beats_iff hnext hfirst).mpr hwins
      exact (hle.1 hfirst).trans (not_lt.mp hless)

/-- In another order the extreme is at the same place. -/
theorem Ranks.extreme_perm (h : Ranks beats place) {first other : Binary64}
    {rest more : List Binary64} (hfirst : first ≠ .nan) (hother : other ≠ .nan)
    (hperm : (first :: rest).Perm (other :: more)) :
    place (extreme beats first rest) = place (extreme beats other more) := by
  obtain ⟨hleft, hleftLe⟩ := h.extreme_spec hfirst rest
  obtain ⟨hright, hrightLe⟩ := h.extreme_spec hother more
  refine le_antisymm (hleftLe _ ?_ hright) (hrightLe _ ?_ hleft)
  · exact hperm.mem_iff.mpr (extreme_mem other more)
  · exact hperm.mem_iff.mp (extreme_mem first rest)

end

theorem mem_of_extremeOf {op : AggregateOp} {numbers : List Binary64}
    {x : Binary64} (h : extremeOf op beats numbers = .ok x) : x ∈ numbers := by
  cases numbers with
  | nil => exact absurd h refuse_ne_ok
  | cons first rest =>
    obtain rfl := Except.ok.inj h
    exact extreme_mem first rest

end Aggregate

/-! ## Averages -/

def averageField : FieldRef := ⟨"courses", "avg", .numeric⟩

def averageRow (value : Value) : Row := .ofColumns [("courses_avg", value)]

def averageRows (numbers : List Binary64) : List Row :=
  numbers.map fun x => averageRow (.number x)

theorem reads_averageRows (numbers : List Binary64) :
    averageField.Reads (averageRows numbers) (numbers.map .number) := by
  rw [FieldRef.Reads, averageRows, List.forall₂_map_left_iff,
    List.forall₂_map_right_iff, List.forall₂_same]
  intro x _
  rfl

end CampusQuery.Query
