/-
CampusQuery.Proofs.Query.Reordering — aggregates of rows in another order.

COUNT and AVG do not depend on the order of the rows. MAX and MIN do in one
case only: a text that spells no number is passed over, but not in the first
row, since nothing is compared as greater or less (`compute_agree_iff`).
-/
import CampusQuery.Proofs.Query.Distinct
import CampusQuery.Proofs.Query.Means

namespace CampusQuery.Query

open Numeric Outcome

/-! ## Results -/

/-- Two requests give equal values, or both fail. -/
def Agree : Outcome Value → Outcome Value → Prop
  | .ok v, .ok w => v.equals w
  | .error _, .error _ => True
  | _, _ => False

instance : DecidableRel Agree
  | .ok v, .ok w => inferInstanceAs (Decidable (v.equals w = true))
  | .error _, .error _ => .isTrue trivial
  | .ok _, .error _ => .isFalse id
  | .error _, .ok _ => .isFalse id

/-- Requests for numbers agree if they give the same one and fail together. -/
theorem agree_of_imp {x y : Outcome Binary64}
    (hto : ∀ z, x = .ok z → y = .ok z ∧ z ≠ .nan)
    (hfrom : ∀ z, y = .ok z → x = .ok z) :
    Agree (.number <$> x) (.number <$> y) := by
  cases x with
  | error e =>
    cases y with
    | error _ => trivial
    | ok z => cases hfrom z rfl
  | ok z =>
    obtain ⟨rfl, hnan⟩ := hto z rfl
    exact (Binary64.equals_iff hnan hnan).mpr rfl

/-- The first row has a text that spells no number. -/
def FieldRef.StartsUnread (ref : FieldRef) (rows : List Row) : Prop :=
  ∃ row rest value, rows = row :: rest ∧
    row.get? ref.column = some value ∧ value.toNumber = .nan

theorem FieldRef.Reads.startsUnread_iff {ref : FieldRef} {rows : List Row}
    {values : List Value} (h : ref.Reads rows values) :
    ref.StartsUnread rows ↔
      ∃ rest, values.map Value.toNumber = .nan :: rest := by
  cases h with
  | nil => simp [StartsUnread]
  | cons hvalue _ => simp [StartsUnread, hvalue]

namespace Aggregate

variable {numbers others : List Binary64}

/-! ## Means -/

theorem mapM_toDecimal_perm {decimals : List Decimal}
    (hperm : numbers.Perm others)
    (h : numbers.mapM toDecimal = .ok decimals) :
    ∃ moved, others.mapM toDecimal = .ok moved ∧ decimals.Perm moved := by
  obtain ⟨moved, hmoved, hdecimals⟩ :=
    List.perm_comp_forall₂ hperm.symm (mapM_eq_ok.mp h)
  exact ⟨moved, mapM_eq_ok.mpr hmoved, hdecimals.symm⟩

/-- A mean is the same in any order. -/
theorem meanOf_perm {x : Binary64} (hperm : numbers.Perm others)
    (h : meanOf numbers = .ok x) : meanOf others = .ok x := by
  unfold meanOf at h ⊢
  rw [ite_refuse_eq_ok] at h ⊢
  obtain ⟨hne, h⟩ := h
  obtain ⟨decimals, hdecimals, hx⟩ := bind_eq_ok.mp h
  obtain ⟨moved, hmoved, hsame⟩ := mapM_toDecimal_perm hperm hdecimals
  refine ⟨?_, bind_eq_ok.mpr ⟨moved, hmoved, ?_⟩⟩
  · rwa [List.isEmpty_iff_length_eq_zero, ← hperm.length_eq,
      ← List.isEmpty_iff_length_eq_zero]
  · rwa [← Decimal.sum_perm hsame, ← hperm.length_eq]

theorem meanOf_ne_nan {x : Binary64} (h : meanOf numbers = .ok x) :
    x ≠ .nan := by
  unfold meanOf at h
  obtain ⟨-, h⟩ := ite_refuse_eq_ok.mp h
  obtain ⟨decimals, -, hx⟩ := bind_eq_ok.mp h
  obtain rfl := pure_eq_ok.mp hx
  exact Binary64.noConfusion

/-! ## Extremes -/

theorem not_equals_nan {x y : Binary64} (h : x = .nan ∨ y = .nan) :
    ¬x.equals y := by
  rcases h with rfl | rfl
  · exact Bool.false_ne_true
  · cases x <;> exact Bool.false_ne_true

/-- An extreme depends on the order only as far as the first row counts. -/
theorem agree_extremes {beats : Binary64 → Binary64 → Bool}
    {place : Binary64 → ℚ} (h : Ranks beats place)
    (hplace : ∀ x y, place x = place y → x.value = y.value)
    (op : AggregateOp) (hperm : numbers.Perm others) :
    Agree (.number <$> extremeOf op beats numbers)
        (.number <$> extremeOf op beats others) ↔
      (¬∃ rest, numbers = .nan :: rest) ∧ ¬∃ rest, others = .nan :: rest := by
  cases numbers with
  | nil =>
    obtain rfl := hperm.nil_eq
    simp only [List.nil_eq, reduceCtorEq, exists_false, not_false_eq_true,
      and_self, iff_true]
    trivial
  | cons first rest =>
    obtain ⟨other, more, rfl⟩ : ∃ other more, others = other :: more := by
      refine List.exists_cons_of_ne_nil ?_
      rintro rfl
      cases hperm.eq_nil
    have hstart : (Agree (.number <$> extremeOf op beats (first :: rest))
        (.number <$> extremeOf op beats (other :: more))) ↔
          (extreme beats first rest).equals (extreme beats other more) :=
      Iff.rfl
    simp only [hstart, List.cons.injEq, exists_and_left, exists_eq', and_true]
    constructor
    · intro hequals
      constructor
      · rintro rfl
        exact not_equals_nan (.inl (h.extreme_nan rest)) hequals
      · rintro rfl
        exact not_equals_nan (.inr (h.extreme_nan more)) hequals
    · rintro ⟨hfirst, hother⟩
      rw [Binary64.equals_iff (h.extreme_spec hfirst rest).1
        (h.extreme_spec hother more).1]
      exact hplace _ _ (h.extreme_perm hfirst hother hperm)

/-! ## Rows in another order -/

/-- COUNT and AVG of rows in another order agree with those of the rows as they
are. MAX and MIN do unless a text that spells no number comes first in either
order. -/
theorem compute_agree_iff {ref : FieldRef} {rows moved : List Row}
    {op : AggregateOp} (name : String) (hop : op ≠ .sum)
    (hvalues : ∀ row ∈ rows, ∃ value,
      row.get? ref.column = some value ∧ value ≠ .number .nan)
    (hperm : rows.Perm moved) :
    Agree (compute ⟨name, op, ref⟩ rows) (compute ⟨name, op, ref⟩ moved) ↔
      (op = .max ∨ op = .min →
        ¬ref.StartsUnread rows ∧ ¬ref.StartsUnread moved) := by
  obtain ⟨values, hrows⟩ := exists_forall₂ hvalues
  have hreads : ref.Reads rows (values.map id) := by
    rw [List.map_id]
    exact hrows.imp fun _ _ h => h.1
  obtain ⟨others, hothers, hsame⟩ := hreads.perm hperm
  rw [List.map_id] at hreads hothers
  have hnumbers := hsame.map Value.toNumber
  rw [compute_eq hreads, compute_eq hothers, hreads.startsUnread_iff,
    hothers.startsUnread_iff]
  cases op with
  | sum => exact absurd rfl hop
  | count =>
    have hnan : ∀ v ∈ values, v ≠ .number .nan := by
      intro v hv
      obtain ⟨_, -, -, h⟩ := exists_of_forall₂ hrows.flip hv
      exact h
    refine iff_of_true (agree_of_imp ?_ ?_) (by simp)
    · intro z hz
      obtain rfl := Except.ok.inj hz
      rw [computeOf, Value.countDistinct_perm hnan hsame]
      exact ⟨rfl, Binary64.noConfusion⟩
    · intro z hz
      obtain rfl := Except.ok.inj hz
      rw [computeOf, Value.countDistinct_perm hnan hsame]
  | avg =>
    refine iff_of_true (agree_of_imp ?_ ?_) (by simp)
    · exact fun z hz => ⟨meanOf_perm hnumbers hz, meanOf_ne_nan hz⟩
    · exact fun z hz => meanOf_perm hnumbers.symm hz
  | max =>
    have hagree := agree_extremes ranks_greater
      (fun _ _ h => neg_injective h) .max hnumbers
    exact hagree.trans ⟨fun h _ => h, fun h => h (.inl rfl)⟩
  | min =>
    have hagree := agree_extremes ranks_less (fun _ _ h => h) .min hnumbers
    exact hagree.trans ⟨fun h _ => h, fun h => h (.inr rfl)⟩

/-- Behind another row, a text that spells no number is passed over. -/
theorem compute_agree_textInside :
    Agree
      (compute ⟨"highest", .max, averageField⟩
        [averageRow (.number (.ofInt 80)), averageRow (.text "n/a"),
          averageRow (.number (.ofInt 90))])
      (compute ⟨"highest", .max, averageField⟩
        [averageRow (.number (.ofInt 90)), averageRow (.text "n/a"),
          averageRow (.number (.ofInt 80))]) := by
  have hvalues : ∀ row ∈ [averageRow (.number (.ofInt 80)),
      averageRow (.text "n/a"), averageRow (.number (.ofInt 90))],
      ∃ value, row.get? averageField.column = some value ∧
        value ≠ .number .nan := by
    simp only [List.forall_mem_cons]
    exact ⟨⟨_, rfl, by decide⟩, ⟨_, rfl, by decide⟩, ⟨_, rfl, by decide⟩,
      by simp⟩
  have hstart : ∀ {row : Row} {rest : List Row} {x : Binary64}, x ≠ .nan →
      row = averageRow (.number x) →
      ¬averageField.StartsUnread (row :: rest) := by
    rintro _ rest x hx rfl ⟨_, _, value, hrows, hvalue, hnan⟩
    obtain ⟨rfl, -⟩ := List.cons.inj hrows
    obtain rfl : .number x = value := Option.some.inj hvalue
    exact hx hnan
  refine (compute_agree_iff "highest" (by decide) hvalues
    (by decide +kernel)).mpr fun _ => ⟨?_, ?_⟩
  · exact hstart Binary64.noConfusion rfl
  · exact hstart Binary64.noConfusion rfl

/-- In the first row it is what MAX gives, and no value is equal to that. -/
theorem not_agree_textFirst :
    [averageRow (.text "n/a"), averageRow (.number (.ofInt 80))].Perm
      [averageRow (.number (.ofInt 80)), averageRow (.text "n/a")] ∧
    ¬Agree
      (compute ⟨"highest", .max, averageField⟩
        [averageRow (.text "n/a"), averageRow (.number (.ofInt 80))])
      (compute ⟨"highest", .max, averageField⟩
        [averageRow (.number (.ofInt 80)), averageRow (.text "n/a")]) := by
  decide +kernel

end Aggregate
end CampusQuery.Query
