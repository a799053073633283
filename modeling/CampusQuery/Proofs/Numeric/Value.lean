/-
CampusQuery.Proofs.Numeric.Value — numbers as rational ones.

Numbers compare as their values do (`compare?_eq`). A finite number is as near
to a rational one as any (`IsNearest`) if its magnitude is the one that the
size rounds to. This is so for sums (`add_spec`), which are also accurate to a
2 ^ 53th part: a sum of two numbers is a whole number of units, and if that is
small then it is exact.
-/
import Mathlib.Order.Compare
import CampusQuery.Proofs.Numeric.Nearest

namespace CampusQuery.Numeric

namespace Magnitude

theorem cast_unitsPerOne_pos : (0 : ℚ) < unitsPerOne :=
  Nat.cast_pos.mpr unitsPerOne_pos

/-- The exact value of a finite magnitude. -/
def value (m : Magnitude) : ℚ := m.units / unitsPerOne

theorem value_nonneg (m : Magnitude) : 0 ≤ m.value :=
  div_nonneg (Nat.cast_nonneg _) (Nat.cast_nonneg _)

theorem value_zero : zero.value = 0 := by
  have hunits : zero.units = 0 := unitsAt_zero
  rw [value, hunits, Nat.cast_zero, zero_div]

theorem value_le_value {m n : Magnitude} :
    m.value ≤ n.value ↔ m.rank ≤ n.rank := by
  rw [value, value, div_le_div_iff_of_pos_right cast_unitsPerOne_pos,
    Nat.cast_le]
  exact strictMono_unitsAt.le_iff_le

/-- Distances are the same in units. -/
theorem abs_value_sub (m : Magnitude) (q : ℚ) :
    |m.value - q| = |(unitsAt m.rank : ℚ) - q * unitsPerOne| / unitsPerOne := by
  have hone := cast_unitsPerOne_pos
  have hdiff : m.value - q
      = (unitsAt m.rank - q * unitsPerOne) / unitsPerOne := by
    rw [sub_div, mul_div_cancel_right₀ _ hone.ne']
    rfl
  rw [hdiff, abs_div, abs_of_pos hone]

theorem roundsTo_zero : RoundsTo 0 0 := by
  refine ⟨?_, ?_, fun _ => rfl⟩
  · rw [Nat.zero_sub, unitsAt_zero]
    simp
  · rw [mul_zero]
    positivity

theorem roundsTo_nearest {num den : Nat} (hden : 0 < den)
    (h : (nearest num den).isFinite) :
    RoundsTo (num / den) (nearest num den).rank := by
  have hlt : (nearest num den).rank < infinityRank := of_decide_eq_true h
  have hrank : (nearest num den).rank = nearestRank num den := by
    rw [rank_nearest] at hlt ⊢
    omega
  rw [hrank]
  exact roundsTo_nearestRank num hden

/-- A whole number of units is changed by a 2 ^ 53th part at most. -/
theorem RoundsTo.error_le_of_nat {units rank : Nat}
    (h : RoundsTo (units : ℚ) rank) :
    2 * binade * |(unitsAt rank : ℚ) - units| ≤ units := by
  have hbinade : (0 : ℚ) < binade := Nat.cast_pos.mpr binade_pos
  have herror := h.error_le
  by_cases hlarge : binade ≤ units
  · refine herror.trans (max_le ?_ (min_le_left _ _))
    exact_mod_cast hlarge
  · -- Below 2 ^ 52 every whole number is that of a magnitude.
    have hsmall : (units : ℚ) < binade := by
      exact_mod_cast Nat.lt_of_not_le hlarge
    rw [max_eq_left ((min_le_left _ _).trans hsmall.le)] at herror
    have hhalf : |(unitsAt rank : ℚ) - units| < 1 := by
      by_contra hge
      nlinarith
    have hsame : (unitsAt rank : Int) - units = 0 := by
      refine Int.abs_lt_one_iff.mp ?_
      exact_mod_cast hhalf
    have hcast : (unitsAt rank : ℚ) - units = 0 := by exact_mod_cast hsame
    rw [hcast, abs_zero, mul_zero]
    exact Nat.cast_nonneg _

/-- No magnitude is nearer than the one that a value rounds to. -/
theorem RoundsTo.abs_value_sub_le {m : Magnitude} {q : ℚ}
    (h : RoundsTo (q * unitsPerOne) m.rank) (n : Magnitude) :
    |m.value - q| ≤ |n.value - q| ∧
      (|m.value - q| = |n.value - q| → n.rank = m.rank ∨ m.rank % 2 = 0) := by
  have hone := cast_unitsPerOne_pos
  obtain ⟨hle, heven⟩ := h.nearest n.rank
  rw [abs_value_sub, abs_value_sub]
  refine ⟨div_le_div_of_nonneg_right hle hone.le, fun heq => heven ?_⟩
  exact (div_left_inj' hone.ne').mp heq

end Magnitude

namespace Binary64

open Magnitude

variable {x y : Binary64} {negative : Bool} {m : Magnitude} {q : ℚ}

/-! ## Values -/

def value : Binary64 → ℚ
  | nan => 0
  | signed negative m => if negative then -m.value else m.value

theorem value_zero : zero.value = 0 := Magnitude.value_zero

theorem abs_value (negative : Bool) (m : Magnitude) :
    |(signed negative m).value| = m.value := by
  cases negative <;> simp [value, m.value_nonneg]

/-- The units of a finite number are its value. -/
theorem value_of_units? {units : Int} (h : x.units? = some units) :
    x.isFinite ∧ x.value = units / unitsPerOne := by
  cases x with
  | nan => cases h
  | signed negative m =>
    simp only [units?] at h
    split at h
    · rename_i hfinite
      cases h
      refine ⟨hfinite, ?_⟩
      cases negative with
      | false => rfl
      | true =>
        rw [if_pos rfl, Int.cast_neg, neg_div]
        rfl
    · cases h

theorem units?_eq_none : x.units? = none ↔ ¬x.isFinite := by
  cases x with
  | nan => exact iff_of_true rfl Bool.false_ne_true
  | signed negative m => exact ite_eq_right_iff.trans (by simp [isFinite])

/-! ## Order -/

/-- The value of a place in the order. -/
def valueAt (key : Int) : ℚ :=
  if key < 0 then -(unitsAt key.natAbs / unitsPerOne)
  else unitsAt key.natAbs / unitsPerOne

theorem value_of_orderKey? {key : Int} (h : x.orderKey? = some key) :
    x.value = valueAt key := by
  cases x with
  | nan => cases h
  | signed negative m =>
    cases h
    cases negative with
    | false => exact (if_neg (Int.not_lt.mpr (Int.natCast_nonneg _))).symm
    | true =>
      by_cases hrank : m.rank = 0
      · change -(unitsAt m.rank / unitsPerOne : ℚ) = valueAt (-(m.rank : Int))
        rw [hrank, unitsAt_zero, Nat.cast_zero, zero_div, neg_zero]
        exact Magnitude.value_zero.symm
      · have hneg : -(m.rank : Int) < 0 := by omega
        change -m.value = valueAt (-(m.rank : Int))
        rw [valueAt, if_pos hneg, Int.natAbs_neg, Int.natAbs_natCast]
        rfl

theorem valueAt_lt {a b : Int} (hlt : a < b) : valueAt a < valueAt b := by
  have hone := cast_unitsPerOne_pos
  have hgrow : ∀ {r s : Nat}, r < s →
      (unitsAt r / unitsPerOne : ℚ) < unitsAt s / unitsPerOne := fun h =>
    div_lt_div_of_pos_right (cast_unitsAt_lt h) hone
  unfold valueAt
  by_cases ha : a < 0
  · rw [if_pos ha]
    have hsize := hgrow (show a.natAbs > 0 by omega)
    rw [unitsAt_zero, Nat.cast_zero, zero_div] at hsize
    by_cases hb : b < 0
    · rw [if_pos hb]
      exact neg_lt_neg (hgrow (by omega))
    · rw [if_neg hb]
      have hnonneg : (0 : ℚ) ≤ unitsAt b.natAbs / unitsPerOne :=
        div_nonneg (Nat.cast_nonneg _) (Nat.cast_nonneg _)
      linarith
  · rw [if_neg ha, if_neg (by omega)]
    exact hgrow (by omega)

/-- Numbers compare as their values do. -/
theorem compare?_eq (hx : x ≠ .nan) (hy : y ≠ .nan) :
    x.compare? y = some (compare x.value y.value) := by
  have hkey : ∀ {z : Binary64}, z ≠ .nan → ∃ key, z.orderKey? = some key := by
    intro z hz
    cases z with
    | nan => exact absurd rfl hz
    | signed => exact ⟨_, rfl⟩
  obtain ⟨a, ha⟩ := hkey hx
  obtain ⟨b, hb⟩ := hkey hy
  have hmono : StrictMono valueAt := fun _ _ => valueAt_lt
  have hsame := hmono.cmp_map_eq a b
  rw [cmp_eq_compare, cmp_eq_compare] at hsame
  rw [value_of_orderKey? ha, value_of_orderKey? hb, hsame]
  simp only [compare?, ha, hb]

theorem less_iff (hx : x ≠ .nan) (hy : y ≠ .nan) :
    x.less y ↔ x.value < y.value := by
  simp [less, compare?_eq hx hy, compare_lt_iff_lt]

theorem greater_iff (hx : x ≠ .nan) (hy : y ≠ .nan) :
    x.greater y ↔ y.value < x.value := by
  simp [greater, compare?_eq hx hy, compare_gt_iff_gt]

theorem equals_iff (hx : x ≠ .nan) (hy : y ≠ .nan) :
    x.equals y ↔ x.value = y.value := by
  simp [equals, compare?_eq hx hy]

/-! ## Nearest numbers -/

/-- Whether the last of the significant bits is zero. -/
def isEven : Binary64 → Bool
  | nan => false
  | signed _ m => m.rank % 2 = 0

/-- No finite number is nearer to the rational one, and another one is as near
only if this one is even. -/
structure IsNearest (x : Binary64) (q : ℚ) : Prop where
  isFinite : x.isFinite
  nearest : ∀ y : Binary64, y.isFinite → |x.value - q| ≤ |y.value - q|
  even : ∀ y : Binary64, y.isFinite → |x.value - q| = |y.value - q| →
    y.value = x.value ∨ x.isEven

/-- With the right sign only the sizes count. -/
theorem abs_signed_sub (hsign : q ≠ 0 → (negative ↔ q < 0)) :
    |(signed negative m).value - q| = abs (m.value - |q|) := by
  rcases lt_trichotomy q 0 with hneg | rfl | hpos
  · obtain rfl : negative = true := (hsign hneg.ne).mpr hneg
    have hvalue : (signed true m).value = -m.value := rfl
    rw [abs_of_neg hneg, hvalue, ← abs_neg]
    congr 1
    ring
  · rw [sub_zero, abs_value, abs_zero, sub_zero, abs_of_nonneg m.value_nonneg]
  · obtain rfl : negative = false := by
      simpa [hpos.not_gt] using hsign hpos.ne'
    rw [abs_of_pos hpos]
    rfl

/-- A number of the right sign is nearest if its magnitude is. -/
theorem isNearest_of_roundsTo (hfinite : m.isFinite)
    (h : RoundsTo (|q| * unitsPerOne) m.rank)
    (hsign : q ≠ 0 → (negative ↔ q < 0)) :
    (signed negative m).IsNearest q := by
  have hself := abs_signed_sub (m := m) hsign
  have hother : ∀ t n, abs (n.value - |q|) ≤ |(signed t n).value - q| := by
    intro t n
    rw [← abs_value t n]
    exact abs_abs_sub_abs_le _ _
  have hle : ∀ y : Binary64, y.isFinite →
      |(signed negative m).value - q| ≤ |y.value - q| := by
    intro y hy
    cases y with
    | nan => cases hy
    | signed t n =>
      rw [hself]
      exact (h.abs_value_sub_le n).1.trans (hother t n)
  refine ⟨hfinite, hle, fun y hy heq => ?_⟩
  cases y with
  | nan => cases hy
  | signed t n =>
    have hsame : abs (m.value - |q|) = abs (n.value - |q|) :=
      le_antisymm (h.abs_value_sub_le n).1 (hself ▸ heq ▸ hother t n)
    rcases (h.abs_value_sub_le n).2 hsame with hrank | heven
    · left
      have hsizes : |(signed negative m).value| = |(signed t n).value| := by
        rw [abs_value, abs_value, Magnitude.value, Magnitude.value, units,
          units, hrank]
      rcases abs_eq_abs.mp heq with hdiff | hdiff
      · exact (sub_left_inj.mp hdiff).symm
      · rcases abs_eq_abs.mp hsizes with hvalue | hvalue
        · exact hvalue.symm
        · -- Opposite numbers are as near as one another to zero only.
          have hq : q = 0 := by linarith
          have hzero := hle zero (by decide)
          rw [hq, sub_zero, sub_zero, Binary64.value_zero, abs_zero] at hzero
          have hnone := abs_nonpos_iff.mp hzero
          linarith
    · exact .inr (decide_eq_true heven)

theorem isNearest_ofRatio {negative : Bool} {num den : Nat} {q : ℚ}
    (hden : 0 < den) (hsize : |q| = num / den)
    (hsign : q ≠ 0 → (negative ↔ q < 0))
    (h : (ofRatio negative num den).isFinite) :
    (ofRatio negative num den).IsNearest q := by
  have hrounds := roundsTo_nearest hden h
  rw [Nat.cast_mul, mul_div_right_comm, ← hsize] at hrounds
  exact isNearest_of_roundsTo h hrounds hsign

/-- Whole numbers of 53 bits are exact. -/
theorem value_ofInt {n : Nat} (h : n < twoTo 53) :
    (ofInt n).isFinite ∧ (ofInt n).value = n := by
  obtain ⟨rank, hfinite, hunits⟩ := exists_unitsAt_eq h
  have hrounds := roundsTo_nearestRank (n * unitsPerOne) Nat.one_pos
  have hself := roundsTo_unitsAt rank
  rw [Nat.cast_one, div_one, ← hunits] at hrounds
  have hrank := hrounds.unique hself
  rw [hunits] at hrank
  have hsame : (nearest (n * unitsPerOne) 1).rank = rank := by
    rw [rank_nearest, hrank]
    omega
  have hnonneg : ¬(n : Int) < 0 := by omega
  simp only [ofInt, ofRatio, Int.natAbs_natCast, decide_eq_false hnonneg]
  refine ⟨decide_eq_true (hsame ▸ hfinite), ?_⟩
  change (unitsAt _ / unitsPerOne : ℚ) = n
  rw [hsame, hunits, Nat.cast_mul,
    mul_div_cancel_right₀ _ cast_unitsPerOne_pos.ne']

/-! ## Addition -/

/-- Adding up units is exact but for one rounding, by a 2 ^ 53th part of the
result at most. -/
theorem ofUnits_spec {total : Int} {bothNegative : Bool}
    (h : (ofUnits total bothNegative).isFinite) :
    (ofUnits total bothNegative).IsNearest (total / unitsPerOne) ∧
      2 * binade * |(ofUnits total bothNegative).value - total / unitsPerOne|
        ≤ |(total / unitsPerOne : ℚ)| := by
  have hone := cast_unitsPerOne_pos
  unfold ofUnits at h ⊢
  split
  · rename_i hzero
    rw [hzero, Int.cast_zero, zero_div]
    refine ⟨isNearest_of_roundsTo (by decide) ?_ (fun hne => absurd rfl hne), ?_⟩
    · rw [abs_zero, zero_mul]
      exact roundsTo_zero
    · rw [sub_zero, abs_value, Magnitude.value_zero, mul_zero, abs_zero]
  · rename_i hne
    rw [if_neg hne] at h
    have hsize : |(total / unitsPerOne : ℚ)| * unitsPerOne = total.natAbs := by
      rw [abs_div, abs_of_pos hone, div_mul_cancel₀ _ hone.ne', Nat.cast_natAbs,
        Int.cast_abs]
    have hrounds := roundsTo_nearest Nat.one_pos h
    rw [Nat.cast_one, div_one, ← hsize] at hrounds
    have hsign : (total / unitsPerOne : ℚ) ≠ 0 →
        (decide (total < 0) = true ↔ (total / unitsPerOne : ℚ) < 0) := by
      intro _
      rw [decide_eq_true_iff, div_lt_iff₀ hone, zero_mul, Int.cast_lt_zero]
    refine ⟨isNearest_of_roundsTo h hrounds hsign, ?_⟩
    rw [abs_signed_sub hsign, abs_value_sub, hsize, ← mul_div_assoc,
      div_le_iff₀ hone, hsize]
    exact (hsize ▸ hrounds).error_le_of_nat

/-- A finite sum is made of the units of two finite numbers. -/
theorem add_eq_ofUnits (h : (x.add y).isFinite) :
    ∃ a b bothNegative, x.units? = some a ∧ y.units? = some b ∧
      x.add y = ofUnits (a + b) bothNegative := by
  cases x with
  | nan => cases h
  | signed s m =>
    cases y with
    | nan => cases h
    | signed t n =>
      unfold add at h ⊢
      cases hx : (signed s m).units? with
      | none =>
        have hinfinite := units?_eq_none.mp hx
        cases hy : (signed t n).units? with
        | none =>
          simp only [hx, hy] at h
          split at h
          · exact absurd h hinfinite
          · cases h
        | some b =>
          simp only [hx, hy] at h
          exact absurd h hinfinite
      | some a =>
        cases hy : (signed t n).units? with
        | none =>
          simp only [hx, hy] at h
          exact absurd h (units?_eq_none.mp hy)
        | some b => exact ⟨a, b, s && t, rfl, rfl, by simp only [hx, hy]⟩

/-- A finite sum is the nearest number to the exact one, and off by a 2 ^ 53th
part of it at most. -/
theorem add_spec (h : (x.add y).isFinite) :
    x.isFinite ∧ y.isFinite ∧ (x.add y).IsNearest (x.value + y.value) ∧
      2 * binade * |(x.add y).value - (x.value + y.value)|
        ≤ |x.value + y.value| := by
  obtain ⟨a, b, bothNegative, hx, hy, hadd⟩ := add_eq_ofUnits h
  obtain ⟨hxfinite, hxvalue⟩ := value_of_units? hx
  obtain ⟨hyfinite, hyvalue⟩ := value_of_units? hy
  have htotal : x.value + y.value = ((a + b : Int) : ℚ) / unitsPerOne := by
    rw [hxvalue, hyvalue, ← add_div, Int.cast_add]
  rw [hadd] at h ⊢
  rw [htotal]
  exact ⟨hxfinite, hyfinite, ofUnits_spec h⟩

end Binary64
end CampusQuery.Numeric
