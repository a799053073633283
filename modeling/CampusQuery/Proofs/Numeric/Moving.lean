/-
CampusQuery.Proofs.Numeric.Moving — a number stays one when its point moves.

A quotient is "no number" only if zero is divided by zero or infinity by
infinity. The powers of ten that a point is moved by are neither
(`tenPower_eq`): the largest of them is far from infinity in units, and the
smallest is one.
-/
import CampusQuery.Json.Number
import CampusQuery.Proofs.Numeric.Digits
import CampusQuery.Proofs.Numeric.Magnitude

namespace CampusQuery.Numeric

namespace Binary64

variable {x y : Binary64} {places : Nat}

/-! ## Powers of ten -/

/-- A power of ten in use is a number, and neither zero nor infinite. -/
theorem tenPower_eq (h : places ≤ longestMove) :
    ∃ magnitude : Magnitude, tenPower places = .signed false magnitude ∧
      magnitude.isFinite ∧ magnitude ≠ .zero := by
  refine ⟨_, rfl, ?_, Magnitude.nearest_ne_zero Nat.one_pos ?_⟩
  · rcases Nat.lt_or_eq_of_le h with hless | rfl
    · have hpower := tenTo_le_tenTo (Nat.le_of_lt_succ hless)
      refine Magnitude.isFinite_nearest ?_
      rw [Nat.div_one]
      calc tenTo places * unitsPerOne
          ≤ tenTo 307 * unitsPerOne := Nat.mul_le_mul_right _ hpower
        _ < twoTo 2097 := by decide +kernel
    · decide +kernel
  · exact Nat.mul_pos (Nat.pow_pos (by decide)) (twoTo_pos 1074)

/-! ## Moving -/

theorem divide_tenPower_ne_nan (hx : x ≠ .nan) (h : places ≤ longestMove) :
    x.divide (tenPower places) ≠ .nan := by
  obtain ⟨magnitude, hpower, hfinite, hzero⟩ := tenPower_eq h
  cases x with
  | nan => exact absurd rfl hx
  | signed negative size =>
    rw [hpower]
    by_cases hsize : size.isFinite
    · simp [divide, hfinite, hzero, hsize]
    · have hne : size ≠ .zero := fun heq => hsize (heq ▸ rfl)
      simp [divide, hfinite, hsize, hne, infinity]

theorem movedDown_ne_nan (hx : x ≠ .nan) (places : Nat) :
    x.movedDown places ≠ .nan := by
  fun_induction movedDown x places with
  | case1 x places hplaces => exact divide_tenPower_ne_nan hx hplaces
  | case2 x => exact hx
  | case3 x places _ _ ih => exact ih (divide_tenPower_ne_nan hx (Nat.le_refl _))

theorem movedUp?_ne_nan (h : x.movedUp? places = some y) : y ≠ .nan := by
  unfold movedUp? at h
  split at h
  · obtain ⟨hfinite, hy⟩ := Option.ite_none_right_eq_some.mp h
    cases hy
    exact ne_nan_of_isFinite hfinite
  · obtain ⟨rfl, hy⟩ := Option.ite_none_right_eq_some.mp h
    cases hy
    exact ne_nan_of_isFinite rfl

theorem moved?_ne_nan {places : Int} (hx : x ≠ .nan)
    (h : x.moved? places = some y) : y ≠ .nan := by
  unfold moved? at h
  split at h
  · exact movedUp?_ne_nan h
  · cases h
    exact movedDown_ne_nan hx _

theorem negate_ne_nan (hx : x ≠ .nan) : x.negate ≠ .nan := by
  cases x with
  | nan => exact absurd rfl hx
  | signed negative magnitude => simp [negate]

end Binary64

end CampusQuery.Numeric
