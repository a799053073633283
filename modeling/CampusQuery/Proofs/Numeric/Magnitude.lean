/-
CampusQuery.Proofs.Numeric.Magnitude — the values of magnitudes.

The value grows with the rank, by a step that doubles with each binade
(`unitsAt_normal`). It is always more than a 10 ^ 16th part of the value, so
seventeen decimal digits are enough to tell neighbours (`two_mul_unitsAt_lt`).
Rounding a quotient gives neither zero (`nearest_ne_zero`) nor infinity
(`isFinite_nearest`) unless it is very small or very large.
-/
import Mathlib.Order.Monotone.Basic
import CampusQuery.Numeric.Binary64

namespace CampusQuery.Numeric

theorem twoTo_pos (n : Nat) : 0 < twoTo n := Nat.pow_pos (by decide)

theorem twoTo_le_twoTo {m n : Nat} (h : m ≤ n) : twoTo m ≤ twoTo n :=
  Nat.pow_le_pow_right (by decide) h

theorem binade_pos : 0 < binade := twoTo_pos 52

theorem unitsPerOne_pos : 0 < unitsPerOne := twoTo_pos 1074

theorem binade_le_unitsPerOne : binade ≤ unitsPerOne :=
  twoTo_le_twoTo (by decide)

theorem le_roundHalfEven (num den : Nat) :
    num / den ≤ roundHalfEven num den := by
  unfold roundHalfEven
  dsimp only
  split <;> [skip; split <;> [skip; split]] <;> omega

theorem roundHalfEven_le (num den : Nat) :
    roundHalfEven num den ≤ num / den + 1 := by
  unfold roundHalfEven
  dsimp only
  split <;> [skip; split <;> [skip; split]] <;> omega

namespace Magnitude

/-! ## Units -/

/-- Magnitudes are one unit apart as far as the first power of two. -/
theorem unitsAt_of_le {rank : Nat} (h : rank ≤ binade) :
    unitsAt rank = rank := by
  unfold unitsAt
  by_cases hlt : rank < binade
  · rw [if_pos (Nat.div_eq_of_lt hlt)]
  · obtain rfl : rank = binade := Nat.le_antisymm h (Nat.le_of_not_lt hlt)
    rw [Nat.div_self binade_pos, Nat.mod_self, if_neg Nat.one_ne_zero]
    exact Nat.mul_one _

/-- The magnitudes from one power of two to the next, both included. -/
theorem unitsAt_normal {step : Nat} (h : step ≤ binade) (power : Nat) :
    unitsAt ((power + 1) * binade + step)
      = (binade + step) * twoTo power := by
  have hpos := binade_pos
  unfold unitsAt
  by_cases hlt : step < binade
  · have hdiv : ((power + 1) * binade + step) / binade = power + 1 := by
      rw [Nat.mul_comm, Nat.mul_add_div hpos, Nat.div_eq_of_lt hlt,
        Nat.add_zero]
    rw [hdiv, if_neg (Nat.succ_ne_zero _), Nat.mul_comm (power + 1),
      Nat.mul_add_mod, Nat.mod_eq_of_lt hlt]
    rfl
  · obtain rfl : step = binade := Nat.le_antisymm h (Nat.le_of_not_lt hlt)
    have heq : (power + 1) * binade + binade = binade * (power + 2) := by
      rw [Nat.mul_comm binade, ← Nat.succ_mul]
    rw [heq, Nat.mul_div_cancel_left _ hpos, Nat.mul_mod_right,
      if_neg (Nat.succ_ne_zero _)]
    change binade * (twoTo power * 2) = _
    rw [← Nat.mul_two, Nat.mul_assoc, Nat.mul_comm 2]

/-- A rank is that of a magnitude below the first power of two, or it lies a
number of steps above one. -/
theorem rank_cases (rank : Nat) :
    rank < binade ∨ ∃ power step, step < binade ∧
      rank = (power + 1) * binade + step := by
  by_cases h : rank < binade
  · exact .inl h
  · refine .inr ⟨rank / binade - 1, rank % binade,
      Nat.mod_lt _ binade_pos, ?_⟩
    have hquot : 0 < rank / binade :=
      Nat.div_pos (Nat.le_of_not_lt h) binade_pos
    rw [Nat.sub_add_cancel hquot, Nat.mul_comm, Nat.div_add_mod]

theorem unitsAt_lt_succ (rank : Nat) : unitsAt rank < unitsAt (rank + 1) := by
  rcases rank_cases rank with hsmall | ⟨power, step, hstep, rfl⟩
  · rw [unitsAt_of_le hsmall.le, unitsAt_of_le hsmall]
    exact Nat.lt_succ_self rank
  · rw [unitsAt_normal hstep.le, Nat.add_assoc, unitsAt_normal hstep]
    exact Nat.mul_lt_mul_of_pos_right (Nat.lt_succ_self _) (twoTo_pos power)

theorem strictMono_unitsAt : StrictMono unitsAt :=
  strictMono_nat_of_lt_succ unitsAt_lt_succ

theorem unitsAt_zero : unitsAt 0 = 0 := unitsAt_of_le (Nat.zero_le _)

theorem units_eq_zero {m : Magnitude} : m.units = 0 ↔ m.rank = 0 := by
  constructor
  · intro h
    exact strictMono_unitsAt.injective (h.trans unitsAt_zero.symm)
  · intro h
    rw [units, h, unitsAt_zero]

/-- The two neighbours of a magnitude are far enough apart for seventeen
digits to tell them. -/
theorem two_mul_unitsAt_lt {rank : Nat} (h : rank ≠ 0) :
    2 * unitsAt rank + tenTo 16 * unitsAt (rank - 1)
      < tenTo 16 * unitsAt (rank + 1) := by
  have hbinade : binade = 4503599627370496 := rfl
  rw [show tenTo 16 = 10000000000000000 from rfl]
  rcases rank_cases rank with hsmall | ⟨power, step, hstep, rfl⟩
  · rw [unitsAt_of_le hsmall.le, unitsAt_of_le hsmall,
      unitsAt_of_le (Nat.le_trans (Nat.sub_le rank 1) hsmall.le)]
    omega
  · have hpos := twoTo_pos power
    have hproduct : binade * twoTo power = 4503599627370496 * twoTo power :=
      congrArg (· * twoTo power) hbinade
    have hle : step * twoTo power ≤ binade * twoTo power :=
      Nat.mul_le_mul_right _ hstep.le
    have hvalue : ∀ {step}, step ≤ binade →
        unitsAt ((power + 1) * binade + step)
          = binade * twoTo power + step * twoTo power := fun h => by
      rw [unitsAt_normal h, Nat.add_mul]
    rw [Nat.add_assoc, hvalue hstep.le, hvalue hstep, Nat.succ_mul step]
    cases step with
    | zero =>
      have hbefore := strictMono_unitsAt
        (show (power + 1) * binade + 0 - 1 < (power + 1) * binade + 0 by omega)
      rw [hvalue (Nat.zero_le _)] at hbefore
      omega
    | succ step =>
      rw [← Nat.add_assoc, Nat.add_sub_cancel,
        hvalue (Nat.le_of_succ_le hstep.le)]
      rw [Nat.succ_mul step] at hle ⊢
      omega

/-! ## Rounding -/

/-- What is at least one unit is not rounded to zero. -/
theorem nearest_ne_zero {num den : Nat} (hden : 0 < den) (h : den ≤ num) :
    nearest num den ≠ .zero := by
  intro hzero
  have hrank := congrArg rank hzero
  simp only [nearest, zero] at hrank
  generalize hshift : (num / den).log2 - 52 = shift at hrank
  have hinfinity : 0 < infinityRank := Nat.mul_pos (by decide) binade_pos
  have hsum : shift * binade + roundHalfEven num (den * twoTo shift) = 0 := by
    omega
  obtain ⟨hstep, hround⟩ := Nat.add_eq_zero_iff.mp hsum
  -- Without a shift the quotient itself is rounded.
  obtain rfl : shift = 0 :=
    (Nat.mul_eq_zero.mp hstep).resolve_right binade_pos.ne'
  have hone : 0 < num / den := Nat.div_pos h hden
  have hfloor := le_roundHalfEven num (den * twoTo 0)
  rw [hround, show twoTo 0 = 1 from rfl, Nat.mul_one] at hfloor
  omega

theorem log2_lt_of_lt_twoTo {n bits : Nat} (hbits : 0 < bits)
    (h : n < twoTo bits) : n.log2 < bits := by
  by_cases hzero : n = 0
  · rwa [hzero, Nat.log2_zero]
  · exact (Nat.log2_lt hzero).mpr h

/-- A shift by all but 52 bits leaves no more than 53. -/
theorem shifted_lt {quotient shift : Nat} (h : quotient.log2 ≤ 52 + shift) :
    quotient / twoTo shift < twoTo 53 := by
  rw [Nat.div_lt_iff_lt_mul (twoTo_pos shift)]
  calc quotient
      < twoTo (quotient.log2 + 1) := Nat.lt_log2_self
    _ ≤ twoTo (53 + shift) := Nat.pow_le_pow_right (by decide) (by omega)
    _ = twoTo 53 * twoTo shift := Nat.pow_add 2 53 shift

/-- What is below 2 ^ 2097 units is not rounded to infinity. -/
theorem isFinite_nearest {num den : Nat} (h : num / den < twoTo 2097) :
    (nearest num den).isFinite := by
  have hlog : (num / den).log2 < 2097 := log2_lt_of_lt_twoTo (by decide) h
  obtain ⟨shift, hshift⟩ : ∃ shift, shift = (num / den).log2 - 52 := ⟨_, rfl⟩
  have hquotient : num / (den * twoTo shift) < twoTo 53 := by
    rw [← Nat.div_div_eq_div_mul]
    exact shifted_lt (by omega)
  have hround := roundHalfEven_le num (den * twoTo shift)
  have hsteps : shift * binade ≤ 2044 * binade :=
    Nat.mul_le_mul_right _ (by omega)
  have hbinades : twoTo 53 = 2 * binade := by decide
  have hinfinity : infinityRank = 2047 * binade := rfl
  have hpos := binade_pos
  have hrank : shift * binade + roundHalfEven num (den * twoTo shift)
      < infinityRank := by omega
  rw [hshift] at hrank
  exact decide_eq_true (Nat.lt_of_le_of_lt (Nat.min_le_right _ _) hrank)

end Magnitude

theorem Binary64.ne_nan_of_isFinite {x : Binary64} (h : x.isFinite) :
    x ≠ .nan := by
  rintro rfl
  cases h

end CampusQuery.Numeric
