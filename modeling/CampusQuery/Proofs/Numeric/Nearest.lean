/-
CampusQuery.Proofs.Numeric.Nearest — rounding to the nearest magnitude.

A value in units rounds to the rank between whose midpoints it lies
(`RoundsTo`): to no other one, in order, and with an error of a 2 ^ 53th part.
The rank that `nearest` computes from a quotient is this one
(`roundsTo_nearestRank`), as long as ranks do not come to an end.
-/
import Mathlib.Algebra.Order.Field.Basic
import Mathlib.Data.Nat.Cast.Order.Field
import Mathlib.Data.Rat.Floor
import Mathlib.Tactic.FieldSimp
import Mathlib.Tactic.Linarith
import Mathlib.Tactic.Ring
import CampusQuery.Proofs.Numeric.Magnitude

namespace CampusQuery.Numeric

theorem even_binade : binade % 2 = 0 := by decide

/-! ## Halves -/

/-- The nearest whole number is at most a half away, and even if it is just
that far. -/
theorem roundHalfEven_near (num : Nat) {den : Nat} (hden : 0 < den) :
    2 * (roundHalfEven num den : ℚ) - 1 ≤ 2 * (num / den) ∧
      2 * (num / den) ≤ 2 * (roundHalfEven num den : ℚ) + 1 ∧
      (2 * (num / den) = 2 * (roundHalfEven num den : ℚ) - 1 ∨
        2 * (num / den) = 2 * (roundHalfEven num den : ℚ) + 1 →
          roundHalfEven num den % 2 = 0) := by
  obtain ⟨floor, hfloor⟩ : ∃ floor, floor = num / den := ⟨_, rfl⟩
  obtain ⟨rest, hrest⟩ : ∃ rest, rest = num % den := ⟨_, rfl⟩
  have hlt : rest < den := hrest ▸ Nat.mod_lt num hden
  have hpos : (0 : ℚ) < den := Nat.cast_pos.mpr hden
  have hquotient : 2 * (num / den : ℚ) = 2 * floor + 2 * rest / den := by
    have hnum : num = floor * den + rest := by
      rw [hfloor, hrest, Nat.div_add_mod']
    rw [hnum]
    push_cast
    field_simp
  have hsmall : (2 * rest / den : ℚ) < 2 := by
    rw [div_lt_iff₀ hpos]
    exact_mod_cast (by omega : 2 * rest < 2 * den)
  have hnonneg : (0 : ℚ) ≤ 2 * rest / den := by positivity
  unfold roundHalfEven
  rw [hquotient, ← hfloor, ← hrest]
  dsimp only
  split
  · rename_i h
    have hhalf : (2 * rest / den : ℚ) < 1 := by
      rw [div_lt_one hpos]
      exact_mod_cast h
    refine ⟨by linarith, by linarith, ?_⟩
    rintro (h | h) <;> linarith
  · split
    · rename_i h
      have hhalf : (1 : ℚ) < 2 * rest / den := by
        rw [one_lt_div hpos]
        exact_mod_cast h
      push_cast
      refine ⟨by linarith, by linarith, ?_⟩
      rintro (h | h) <;> linarith
    · have hhalf : (2 * rest / den : ℚ) = 1 := by
        rw [div_eq_one_iff_eq hpos.ne']
        exact_mod_cast (by omega : 2 * rest = den)
      rw [hhalf]
      split
      · rename_i heven
        exact ⟨by linarith, by linarith, fun _ => heven⟩
      · push_cast
        exact ⟨by linarith, by linarith, fun _ => by omega⟩

namespace Magnitude

/-! ## Grids -/

/-- Ranks as steps of a power of two. -/
theorem unitsAt_steps {power steps : Nat} (hpower : power = 0 ∨ binade ≤ steps)
    (hsteps : steps ≤ 2 * binade) :
    unitsAt (power * binade + steps) = steps * twoTo power := by
  by_cases h : binade ≤ steps
  · obtain ⟨step, rfl⟩ := Nat.exists_eq_add_of_le h
    rw [← unitsAt_normal (by omega), Nat.add_mul power, Nat.one_mul,
      Nat.add_assoc]
  · obtain rfl := hpower.resolve_right h
    rw [Nat.zero_mul, Nat.zero_add, unitsAt_of_le (by omega)]
    exact (Nat.mul_one steps).symm

/-- The next rank is a step higher, or more. -/
theorem le_unitsAt_next {power steps : Nat}
    (hpower : power = 0 ∨ binade ≤ steps) (hsteps : steps ≤ 2 * binade) :
    (steps + 1) * twoTo power ≤ unitsAt (power * binade + steps + 1) := by
  have hbinade := binade_pos
  by_cases h : steps = 2 * binade
  · have hnext : power * binade + steps + 1
        = (power + 1) * binade + (binade + 1) := by
      rw [Nat.add_mul]
      omega
    have hdouble : twoTo (power + 1) = 2 * twoTo power := by
      exact (Nat.pow_succ 2 power).trans (Nat.mul_comm _ _)
    rw [hnext, unitsAt_steps (.inr (by omega)) (by omega), hdouble,
      ← Nat.mul_assoc]
    exact Nat.mul_le_mul_right _ (by omega)
  · rw [Nat.add_assoc, unitsAt_steps (hpower.imp_right (by omega)) (by omega)]

/-- The rank before is a step lower, except at a power of two. -/
theorem unitsAt_before {power steps : Nat}
    (hpower : power = 0 ∨ binade < steps) (hsteps : steps ≤ 2 * binade) :
    unitsAt (power * binade + steps - 1) = (steps - 1) * twoTo power := by
  cases steps with
  | zero =>
    have hzero : power = 0 := hpower.resolve_right (Nat.not_lt_zero _)
    simp only [hzero, Nat.zero_mul, Nat.add_zero, Nat.zero_sub, unitsAt_zero]
  | succ steps =>
    rw [← Nat.add_assoc, Nat.add_sub_cancel, Nat.add_sub_cancel]
    exact unitsAt_steps (hpower.imp_right Nat.le_of_lt_succ) (by omega)

/-- Whole numbers of 53 bits are values of magnitudes. -/
theorem exists_unitsAt_eq {n : Nat} (h : n < twoTo 53) :
    ∃ rank, rank < infinityRank ∧ unitsAt rank = n * unitsPerOne := by
  have hinfinity : infinityRank = 2047 * binade := rfl
  have hpos := binade_pos
  by_cases hzero : n = 0
  · exact ⟨0, by omega, by rw [hzero, unitsAt_zero, Nat.zero_mul]⟩
  · obtain ⟨places, hplaces⟩ := Nat.exists_eq_add_of_le
      (Nat.le_of_lt_succ ((Nat.log2_lt hzero).mpr h))
    have hbinade : binade = twoTo n.log2 * twoTo places := by
      rw [binade, hplaces]
      exact Nat.pow_add 2 _ _
    have hlow : binade ≤ n * twoTo places := by
      rw [hbinade]
      exact Nat.mul_le_mul_right _ (Nat.log2_self_le hzero)
    have hhigh : n * twoTo places ≤ 2 * binade := by
      rw [hbinade, ← Nat.mul_assoc]
      refine Nat.mul_le_mul_right _ ?_
      rw [Nat.mul_comm]
      exact Nat.lt_log2_self.le
    have hunits : unitsPerOne = twoTo places * twoTo (1022 + n.log2) := by
      have hsum : 1074 = places + (1022 + n.log2) := by omega
      rw [unitsPerOne, hsum]
      exact Nat.pow_add 2 _ _
    have hpower : (1022 + n.log2) * binade ≤ 1074 * binade :=
      Nat.mul_le_mul_right _ (by omega)
    refine ⟨(1022 + n.log2) * binade + n * twoTo places, by omega, ?_⟩
    rw [unitsAt_steps (.inr hlow) hhigh, hunits, Nat.mul_assoc]

/-! ## What rounds to a rank -/

/-- A value in units rounds to a rank: it lies between the midpoints to the
neighbours, and not on one of them unless the rank is even. -/
structure RoundsTo (value : ℚ) (rank : Nat) : Prop where
  low : unitsAt (rank - 1) + unitsAt rank ≤ 2 * value
  high : 2 * value ≤ unitsAt rank + unitsAt (rank + 1)
  even : 2 * value = unitsAt (rank - 1) + unitsAt rank ∨
    2 * value = unitsAt rank + unitsAt (rank + 1) → rank % 2 = 0

variable {value other : ℚ} {rank next : Nat}

theorem cast_unitsAt_mono {r s : Nat} (h : r ≤ s) :
    (unitsAt r : ℚ) ≤ unitsAt s :=
  Nat.cast_le.mpr (strictMono_unitsAt.monotone h)

theorem cast_unitsAt_lt {r s : Nat} (h : r < s) :
    (unitsAt r : ℚ) < unitsAt s :=
  Nat.cast_lt.mpr (strictMono_unitsAt h)

/-- What is in units rounds to itself. -/
theorem roundsTo_unitsAt (rank : Nat) : RoundsTo (unitsAt rank) rank := by
  have hbefore := cast_unitsAt_mono (Nat.sub_le rank 1)
  have hafter := cast_unitsAt_lt (Nat.lt_succ_self rank)
  refine ⟨by linarith, by linarith, ?_⟩
  rintro (h | h)
  · by_cases hzero : rank = 0
    · rw [hzero]
    · have hlt := cast_unitsAt_lt (Nat.sub_one_lt hzero)
      linarith
  · linarith

namespace RoundsTo

theorem value_nonneg (h : RoundsTo value rank) : 0 ≤ value := by
  have hlow := h.low
  have hbefore : (0 : ℚ) ≤ unitsAt (rank - 1) := Nat.cast_nonneg _
  have hat : (0 : ℚ) ≤ unitsAt rank := Nat.cast_nonneg _
  linarith

/-- Ranks keep the order of the values that round to them. -/
theorem mono (h : RoundsTo value rank) (hnext : RoundsTo other next)
    (hle : value ≤ other) : rank ≤ next := by
  by_contra hlt
  have hlt : next < rank := Nat.lt_of_not_le hlt
  have hlow := h.low
  have hhigh := hnext.high
  have hbefore : (unitsAt next : ℚ) ≤ unitsAt (rank - 1) :=
    cast_unitsAt_mono (by omega)
  have hafter : (unitsAt (next + 1) : ℚ) ≤ unitsAt rank :=
    cast_unitsAt_mono hlt
  -- The two intervals can only share a midpoint, which belongs to one of them.
  have hmid : 2 * value = unitsAt (rank - 1) + unitsAt rank := by linarith
  have hmid' : 2 * other = unitsAt next + unitsAt (next + 1) := by linarith
  have hneighbour : next = rank - 1 := by
    by_contra hne
    have hstrict : (unitsAt next : ℚ) < unitsAt (rank - 1) :=
      cast_unitsAt_lt (by omega)
    linarith
  have heven := h.even (.inl hmid)
  have heven' := hnext.even (.inr hmid')
  omega

/-- What lies between two values that round to a rank rounds to it. -/
theorem between {low value high : ℚ} {rank : Nat}
    (hlow : RoundsTo low rank) (hhigh : RoundsTo high rank)
    (hle : low ≤ value) (hge : value ≤ high) : RoundsTo value rank := by
  have hfirst := hlow.low
  have hlast := hhigh.high
  refine ⟨by linarith, by linarith, ?_⟩
  rintro (h | h)
  · exact hlow.even (.inl (by linarith))
  · exact hhigh.even (.inr (by linarith))

/-- A value rounds to one rank only. -/
theorem unique (h : RoundsTo value rank) (hnext : RoundsTo value next) :
    rank = next :=
  Nat.le_antisymm (h.mono hnext le_rfl) (hnext.mono h le_rfl)

/-- No rank is nearer, and another one is as near only if the rank is even. -/
theorem nearest (h : RoundsTo value rank) (next : Nat) :
    |unitsAt rank - value| ≤ |unitsAt next - value| ∧
      (|unitsAt rank - value| = |unitsAt next - value| →
        next = rank ∨ rank % 2 = 0) := by
  have hlow := h.low
  have hhigh := h.high
  have hbefore : (unitsAt (rank - 1) : ℚ) ≤ unitsAt rank :=
    cast_unitsAt_mono (Nat.sub_le _ _)
  have hafter : (unitsAt rank : ℚ) ≤ unitsAt (rank + 1) :=
    cast_unitsAt_mono (Nat.le_succ _)
  rcases Nat.lt_trichotomy next rank with hlt | rfl | hgt
  · have hnext : (unitsAt next : ℚ) ≤ unitsAt (rank - 1) :=
      cast_unitsAt_mono (by omega)
    rw [abs_of_nonpos (by linarith : (unitsAt next : ℚ) - value ≤ 0)]
    constructor
    · exact abs_le.mpr ⟨by linarith, by linarith⟩
    · intro heq
      refine .inr (h.even (.inl ?_))
      rcases abs_cases ((unitsAt rank : ℚ) - value) with ⟨habs, -⟩ | ⟨habs, -⟩
      · linarith
      · have hstrict : (unitsAt next : ℚ) < unitsAt rank := cast_unitsAt_lt hlt
        linarith
  · exact ⟨le_rfl, fun _ => .inl rfl⟩
  · have hnext : (unitsAt (rank + 1) : ℚ) ≤ unitsAt next :=
      cast_unitsAt_mono hgt
    rw [abs_of_nonneg (by linarith : 0 ≤ (unitsAt next : ℚ) - value)]
    constructor
    · exact abs_le.mpr ⟨by linarith, by linarith⟩
    · intro heq
      refine .inr (h.even (.inr ?_))
      rcases abs_cases ((unitsAt rank : ℚ) - value) with ⟨habs, -⟩ | ⟨habs, -⟩
      · have hstrict : (unitsAt rank : ℚ) < unitsAt next := cast_unitsAt_lt hgt
        linarith
      · linarith

end RoundsTo

/-- The step to the next rank is one unit, or as many as fit 2 ^ 52 times into
the value. -/
theorem binade_mul_step_le (rank : Nat) :
    (binade : ℚ) * (unitsAt (rank + 1) - unitsAt rank)
      ≤ max (binade : ℚ) (unitsAt rank) := by
  rcases rank_cases rank with hsmall | ⟨power, step, hstep, rfl⟩
  · rw [unitsAt_of_le hsmall.le, unitsAt_of_le hsmall]
    refine le_max_of_le_left ?_
    push_cast
    linarith
  · rw [Nat.add_assoc _ step, unitsAt_normal hstep.le, unitsAt_normal hstep]
    refine le_max_of_le_right ?_
    have hnonneg : (0 : ℚ) ≤ step * twoTo power :=
      mul_nonneg (Nat.cast_nonneg _) (Nat.cast_nonneg _)
    push_cast
    linarith

/-- Rounding changes a value by half a step at most, and the step begins below
both the value and the result. -/
theorem RoundsTo.exists_step (h : RoundsTo value rank) :
    ∃ start, 2 * |unitsAt rank - value| ≤ unitsAt (start + 1) - unitsAt start ∧
      (unitsAt start : ℚ) ≤ min value (unitsAt rank) := by
  have hlow := h.low
  have hhigh := h.high
  rcases abs_cases ((unitsAt rank : ℚ) - value) with ⟨habs, hle⟩ | ⟨habs, hlt⟩
  · -- The value lies below the rank, and above the one before.
    rcases Nat.eq_zero_or_pos rank with rfl | hpos
    · have hzero : (unitsAt 0 : ℚ) = 0 := by
        rw [unitsAt_zero, Nat.cast_zero]
      have hnonneg := h.value_nonneg
      have hafter := cast_unitsAt_mono (Nat.zero_le 1)
      exact ⟨0, by linarith, le_min (by linarith) le_rfl⟩
    · have hbefore : (unitsAt (rank - 1) : ℚ) ≤ unitsAt rank :=
        cast_unitsAt_mono (Nat.sub_le _ _)
      refine ⟨rank - 1, ?_, le_min (by linarith) hbefore⟩
      rw [Nat.sub_add_cancel hpos]
      linarith
  · exact ⟨rank, by linarith, le_min (by linarith) le_rfl⟩

/-- Rounding changes a value by half a unit, or by a 2 ^ 53th part of the value
and of the result. -/
theorem RoundsTo.error_le (h : RoundsTo value rank) :
    2 * binade * |unitsAt rank - value|
      ≤ max (binade : ℚ) (min value (unitsAt rank)) := by
  obtain ⟨start, hstep, hstart⟩ := h.exists_step
  calc 2 * binade * |(unitsAt rank : ℚ) - value|
      = binade * (2 * |unitsAt rank - value|) := by ring
    _ ≤ binade * (unitsAt (start + 1) - unitsAt start) :=
        mul_le_mul_of_nonneg_left hstep (Nat.cast_nonneg _)
    _ ≤ max (binade : ℚ) (unitsAt start) := binade_mul_step_le start
    _ ≤ max (binade : ℚ) (min value (unitsAt rank)) :=
        max_le_max le_rfl hstart

/-! ## Rounding a quotient -/

/-- The rank of the magnitude nearest to a quotient if ranks had no end. -/
def nearestRank (num den : Nat) : Nat :=
  let shift := (num / den).log2 - 52
  shift * binade + roundHalfEven num (den * twoTo shift)

theorem rank_nearest (num den : Nat) :
    (nearest num den).rank = min infinityRank (nearestRank num den) := rfl

/-- A shift by all but 52 bits leaves 53 of them, if there are any others. -/
theorem shift_eq_zero_or_le {quotient shift : Nat}
    (hshift : shift = quotient.log2 - 52) :
    shift = 0 ∨ binade ≤ quotient / twoTo shift := by
  by_cases hzero : shift = 0
  · exact .inl hzero
  · have hquotient : quotient ≠ 0 := by
      rintro rfl
      rw [Nat.log2_zero] at hshift
      omega
    refine .inr ((Nat.le_div_iff_mul_le (twoTo_pos shift)).mpr ?_)
    calc binade * twoTo shift
        = twoTo (52 + shift) := (Nat.pow_add 2 52 shift).symm
      _ = twoTo quotient.log2 := by rw [hshift]; congr 1; omega
      _ ≤ quotient := Nat.log2_self_le hquotient

/-- What rounds to a number of steps of a power of two rounds to its rank. -/
theorem roundsTo_steps {power steps : Nat} {quotient : ℚ}
    (hgrid : power = 0 ∨ binade ≤ steps) (hsteps : steps ≤ 2 * binade)
    (hnonneg : 0 ≤ quotient) (hlarge : power = 0 ∨ binade ≤ quotient)
    (hlow : 2 * (steps : ℚ) - 1 ≤ 2 * quotient)
    (hhigh : 2 * quotient ≤ 2 * (steps : ℚ) + 1)
    (heven : 2 * quotient = 2 * (steps : ℚ) - 1 ∨
      2 * quotient = 2 * (steps : ℚ) + 1 → steps % 2 = 0) :
    RoundsTo (quotient * twoTo power) (power * binade + steps) := by
  have hstep : (0 : ℚ) < twoTo power := Nat.cast_pos.mpr (twoTo_pos power)
  have hat : (unitsAt (power * binade + steps) : ℚ) = steps * twoTo power := by
    rw [unitsAt_steps hgrid hsteps, Nat.cast_mul]
  have hafter : ((steps + 1) * twoTo power : ℚ)
      ≤ unitsAt (power * binade + steps + 1) := by
    exact_mod_cast le_unitsAt_next hgrid hsteps
  have hparity : (power * binade + steps) % 2 = steps % 2 := by
    rw [Nat.add_mod, Nat.mul_mod, even_binade, Nat.mul_zero, Nat.zero_mod,
      Nat.zero_add, Nat.mod_mod]
  have hhigh' : 2 * (quotient * twoTo power)
      ≤ (2 * steps + 1) * twoTo power := by
    rw [← mul_assoc]
    exact mul_le_mul_of_nonneg_right hhigh hstep.le
  -- The step before may be half as long, but only at an even number of steps
  -- that the quotient does not lie below.
  by_cases hexact : (steps : ℚ) ≤ quotient ∧ steps % 2 = 0
  · obtain ⟨hle, hsteps_even⟩ := hexact
    have hbefore : (unitsAt (power * binade + steps - 1) : ℚ)
        ≤ unitsAt (power * binade + steps) := cast_unitsAt_mono (Nat.sub_le _ _)
    have hvalue := mul_le_mul_of_nonneg_right hle hstep.le
    exact ⟨by linarith, by linarith, fun _ => hparity.trans hsteps_even⟩
  · have hpos : 0 < steps := by
      refine Nat.pos_of_ne_zero ?_
      rintro rfl
      exact hexact ⟨by simpa using hnonneg, rfl⟩
    have hfull : power = 0 ∨ binade < steps := by
      by_contra h
      obtain ⟨hpower, hle⟩ := not_or.mp h
      obtain rfl : steps = binade :=
        Nat.le_antisymm (Nat.le_of_not_lt hle) (hgrid.resolve_left hpower)
      exact hexact ⟨hlarge.resolve_left hpower, even_binade⟩
    have hbefore : (unitsAt (power * binade + steps - 1) : ℚ)
        = (steps - 1) * twoTo power := by
      rw [unitsAt_before hfull hsteps, Nat.cast_mul, Nat.cast_sub hpos,
        Nat.cast_one]
    have hlow' : (2 * steps - 1) * twoTo power
        ≤ 2 * (quotient * twoTo power) := by
      rw [← mul_assoc]
      exact mul_le_mul_of_nonneg_right hlow hstep.le
    refine ⟨by linarith, by linarith, ?_⟩
    rintro (h | h)
    · refine hparity.trans (heven (.inl (mul_right_cancel₀ hstep.ne' ?_)))
      linarith
    · refine hparity.trans (heven (.inr (mul_right_cancel₀ hstep.ne' ?_)))
      linarith

/-- The quotient rounds to this rank. -/
theorem roundsTo_nearestRank (num : Nat) {den : Nat} (hden : 0 < den) :
    RoundsTo (num / den) (nearestRank num den) := by
  obtain ⟨shift, hshift⟩ : ∃ shift, shift = (num / den).log2 - 52 := ⟨_, rfl⟩
  have hwidth : 0 < den * twoTo shift := Nat.mul_pos hden (twoTo_pos shift)
  have hstep : (twoTo shift : ℚ) ≠ 0 := Nat.cast_ne_zero.mpr (twoTo_pos _).ne'
  have hvalue : (num / den : ℚ)
      = num / (den * twoTo shift : Nat) * twoTo shift := by
    rw [Nat.cast_mul, ← div_div, div_mul_cancel₀ _ hstep]
  have hbinades : twoTo 53 = 2 * binade := by decide
  have hfloor : num / (den * twoTo shift) < 2 * binade := by
    rw [← Nat.div_div_eq_div_mul, ← hbinades]
    exact shifted_lt (by omega)
  have hlarge : shift = 0 ∨ binade ≤ num / (den * twoTo shift) := by
    rw [← Nat.div_div_eq_div_mul]
    exact shift_eq_zero_or_le hshift
  have hbelow := le_roundHalfEven num (den * twoTo shift)
  have habove := roundHalfEven_le num (den * twoTo shift)
  obtain ⟨hlow, hhigh, heven⟩ := roundHalfEven_near num hwidth
  rw [hvalue, nearestRank, ← hshift]
  refine roundsTo_steps (hlarge.imp_right (by omega)) (by omega)
    (by positivity) (hlarge.imp_right fun h => ?_) hlow hhigh heven
  exact (Nat.cast_le.mpr h).trans Nat.cast_div_le

theorem nearestRank_mono {num other den : Nat} (hden : 0 < den)
    (h : num ≤ other) : nearestRank num den ≤ nearestRank other den :=
  (roundsTo_nearestRank num hden).mono (roundsTo_nearestRank other hden)
    (div_le_div_of_nonneg_right (Nat.cast_le.mpr h) (Nat.cast_nonneg den))

end Magnitude
end CampusQuery.Numeric
