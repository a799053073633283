/-
CampusQuery.Proofs.Numeric.Hundredths — numbers rounded to two places.

A decimal goes to the nearest hundredth, a half away from zero, and from there
to the nearest number (`isNearest_ofHundredths`). This keeps the order
(`value_ofHundredths_mono`) and does not lead to infinity from the reading of
a finite number (`isFinite_ofHundredths_reading`).
-/
import CampusQuery.Proofs.Numeric.Reading

namespace CampusQuery.Numeric.Binary64

open Magnitude

variable {x : Binary64}

def ofHundredths (count : Int) : Binary64 :=
  ofRatio (count < 0) count.natAbs 100

theorem toHundredths_eq (d : Decimal) :
    d.toHundredths = ofHundredths (halfAway (d.value * 100)) := by
  rw [← d.hundredths_eq]
  rfl

theorem isNearest_ofHundredths {count : Int}
    (h : (ofHundredths count).isFinite) :
    (ofHundredths count).IsNearest (count / 100) := by
  refine isNearest_ofRatio (by decide) ?_ ?_ h
  · rw [abs_div, Nat.cast_natAbs, Int.cast_abs]
    norm_num
  · intro _
    rw [decide_eq_true_iff, div_lt_iff₀ (by norm_num), zero_mul,
      Int.cast_lt_zero]

theorem isFinite_ofHundredths_of_le {count other : Int}
    (hle : count.natAbs ≤ other.natAbs) (h : (ofHundredths other).isFinite) :
    (ofHundredths count).isFinite := by
  have hranks := nearestRank_mono (by decide : 0 < 100)
    (Nat.mul_le_mul_right unitsPerOne hle)
  have hother : min infinityRank
      (nearestRank (other.natAbs * unitsPerOne) 100) < infinityRank :=
    of_decide_eq_true h
  have hcount : min infinityRank
      (nearestRank (count.natAbs * unitsPerOne) 100) < infinityRank := by omega
  exact decide_eq_true hcount

/-- More hundredths are not a lesser number. -/
theorem value_ofHundredths_mono {count other : Int} (hle : count ≤ other) :
    (ofHundredths count).value ≤ (ofHundredths other).value := by
  have hsizes : ∀ {a b : Int}, a.natAbs ≤ b.natAbs →
      (nearest (a.natAbs * unitsPerOne) 100).value
        ≤ (nearest (b.natAbs * unitsPerOne) 100).value := by
    intro a b hab
    have hranks := nearestRank_mono (by decide : 0 < 100)
      (Nat.mul_le_mul_right unitsPerOne hab)
    rw [value_le_value, rank_nearest, rank_nearest]
    omega
  have hnonneg : ∀ a : Int,
      0 ≤ (nearest (a.natAbs * unitsPerOne) 100).value := fun a => value_nonneg _
  simp only [ofHundredths, ofRatio, value, decide_eq_true_iff]
  by_cases hcount : count < 0
  · rw [if_pos hcount]
    by_cases hother : other < 0
    · rw [if_pos hother]
      exact neg_le_neg (hsizes (by omega))
    · rw [if_neg hother]
      linarith [hnonneg count, hnonneg other]
  · rw [if_neg hcount, if_neg (by omega)]
    exact hsizes (by omega)

/-- A finite number is still finite when its reading is rounded to
hundredths. -/
theorem isFinite_ofHundredths_reading (h : x.isFinite) :
    (ofHundredths (halfAway (x.reading * 100))).isFinite := by
  rcases x.hasDigits_reading.whole_or_lt 0 with ⟨whole, hwhole⟩ | hsmall
  · -- A whole number is what it was before.
    rw [show tenTo 0 = 1 from rfl, Nat.cast_one, mul_one] at hwhole
    have hcount : halfAway (x.reading * 100) = whole * 100 := by
      rw [hwhole, ← halfAway_intCast (whole * 100)]
      push_cast
      rfl
    cases x with
    | nan => cases h
    | signed negative m =>
      have hrounds := roundsTo_nearestRank
        ((whole * 100).natAbs * unitsPerOne) (by decide : 0 < 100)
      have hsame : (((whole * 100).natAbs * unitsPerOne : Nat) / (100 : Nat) : ℚ)
          = m.reading * unitsPerOne := by
        rw [← abs_reading negative m, hwhole, Int.natAbs_mul, Nat.cast_mul,
          Nat.cast_mul, Nat.cast_natAbs, Int.cast_abs]
        push_cast
        ring
      rw [hsame] at hrounds
      have hrank := hrounds.unique m.roundsTo_reading
      have hfinite : m.rank < infinityRank := of_decide_eq_true h
      rw [hcount]
      refine decide_eq_true ?_
      rw [rank_nearest, hrank]
      omega
  · -- A number with digits behind the point is not very large.
    rw [show tenTo 0 = 1 from rfl, Nat.cast_one, mul_one] at hsmall
    have hten : ((tenTo 101 : Int) : ℚ) = tenTo 99 * 100 := by
      rw [Int.cast_natCast, tenTo_add 99 2, Nat.cast_mul]
      norm_num [tenTo]
    obtain ⟨hbelow, habove⟩ := abs_lt.mp hsmall
    have hhigh : halfAway (x.reading * 100) ≤ tenTo 101 := by
      rw [← halfAway_intCast (tenTo 101)]
      exact halfAway_mono (by linarith)
    have hlow : -(tenTo 101 : Int) ≤ halfAway (x.reading * 100) := by
      rw [← halfAway_intCast (-(tenTo 101 : Int)), Int.cast_neg]
      exact halfAway_mono (by linarith)
    have hlarge : (ofHundredths (tenTo 101)).isFinite := by decide +kernel
    exact isFinite_ofHundredths_of_le (by omega) hlarge

end CampusQuery.Numeric.Binary64
