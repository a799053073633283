/-
CampusQuery.Proofs.Query.Totals — sums added up in floating point.

A sum is rounded as a decimal only when it has been added up. By then it may
have drifted away from the exact one, and so a sum that lies at a half of a
hundredth may be rounded either way, depending on the order of the rows. Away
from the halves it is the exact sum, rounded (`compute_sum`).
-/
import CampusQuery.Proofs.Numeric.Hundredths
import CampusQuery.Proofs.Numeric.Summation
import CampusQuery.Proofs.Query.Aggregate

namespace CampusQuery

open Numeric Outcome

namespace Numeric.Binary64

variable {numbers : List Binary64}

/-- No half of a hundredth is as near to the exact sum as a sum may drift. -/
def IsClear (numbers : List Binary64) : Prop :=
  ∀ n : Int, drift numbers < |readingSum numbers - (2 * n + 1) / 200|

theorem isClear_perm {others : List Binary64} (h : numbers.Perm others) :
    IsClear numbers ↔ IsClear others := by
  rw [IsClear, IsClear, drift_perm h, readingSum_perm h]

/-- A sum is then rounded as the exact one. -/
theorem IsClear.halfAway_eq (hclear : IsClear numbers)
    (hfinite : (sum numbers).isFinite) :
    halfAway ((sum numbers).reading * 100)
      = halfAway (readingSum numbers * 100) := by
  have hundred : |(100 : ℚ)| = 100 := by norm_num
  have hnear : |(sum numbers).reading * 100 - readingSum numbers * 100|
      ≤ drift numbers * 100 := by
    rw [← sub_mul, abs_mul, hundred]
    exact mul_le_mul_of_nonneg_right (abs_reading_sum_sub_le hfinite)
      (by norm_num)
  refine halfAway_eq_of_near hnear fun n => ?_
  have hscaled : readingSum numbers * 100 - (n + 1 / 2)
      = (readingSum numbers - (2 * n + 1) / 200) * 100 := by ring
  rw [hscaled, abs_mul, hundred]
  exact mul_lt_mul_of_pos_right (hclear n) (by norm_num)

/-- Whole hundredths are as far from a half as can be. -/
theorem isClear_of_hundredths {count : Int}
    (hsum : readingSum numbers = count / 100)
    (hdrift : drift numbers < 1 / 200) : IsClear numbers := by
  intro n
  have hodd : (1 : ℚ) ≤ |((2 * count - (2 * n + 1) : Int) : ℚ)| := by
    rw [← Int.cast_abs]
    exact_mod_cast Int.one_le_abs (by omega)
  have hscaled : readingSum numbers - (2 * n + 1) / 200
      = ((2 * count - (2 * n + 1) : Int) : ℚ) / 200 := by
    rw [hsum]
    push_cast
    ring
  rw [hscaled, abs_div, abs_of_pos (by norm_num : (0 : ℚ) < 200)]
  linarith

end Numeric.Binary64

namespace Query.Aggregate

variable {numbers : List Binary64} {x : Binary64}

theorem sumOf_eq_ok (h : sumOf numbers = .ok x) :
    (Binary64.sum numbers).isFinite ∧
      x = .ofHundredths (halfAway ((Binary64.sum numbers).reading * 100)) := by
  obtain ⟨d, hd, hx⟩ := bind_eq_ok.mp h
  have hdecimal : Decimal.ofBinary64? (Binary64.sum numbers) = some d := by
    unfold toDecimal at hd
    split at hd
    · rename_i found hfound
      exact Except.ok.inj hd ▸ hfound
    · exact absurd hd refuse_ne_ok
  obtain ⟨hfinite, hvalue⟩ := Binary64.of_ofBinary64? hdecimal
  refine ⟨hfinite, ?_⟩
  rw [hvalue, ← Binary64.toHundredths_eq, pure_eq_ok.mp hx]

theorem compute_sum_eq_ok {ref : FieldRef} {rows : List Row} {name : String}
    {result : Value} (hreads : ref.Reads rows (numbers.map .number))
    (h : compute ⟨name, .sum, ref⟩ rows = .ok result) :
    (Binary64.sum numbers).isFinite ∧ result = .number (.ofHundredths
      (halfAway ((Binary64.sum numbers).reading * 100))) := by
  rw [compute_eq hreads, computeOf, map_toNumber_number] at h
  obtain ⟨x, hx, hresult⟩ := map_eq_ok.mp h
  obtain ⟨hfinite, rfl⟩ := sumOf_eq_ok hx
  exact ⟨hfinite, hresult.symm⟩

/-- SUM is the number nearest to the floating-point sum, rounded to hundredths.
This sum is read close to the exact sum of the readings; and unless that lies
within the same distance of a half of a hundredth, SUM is the number nearest to
the exact sum, rounded to hundredths, in any order of the rows. -/
theorem compute_sum {ref : FieldRef} {rows : List Row} {name : String}
    {result : Value} (hreads : ref.Reads rows (numbers.map .number))
    (h : compute ⟨name, .sum, ref⟩ rows = .ok result) :
    ∃ x, result = .number x ∧
      x.IsNearest (halfAway ((Binary64.sum numbers).reading * 100) / 100) ∧
      |(Binary64.sum numbers).reading - Binary64.readingSum numbers|
        ≤ Binary64.drift numbers ∧
      (Binary64.IsClear numbers →
        x.IsNearest (halfAway (Binary64.readingSum numbers * 100) / 100) ∧
        ∀ others, rows.Perm others → ∀ other,
          compute ⟨name, .sum, ref⟩ others = .ok other → other = result) := by
  obtain ⟨hfinite, hresult⟩ := compute_sum_eq_ok hreads h
  have hnearest := Binary64.isNearest_ofHundredths
    (Binary64.isFinite_ofHundredths_reading hfinite)
  refine ⟨_, hresult, hnearest, Binary64.abs_reading_sum_sub_le hfinite, ?_⟩
  intro hclear
  rw [← hclear.halfAway_eq hfinite]
  refine ⟨hnearest, fun others hperm other hother => ?_⟩
  obtain ⟨moved, hmoved, hitems⟩ := hreads.perm hperm
  obtain ⟨hmfinite, hmresult⟩ := compute_sum_eq_ok hmoved hother
  rw [hmresult, ((Binary64.isClear_perm hitems).mp hclear).halfAway_eq hmfinite,
    ← Binary64.readingSum_perm hitems, ← hclear.halfAway_eq hfinite, hresult]

/-- The exact sum of these averages is far from a half, and it is their SUM in
either order. -/
theorem compute_sum_twoAverages :
    ∃ x, compute ⟨"total", .sum, averageField⟩
        (averageRows [.ofRatio false 657 10, .ofRatio false 8852 100])
          = .ok (.number x) ∧
      compute ⟨"total", .sum, averageField⟩
        (averageRows [.ofRatio false 8852 100, .ofRatio false 657 10])
          = .ok (.number x) ∧
      x.IsNearest (15422 / 100) := by
  have hcomputed : compute ⟨"total", .sum, averageField⟩
      (averageRows [.ofRatio false 657 10, .ofRatio false 8852 100])
        = .ok (.number (.ofHundredths 15422)) := by decide +kernel
  have hother : compute ⟨"total", .sum, averageField⟩
      (averageRows [.ofRatio false 8852 100, .ofRatio false 657 10])
        = .ok (.number (.ofHundredths 15422)) := by decide +kernel
  obtain ⟨x, hx, -, -, hexact⟩ :=
    compute_sum (reads_averageRows _) hcomputed
  obtain rfl := Value.number.inj hx
  have hfirst := (@Binary64.of_ofBinary64? (.ofRatio false 657 10) ⟨657, 1⟩
    (by decide +kernel)).2
  have hsecond := (@Binary64.of_ofBinary64? (.ofRatio false 8852 100) ⟨8852, 2⟩
    (by decide +kernel)).2
  have hsum : Binary64.readingSum
      [.ofRatio false 657 10, .ofRatio false 8852 100]
        = (15422 : Int) / 100 := by
    simp only [Binary64.readingSum, List.map_cons, List.map_nil, List.sum_cons,
      List.sum_nil, hfirst, hsecond, Decimal.value, cast_tenTo]
    norm_num
  have hclear : Binary64.IsClear
      [.ofRatio false 657 10, .ofRatio false 8852 100] := by
    have hsizes : ∀ x ∈ [Binary64.ofRatio false 657 10,
        .ofRatio false 8852 100], |x.reading| ≤ 100 := by
      simp only [List.forall_mem_cons, hfirst, hsecond, Decimal.value,
        cast_tenTo]
      norm_num
    refine Binary64.isClear_of_hundredths hsum ?_
    refine (Binary64.drift_le hsizes).trans_lt ?_
    rw [show binade = 4503599627370496 from rfl]
    norm_num
  have hround : halfAway ((15422 : Int) / 100 * 100) = 15422 := by decide +kernel
  have hnearest := (hexact hclear).1
  rw [hsum, hround] at hnearest
  exact ⟨_, hcomputed, hother, by simpa using hnearest⟩

/-- The exact sum of these averages is 248.535, which is a half. It is rounded
up or down, depending on which of the last two comes first. -/
theorem compute_sum_halfway :
    (averageRows [.ofRatio false 657 10, .ofRatio false 8852 100,
        .ofRatio false 94315 1000]).Perm
      (averageRows [.ofRatio false 657 10, .ofRatio false 94315 1000,
        .ofRatio false 8852 100]) ∧
    compute ⟨"total", .sum, averageField⟩
        (averageRows [.ofRatio false 657 10, .ofRatio false 8852 100,
          .ofRatio false 94315 1000])
      = .ok (.number (.ofHundredths 24854)) ∧
    compute ⟨"total", .sum, averageField⟩
        (averageRows [.ofRatio false 657 10, .ofRatio false 94315 1000,
          .ofRatio false 8852 100])
      = .ok (.number (.ofHundredths 24853)) ∧
    (Binary64.ofHundredths 24853).less (.ofHundredths 24854) := by
  decide +kernel

end Query.Aggregate

end CampusQuery
