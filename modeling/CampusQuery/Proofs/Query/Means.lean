/-
CampusQuery.Proofs.Query.Means — the exact mean and its rounding.

A mean is computed from the readings of the numbers without error, except for
one division to a hundred digits (`meanOf_spec`). No reading has as many
digits, so a mean lies between the extremes, and it is finite.
-/
import Mathlib.Algebra.Order.BigOperators.Group.List
import CampusQuery.Proofs.Numeric.Hundredths
import CampusQuery.Proofs.Query.Aggregate

namespace CampusQuery.Query.Aggregate

open Numeric Outcome

variable {numbers : List Binary64}

/-! ## Extremes -/

theorem ranks_less : Ranks Binary64.less Binary64.value where
  beats_iff := Binary64.less_iff
  nan_beats _ := rfl
  beats_nan x := by cases x <;> rfl

theorem ranks_greater : Ranks Binary64.greater fun x => -x.value where
  beats_iff hx hy := by rw [Binary64.greater_iff hx hy, neg_lt_neg_iff]
  nan_beats _ := rfl
  beats_nan x := by cases x <;> rfl

/-- Finite numbers, if there are any, have a least and a greatest one. -/
theorem exists_extremes (hne : numbers ≠ []) (h : ∀ x ∈ numbers, x.isFinite) :
    ∃ least ∈ numbers, ∃ greatest ∈ numbers,
      extremeOf .min Binary64.less numbers = .ok least ∧
      extremeOf .max Binary64.greater numbers = .ok greatest ∧
      ∀ x ∈ numbers, least.value ≤ x.value ∧ x.value ≤ greatest.value := by
  obtain ⟨first, rest, rfl⟩ := List.exists_cons_of_ne_nil hne
  have hnumber : ∀ x ∈ first :: rest, x ≠ .nan := fun x hx =>
    Binary64.ne_nan_of_isFinite (h x hx)
  have hfirst := hnumber first List.mem_cons_self
  obtain ⟨-, hleast⟩ := ranks_less.extreme_spec hfirst rest
  obtain ⟨-, hgreatest⟩ := ranks_greater.extreme_spec hfirst rest
  exact ⟨_, extreme_mem first rest, _, extreme_mem first rest, rfl, rfl,
    fun x hx => ⟨hleast x hx (hnumber x hx),
      neg_le_neg_iff.mp (hgreatest x hx (hnumber x hx))⟩⟩

/-! ## Decimals -/

/-- A number has a decimal if it is finite, and that is its reading. -/
theorem exists_toDecimal {x : Binary64} (h : x.isFinite) :
    ∃ d, toDecimal x = .ok d ∧ d.value = x.reading := by
  obtain ⟨d, hd, hvalue⟩ := Binary64.exists_ofBinary64? h
  exact ⟨d, by rw [toDecimal, hd], hvalue⟩

theorem exists_mapM_toDecimal (h : ∀ x ∈ numbers, x.isFinite) :
    ∃ decimals, numbers.mapM toDecimal = .ok decimals ∧
      decimals.map Decimal.value = numbers.map Binary64.reading := by
  obtain ⟨decimals, hdecimals⟩ :=
    exists_forall₂ fun x hx => exists_toDecimal (h x hx)
  refine ⟨decimals, mapM_eq_ok.mpr (hdecimals.imp fun _ _ hd => hd.1), ?_⟩
  rw [eq_comm, ← List.forall₂_eq_eq_eq, List.forall₂_map_left_iff,
    List.forall₂_map_right_iff]
  exact hdecimals.imp fun _ _ hd => hd.2.symm

/-! ## Means -/

def mean (numbers : List Binary64) : ℚ :=
  Binary64.readingSum numbers / numbers.length

/-- A mean is not below what none of the readings is below. -/
theorem le_mean {low : ℚ} (hne : numbers ≠ [])
    (h : ∀ x ∈ numbers, low ≤ x.reading) : low ≤ mean numbers := by
  have hlength : (0 : ℚ) < numbers.length :=
    Nat.cast_pos.mpr (List.length_pos_iff.mpr hne)
  have hsum := List.card_nsmul_le_sum (numbers.map Binary64.reading) low
    (by simpa using h)
  rw [mean, Binary64.readingSum, le_div_iff₀ hlength, mul_comm]
  simpa using hsum

theorem mean_le {high : ℚ} (hne : numbers ≠ [])
    (h : ∀ x ∈ numbers, x.reading ≤ high) : mean numbers ≤ high := by
  have hlength : (0 : ℚ) < numbers.length :=
    Nat.cast_pos.mpr (List.length_pos_iff.mpr hne)
  have hsum := List.sum_le_card_nsmul (numbers.map Binary64.reading) high
    (by simpa using h)
  rw [mean, Binary64.readingSum, div_le_iff₀ hlength, mul_comm high]
  simpa using hsum

/-- Rounding happens when the exact sum is divided and at the end. -/
theorem exists_meanOf_eq (hne : numbers ≠ [])
    (h : ∀ x ∈ numbers, x.isFinite) :
    ∃ total : Decimal, total.value / numbers.length = mean numbers ∧
      meanOf numbers = .ok (Binary64.ofHundredths
        (halfAway ((total.dividedBy numbers.length).value * 100))) := by
  obtain ⟨decimals, hdecimals, hvalues⟩ := exists_mapM_toDecimal h
  refine ⟨.sum decimals, ?_, ?_⟩
  · rw [Decimal.value_sum, hvalues]
    rfl
  · have hempty : numbers.isEmpty = false := by simpa using hne
    rw [meanOf, hempty, hdecimals, ← Binary64.toHundredths_eq]
    rfl

/-- The quotient is between the readings of the extremes, and it is the exact
mean if that has a hundred digits. -/
theorem exists_quotient (h : ∀ x ∈ numbers, x.isFinite) {low high : Binary64}
    (hlow : low ∈ numbers) (hhigh : high ∈ numbers)
    (hbetween : ∀ x ∈ numbers, low.value ≤ x.value ∧ x.value ≤ high.value) :
    ∃ quotient : ℚ,
      meanOf numbers = .ok (.ofHundredths (halfAway (quotient * 100))) ∧
      low.reading ≤ quotient ∧ quotient ≤ high.reading ∧
      (HasDigits 100 (mean numbers) → quotient = mean numbers) ∧
      |quotient - mean numbers| ≤ |mean numbers| / tenTo 99 := by
  have hne := List.ne_nil_of_mem hlow
  have hlength : 0 < numbers.length := List.length_pos_iff.mpr hne
  have hnumber : ∀ x ∈ numbers, x ≠ .nan := fun x hx =>
    Binary64.ne_nan_of_isFinite (h x hx)
  obtain ⟨total, htotal, hmean⟩ := exists_meanOf_eq hne h
  refine ⟨_, hmean, ?_, ?_, ?_, ?_⟩
  · refine Decimal.le_dividedBy hlength low.hasDigits_reading ?_
    rw [htotal]
    exact le_mean hne fun x hx => Binary64.reading_mono (hnumber low hlow)
      (hnumber x hx) (hbetween x hx).1
  · refine Decimal.dividedBy_le hlength high.hasDigits_reading ?_
    rw [htotal]
    exact mean_le hne fun x hx => Binary64.reading_mono (hnumber x hx)
      (hnumber high hhigh) (hbetween x hx).2
  · rw [← htotal]
    exact Decimal.value_dividedBy_eq hlength
  · rw [← htotal]
    exact Decimal.abs_dividedBy_sub_le hlength

/-- What AVG is when all numbers lie between two of them. -/
theorem meanOf_spec (h : ∀ x ∈ numbers, x.isFinite) {low high : Binary64}
    (hlow : low ∈ numbers) (hhigh : high ∈ numbers)
    (hbetween : ∀ x ∈ numbers, low.value ≤ x.value ∧ x.value ≤ high.value) :
    ∃ count : Int, meanOf numbers = .ok (.ofHundredths count) ∧
      (Binary64.ofHundredths count).isFinite ∧
      halfAway (low.reading * 100) ≤ count ∧
      count ≤ halfAway (high.reading * 100) ∧
      (HasDigits 100 (mean numbers) → count = halfAway (mean numbers * 100)) ∧
      |count / 100 - mean numbers| ≤ 1 / 200 + |mean numbers| / tenTo 99 := by
  obtain ⟨quotient, hmean, hfirst, hlast, hexact, hclose⟩ :=
    exists_quotient h hlow hhigh hbetween
  have hmore : halfAway (low.reading * 100) ≤ halfAway (quotient * 100) :=
    halfAway_mono (by linarith)
  have hless : halfAway (quotient * 100) ≤ halfAway (high.reading * 100) :=
    halfAway_mono (by linarith)
  refine ⟨_, hmean, ?_, hmore, hless, fun hdigits => by rw [hexact hdigits], ?_⟩
  · -- One of the two bounds is not smaller in size.
    by_cases hsize : (halfAway (quotient * 100)).natAbs
        ≤ (halfAway (high.reading * 100)).natAbs
    · exact Binary64.isFinite_ofHundredths_of_le hsize
        (Binary64.isFinite_ofHundredths_reading (h high hhigh))
    · exact Binary64.isFinite_ofHundredths_of_le (by omega)
        (Binary64.isFinite_ofHundredths_reading (h low hlow))
  · have hround := abs_halfAway_sub_le (quotient * 100)
    have hhundredth : |halfAway (quotient * 100) / 100 - quotient|
        ≤ 1 / 200 := by
      rw [abs_le] at hround ⊢
      constructor <;> linarith
    exact (abs_sub_le _ quotient _).trans (add_le_add hhundredth hclose)

/-! ## The mean of a column -/

/-- AVG is the number nearest to the exact mean of the readings, rounded to
hundredths, if this mean has a hundred digits. If it has more then AVG is still
the number nearest to some hundredths as close to the mean as that allows. -/
theorem compute_avg {ref : FieldRef} {rows : List Row} (name : String)
    (hrows : rows ≠ []) (hreads : ref.Reads rows (numbers.map .number))
    (hfinite : ∀ x ∈ numbers, x.isFinite) :
    ∃ x, compute ⟨name, .avg, ref⟩ rows = .ok (.number x) ∧
      (HasDigits 100 (mean numbers) →
        x.IsNearest (halfAway (mean numbers * 100) / 100)) ∧
      ∃ count : Int,
        |count / 100 - mean numbers| ≤ 1 / 200 + |mean numbers| / tenTo 99 ∧
        x.IsNearest (count / 100) := by
  have hne : numbers ≠ [] := by simpa using hreads.ne_nil hrows
  obtain ⟨least, hleast, greatest, hgreatest, -, -, hbetween⟩ :=
    exists_extremes hne hfinite
  obtain ⟨count, hmean, hresult, -, -, hexact, hclose⟩ :=
    meanOf_spec hfinite hleast hgreatest hbetween
  have hnearest := Binary64.isNearest_ofHundredths hresult
  refine ⟨.ofHundredths count, ?_, ?_, count, hclose, hnearest⟩
  · rw [compute_eq hreads, computeOf, map_toNumber_number, hmean]
    rfl
  · intro hdigits
    rw [← hexact hdigits]
    exact hnearest

/-- Halves of negative means go down: that of -0.12 and -0.13 is -0.13. -/
theorem compute_avg_belowZero :
    ∃ x, compute ⟨"mean", .avg, averageField⟩
        (averageRows [.ofRatio true 12 100, .ofRatio true 13 100])
          = .ok (.number x) ∧
      x.IsNearest (-13 / 100) := by
  have hfinite : ∀ x ∈ [Binary64.ofRatio true 12 100, .ofRatio true 13 100],
      x.isFinite := by decide +kernel
  have hreads := reads_averageRows [.ofRatio true 12 100, .ofRatio true 13 100]
  obtain ⟨x, hx, hnearest, -⟩ :=
    compute_avg "mean" (List.cons_ne_nil _ _) hreads hfinite
  have hfirst := (@Binary64.of_ofBinary64? (.ofRatio true 12 100) ⟨-12, 2⟩
    (by decide +kernel)).2
  have hsecond := (@Binary64.of_ofBinary64? (.ofRatio true 13 100) ⟨-13, 2⟩
    (by decide +kernel)).2
  have hmean : mean [.ofRatio true 12 100, .ofRatio true 13 100]
      = -125 / 1000 := by
    simp only [mean, Binary64.readingSum, List.map_cons, List.map_nil,
      List.sum_cons, List.sum_nil, List.length_cons, List.length_nil, hfirst,
      hsecond, Decimal.value, cast_tenTo]
    norm_num
  have hdigits : HasDigits 100 (-125 / 1000) :=
    ⟨-125, -3, by decide, by norm_num⟩
  have hround : halfAway (-125 / 1000 * 100) = -13 := by decide +kernel
  rw [hmean, hround] at hnearest
  exact ⟨x, hx, by simpa using hnearest hdigits⟩

end CampusQuery.Query.Aggregate
