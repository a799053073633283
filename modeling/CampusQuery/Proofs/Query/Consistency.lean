/-
CampusQuery.Proofs.Query.Consistency — how the aggregates of a group agree.

The extremes are taken by comparing, the count by looking for equal values and
the mean from decimals, each without regard to the others. For finite numbers
they agree all the same (`compute_consistent`).
-/
import CampusQuery.Proofs.Query.Distinct
import CampusQuery.Proofs.Query.Means

namespace CampusQuery.Query.Aggregate

open Numeric Outcome

variable {numbers : List Binary64}

/-- The rounding that sums and means go through. -/
def rounded (x : Binary64) : Outcome Binary64 := do
  return (← toDecimal x).toHundredths

theorem sumOf_eq_rounded (numbers : List Binary64) :
    sumOf numbers = rounded (Binary64.sum numbers) := rfl

theorem rounded_eq {x : Binary64} (h : x.isFinite) :
    rounded x = .ok (.ofHundredths (halfAway (x.reading * 100))) := by
  obtain ⟨d, hd, hvalue⟩ := exists_toDecimal h
  rw [rounded, hd, ← hvalue, ← Binary64.toHundredths_eq]
  rfl

/-- One number is counted if the least and the greatest are equal. -/
theorem countDistinct_eq_one_iff_equals {least greatest : Binary64}
    (h : ∀ x ∈ numbers, x.isFinite) (hleast : least ∈ numbers)
    (hgreatest : greatest ∈ numbers)
    (hbetween : ∀ x ∈ numbers,
      least.value ≤ x.value ∧ x.value ≤ greatest.value) :
    Value.countDistinct (numbers.map .number) = 1 ↔ least.equals greatest := by
  have hnumber : ∀ x ∈ numbers, x ≠ .nan := fun x hx =>
    Binary64.ne_nan_of_isFinite (h x hx)
  rw [Value.countDistinct_eq_one_iff (by simpa using List.ne_nil_of_mem hleast)
    (by simpa using hnumber)]
  simp only [List.forall_mem_map, Value.equals]
  constructor
  · intro hall
    exact hall least hleast greatest hgreatest
  · intro hequal x hx y hy
    rw [Binary64.equals_iff (hnumber least hleast)
      (hnumber greatest hgreatest)] at hequal
    rw [Binary64.equals_iff (hnumber x hx) (hnumber y hy)]
    have hxbetween := hbetween x hx
    have hybetween := hbetween y hy
    linarith

/-- What the least number, the greatest one, the mean and the number of
distinct ones tell of each other. -/
structure Consistent (numbers : List Binary64)
    (least greatest mean : Binary64) (count : Nat) : Prop where
  least_mem : least ∈ numbers
  greatest_mem : greatest ∈ numbers
  between : ∀ x ∈ numbers, least.value ≤ x.value ∧ x.value ≤ greatest.value
  count_pos : 1 ≤ count
  count_le : count ≤ numbers.length
  count_eq_one : count = 1 ↔ least.equals greatest
  mean_isFinite : mean.isFinite
  mean_between : ∃ low high, rounded least = .ok low ∧
    rounded greatest = .ok high ∧ low.isFinite ∧ high.isFinite ∧
      low.value ≤ mean.value ∧ mean.value ≤ high.value

/-- Finite numbers, if there are any, have all four, and they are
consistent. -/
theorem exists_consistent (hne : numbers ≠ [])
    (h : ∀ x ∈ numbers, x.isFinite) :
    ∃ least greatest mean count,
      extremeOf .min Binary64.less numbers = .ok least ∧
      extremeOf .max Binary64.greater numbers = .ok greatest ∧
      meanOf numbers = .ok mean ∧
      Value.countDistinct (numbers.map .number) = count ∧
      Consistent numbers least greatest mean count := by
  have hvalues : ∀ v ∈ numbers.map Value.number, v ≠ .number .nan := by
    simpa using fun x hx => Binary64.ne_nan_of_isFinite (h x hx)
  obtain ⟨least, hleast, greatest, hgreatest, hmin, hmax, hbetween⟩ :=
    exists_extremes hne h
  obtain ⟨count, hmean, hresult, hmore, hless, -, -⟩ :=
    meanOf_spec h hleast hgreatest hbetween
  refine ⟨least, greatest, _, _, hmin, hmax, hmean, rfl, hleast, hgreatest,
    hbetween, ?_, ?_, ?_, hresult, ?_⟩
  · exact Value.countDistinct_pos (by simpa using hne) hvalues
  · simpa using Value.countDistinct_le hvalues
  · exact countDistinct_eq_one_iff_equals h hleast hgreatest hbetween
  · have hlow := h least hleast
    have hhigh := h greatest hgreatest
    exact ⟨_, _, rounded_eq hlow, rounded_eq hhigh,
      Binary64.isFinite_ofHundredths_reading hlow,
      Binary64.isFinite_ofHundredths_reading hhigh,
      Binary64.value_ofHundredths_mono hmore,
      Binary64.value_ofHundredths_mono hless⟩

/-- MIN, MAX, AVG and COUNT of a column with a finite number in each of its
rows all succeed, and they are consistent. The count is exact as a number up to
2 ^ 53 rows. -/
theorem compute_consistent {ref : FieldRef} {rows : List Row}
    (hrows : rows ≠ []) (hreads : ref.Reads rows (numbers.map .number))
    (hfinite : ∀ x ∈ numbers, x.isFinite) :
    ∃ least greatest mean, ∃ count : Nat,
      (∀ name, compute ⟨name, .min, ref⟩ rows = .ok (.number least) ∧
        compute ⟨name, .max, ref⟩ rows = .ok (.number greatest) ∧
        compute ⟨name, .avg, ref⟩ rows = .ok (.number mean) ∧
        compute ⟨name, .count, ref⟩ rows = .ok (.number (.ofInt count))) ∧
      Consistent numbers least greatest mean count ∧
      numbers.length = rows.length ∧
      (rows.length < twoTo 53 → (Binary64.ofInt count).value = count) := by
  have hlength : rows.length = numbers.length := by
    simpa using hreads.length_eq
  have hne : numbers ≠ [] := by simpa using hreads.ne_nil hrows
  obtain ⟨least, greatest, mean, count, hmin, hmax, hmean, hcount,
    hconsistent⟩ := exists_consistent hne hfinite
  refine ⟨least, greatest, mean, count, fun name => ?_, hconsistent,
    hlength.symm, fun hlt => ?_⟩
  · simp only [compute_eq hreads, computeOf, map_toNumber_number, hmin, hmax,
      hmean, hcount]
    exact ⟨rfl, rfl, rfl, rfl⟩
  · have hle : count ≤ rows.length := hlength ▸ hconsistent.count_le
    exact (Binary64.value_ofInt (hle.trans_lt hlt)).2

/-- Three averages, two of them equal. -/
theorem compute_consistent_threeAverages :
    ∃ mean, ∃ count : Nat,
      compute ⟨"mean", .avg, averageField⟩
        (averageRows [.ofInt 70, .ofInt 90, .ofInt 70]) = .ok (.number mean) ∧
      compute ⟨"values", .count, averageField⟩
        (averageRows [.ofInt 70, .ofInt 90, .ofInt 70])
          = .ok (.number (.ofInt count)) ∧
      Consistent [.ofInt 70, .ofInt 90, .ofInt 70] (.ofInt 70) (.ofInt 90)
        mean count := by
  have hreads := reads_averageRows [.ofInt 70, .ofInt 90, .ofInt 70]
  have hfinite : ∀ x ∈ [Binary64.ofInt 70, .ofInt 90, .ofInt 70],
      x.isFinite := by decide +kernel
  obtain ⟨least, greatest, mean, count, hcomputed, hconsistent, -⟩ :=
    compute_consistent (List.cons_ne_nil _ _) hreads hfinite
  have hmin : compute ⟨"values", .min, averageField⟩
      (averageRows [.ofInt 70, .ofInt 90, .ofInt 70])
        = .ok (.number (.ofInt 70)) := by decide +kernel
  have hmax : compute ⟨"values", .max, averageField⟩
      (averageRows [.ofInt 70, .ofInt 90, .ofInt 70])
        = .ok (.number (.ofInt 90)) := by decide +kernel
  obtain ⟨hleast, hgreatest, -, hcount⟩ := hcomputed "values"
  obtain rfl := Value.number.inj (Except.ok.inj (hleast.symm.trans hmin))
  obtain rfl := Value.number.inj (Except.ok.inj (hgreatest.symm.trans hmax))
  obtain ⟨-, -, hmean, -⟩ := hcomputed "mean"
  exact ⟨mean, count, hmean, hcount, hconsistent⟩

end CampusQuery.Query.Aggregate
