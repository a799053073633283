/-
CampusQuery.Proofs.Numeric.Summation — how far sums drift.

Numbers are added from left to right, with one rounding each. A finite sum is
off by at most as many 2 ^ 53th parts of the sum of the sizes as there are
numbers (`sum_spec`), and so it is read close to the exact sum of what they are
read as (`abs_reading_sum_sub_le`), in whatever order they come.
-/
import Mathlib.Algebra.BigOperators.Group.List.Basic
import Mathlib.Algebra.Order.BigOperators.Group.List
import Mathlib.Data.List.Induction
import CampusQuery.Proofs.Numeric.Reading

namespace CampusQuery.Numeric.Binary64

variable {numbers : List Binary64}

/-! ## Sums -/

def totalSize (numbers : List Binary64) : ℚ :=
  (numbers.map fun x => |x.value|).sum

theorem totalSize_nonneg (numbers : List Binary64) : 0 ≤ totalSize numbers := by
  refine List.sum_nonneg fun size hsize => ?_
  obtain ⟨x, -, rfl⟩ := List.mem_map.mp hsize
  exact abs_nonneg _

theorem abs_sum_le (numbers : List Binary64) :
    |(numbers.map value).sum| ≤ totalSize numbers := by
  induction numbers with
  | nil => simp [totalSize]
  | cons x rest ih =>
    have htriangle := abs_add_le x.value (rest.map value).sum
    simp only [totalSize, List.map_cons, List.sum_cons] at ih ⊢
    linarith

/-- One more addition. Its own error is at most the new number itself, which
counts if that is small; if it is large, then so is it against what has come
together so far. -/
theorem drift_step_le {precision count total before exact x result : ℚ}
    (hprecision : 0 < precision) (hcount : 0 ≤ count)
    (hdrift : precision * |before - exact| ≤ count * total)
    (herror : precision * |result - (before + x)| ≤ |before + x|)
    (hnear : |result - (before + x)| ≤ |x|) (htotal : |exact| ≤ total) :
    precision * |result - (exact + x)| ≤ (count + 1) * (total + |x|) := by
  have hnonneg : 0 ≤ total := (abs_nonneg exact).trans htotal
  have hsplit : |result - (exact + x)|
      ≤ |result - (before + x)| + |before - exact| := by
    have heq : result - (exact + x)
        = (result - (before + x)) + (before - exact) := by ring
    rw [heq]
    exact abs_add_le _ _
  have hscaled := mul_le_mul_of_nonneg_left hsplit hprecision.le
  rw [mul_add] at hscaled
  rcases le_total (precision * |x|) total with hsmall | hlarge
  · have hown := mul_le_mul_of_nonneg_left hnear hprecision.le
    calc precision * |result - (exact + x)|
        ≤ (count + 1) * total := by linarith
      _ ≤ (count + 1) * (total + |x|) :=
          mul_le_mul_of_nonneg_left (by linarith [abs_nonneg x]) (by linarith)
  · have hbefore : |before - exact| ≤ count * |x| := by
      refine le_of_mul_le_mul_left ?_ hprecision
      calc precision * |before - exact| ≤ count * total := hdrift
        _ ≤ count * (precision * |x|) := mul_le_mul_of_nonneg_left hlarge hcount
        _ = precision * (count * |x|) := mul_left_comm _ _ _
    have hsum : |before + x| ≤ count * |x| + (total + |x|) := by
      have heq : before + x = (before - exact) + (exact + x) := by ring
      have hfirst := abs_add_le (before - exact) (exact + x)
      have hsecond := abs_add_le exact x
      rw [← heq] at hfirst
      linarith
    linarith

/-- A finite sum of numbers has finite summands and is off by at most a 2 ^ 53th
part of the sum of their sizes for each of them. -/
theorem sum_spec (h : (sum numbers).isFinite) :
    (∀ x ∈ numbers, x.isFinite) ∧
      2 * binade * |(sum numbers).value - (numbers.map value).sum|
        ≤ numbers.length * totalSize numbers := by
  -- Numbers are added from left to right, so the last one comes last.
  induction numbers using List.reverseRecOn with
  | nil => simp [sum, value_zero, totalSize]
  | append_singleton numbers last ih =>
    rw [sum, List.foldl_concat] at h ⊢
    change ((sum numbers).add last).isFinite at h
    change _ ∧ 2 * binade * |((sum numbers).add last).value - _| ≤ _
    obtain ⟨hsum, hlast, hnearest, herror⟩ := add_spec h
    obtain ⟨hnumbers, hdrift⟩ := ih hsum
    have hbinade : (0 : ℚ) < 2 * binade :=
      mul_pos two_pos (Nat.cast_pos.mpr binade_pos)
    refine ⟨?_, ?_⟩
    · simpa [or_imp, forall_and] using ⟨hnumbers, hlast⟩
    · have hnear : |((sum numbers).add last).value
            - ((sum numbers).value + last.value)| ≤ |last.value| := by
        have hother := hnearest.nearest _ hsum
        rwa [sub_add_cancel_left, abs_neg] at hother
      have htotal := abs_sum_le numbers
      have hsize : totalSize (numbers ++ [last])
          = totalSize numbers + |last.value| := by simp [totalSize]
      have hexact : ((numbers ++ [last]).map value).sum
          = (numbers.map value).sum + last.value := by simp
      rw [hsize, hexact, List.length_append, List.length_singleton]
      push_cast
      exact drift_step_le hbinade (Nat.cast_nonneg _) hdrift herror hnear htotal

/-- A finite sum is no larger than the sizes together, and what it is off. -/
theorem abs_value_sum_le (h : (sum numbers).isFinite) :
    |(sum numbers).value| ≤ (numbers.length + 1) * totalSize numbers := by
  have hbinade : (1 : ℚ) ≤ binade := Nat.one_le_cast.mpr binade_pos
  have hsum := (sum_spec h).2
  have hexact := abs_sum_le numbers
  have hoff := le_mul_of_one_le_left
    (abs_nonneg ((sum numbers).value - (numbers.map value).sum))
    (by linarith : (1 : ℚ) ≤ 2 * binade)
  have htriangle := abs_add_le ((sum numbers).value - (numbers.map value).sum)
    (numbers.map value).sum
  rw [sub_add_cancel] at htriangle
  linarith

/-! ## Readings -/

/-- How far the reading of a sum can be from the sum of the readings. -/
def drift (numbers : List Binary64) : ℚ :=
  (numbers.length + 1) * (totalSize numbers / binade + 1 / unitsPerOne)

theorem drift_perm {others : List Binary64} (h : numbers.Perm others) :
    drift numbers = drift others := by
  rw [drift, drift, totalSize, totalSize, (h.map fun x => |x.value|).sum_eq,
    h.length_eq]

/-- Reading each number changes little. -/
theorem abs_sum_sub_readingSum_le (numbers : List Binary64) :
    2 * binade * |(numbers.map value).sum - readingSum numbers|
      ≤ totalSize numbers + numbers.length * (binade / unitsPerOne) := by
  have hbinade : (0 : ℚ) ≤ 2 * binade :=
    mul_nonneg two_pos.le (Nat.cast_nonneg _)
  induction numbers with
  | nil =>
    rw [List.map_nil, List.sum_nil, List.length_nil, Nat.cast_zero, zero_mul,
      add_zero]
    simp [readingSum, totalSize]
  | cons x rest ih =>
    have hx := abs_value_sub_reading_le x
    have hsplit : (x.value + (rest.map value).sum)
        - (x.reading + readingSum rest)
          = (x.value - x.reading)
            + ((rest.map value).sum - readingSum rest) := by ring
    have htriangle := mul_le_mul_of_nonneg_left (abs_add_le (x.value - x.reading)
      ((rest.map value).sum - readingSum rest)) hbinade
    rw [mul_add] at htriangle
    have hsize : totalSize (x :: rest) = |x.value| + totalSize rest := rfl
    have hreadings : readingSum (x :: rest) = x.reading + readingSum rest := rfl
    rw [List.map_cons, List.sum_cons, hsize, hreadings, hsplit,
      List.length_cons]
    push_cast
    linarith

/-- A finite sum is read close to the sum of the readings. -/
theorem abs_reading_sum_sub_le (h : (sum numbers).isFinite) :
    |(sum numbers).reading - readingSum numbers| ≤ drift numbers := by
  have hbinade : (1 : ℚ) ≤ binade := Nat.one_le_cast.mpr binade_pos
  have hsum := (sum_spec h).2
  have hreading := abs_value_sub_reading_le (sum numbers)
  have hreadings := abs_sum_sub_readingSum_le numbers
  have hsize := abs_value_sum_le h
  generalize hunit : (binade / unitsPerOne : ℚ) = unit at *
  have hdrift : 2 * binade * drift numbers
      = 2 * (numbers.length + 1) * (totalSize numbers + unit) := by
    have hone : (1 / unitsPerOne : ℚ) = unit / binade := by
      rw [← hunit, div_div_cancel_left' (by linarith), one_div]
    rw [drift, hone]
    field_simp
  have hsplit : |(sum numbers).reading - readingSum numbers|
      ≤ |(sum numbers).value - (sum numbers).reading|
        + |(sum numbers).value - (numbers.map value).sum|
        + |(numbers.map value).sum - readingSum numbers| := by
    rw [abs_sub_comm (sum numbers).value (sum numbers).reading]
    exact (abs_sub_le _ (numbers.map value).sum _).trans
      (add_le_add_left (abs_sub_le _ (sum numbers).value _) _)
  have hunit_nonneg : 0 ≤ unit :=
    hunit ▸ div_nonneg (Nat.cast_nonneg _) (Nat.cast_nonneg _)
  have htotal := totalSize_nonneg numbers
  refine le_of_mul_le_mul_left ?_ (by linarith : (0 : ℚ) < 2 * binade)
  have hscaled := mul_le_mul_of_nonneg_left hsplit
    (by linarith : (0 : ℚ) ≤ 2 * binade)
  rw [mul_add, mul_add] at hscaled
  rw [hdrift]
  have hlength : (0 : ℚ) ≤ numbers.length * unit :=
    mul_nonneg (Nat.cast_nonneg _) hunit_nonneg
  linarith

/-- A value is not much larger than its reading. -/
theorem abs_value_le (x : Binary64) : |x.value| ≤ 2 * |x.reading| + 1 := by
  have hbinade : (1 : ℚ) ≤ binade := Nat.one_le_cast.mpr binade_pos
  have hone := Magnitude.cast_unitsPerOne_pos
  have hunit : (binade / unitsPerOne : ℚ) ≤ 1 :=
    (div_le_one hone).mpr (Nat.cast_le.mpr binade_le_unitsPerOne)
  have hoff := abs_value_sub_reading_le x
  have hscale := mul_le_mul_of_nonneg_right
    (by linarith : (2 : ℚ) ≤ 2 * binade) (abs_nonneg (x.value - x.reading))
  have htriangle := abs_add_le (x.value - x.reading) x.reading
  rw [sub_add_cancel] at htriangle
  linarith

/-- The drift of numbers that are not read as larger than some size. -/
theorem drift_le {size : ℚ} (h : ∀ x ∈ numbers, |x.reading| ≤ size) :
    drift numbers ≤ (numbers.length + 1) *
      ((numbers.length * (2 * size + 1) + 1) / binade) := by
  have hbinade : (0 : ℚ) < binade := Nat.cast_pos.mpr binade_pos
  have hone : (1 / unitsPerOne : ℚ) ≤ 1 / binade :=
    one_div_le_one_div_of_le hbinade (Nat.cast_le.mpr binade_le_unitsPerOne)
  have hvalues : ∀ x ∈ numbers, |x.value| ≤ 2 * size + 1 := fun x hx => by
    linarith [abs_value_le x, h x hx]
  have htotal : totalSize numbers ≤ numbers.length * (2 * size + 1) := by
    have hsum := List.sum_le_card_nsmul (numbers.map fun x => |x.value|)
      (2 * size + 1) (by simpa using hvalues)
    rwa [List.length_map, nsmul_eq_mul] at hsum
  have hscaled := div_le_div_of_nonneg_right htotal hbinade.le
  have hlength : (0 : ℚ) ≤ numbers.length + 1 := by positivity
  rw [drift, add_div]
  exact mul_le_mul_of_nonneg_left (add_le_add hscaled hone) hlength

end CampusQuery.Numeric.Binary64
