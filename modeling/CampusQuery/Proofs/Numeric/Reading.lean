/-
CampusQuery.Proofs.Numeric.Reading — the decimals that numbers are read as.

What reads back as a magnitude is what rounds to it (`readsBack_iff`). No such
decimal has fewer digits than the shortest one (`shortest_lt_of_readsBack`).
Its value is the reading of the number, which keeps the order
(`reading_mono`), has seventeen digits at most and is close to the value.
-/
import CampusQuery.Proofs.Numeric.Decimal
import CampusQuery.Proofs.Numeric.Shortest
import CampusQuery.Proofs.Numeric.Value

namespace CampusQuery.Numeric

/-! ## Zeros at the end -/

theorem trimZeros_le (count : Nat) (exponent : Int) :
    (trimZeros count exponent).1 ≤ count := by
  induction count, exponent using trimZeros.induct with
  | case1 count exponent hstop => rw [trimZeros, if_pos hstop]
  | case2 count exponent hgo ih =>
    rw [trimZeros, if_neg hgo]
    exact ih.trans (Nat.div_le_self _ _)

/-- A power of ten has one digit only. -/
theorem trimZeros_lt {count digits : Nat} (hdigits : 0 < digits)
    (h : count ≤ tenTo digits) (exponent : Int) :
    (trimZeros count exponent).1 < tenTo digits := by
  rcases Nat.lt_or_eq_of_le h with hlt | rfl
  · exact (trimZeros_le count exponent).trans_lt hlt
  · obtain ⟨rest, rfl⟩ := Nat.exists_eq_add_of_lt hdigits
    have hpos := tenTo_pos rest
    have hten : tenTo (0 + rest + 1) = tenTo rest * 10 := by
      rw [Nat.zero_add]
      exact tenTo_add rest 1
    rw [hten, trimZeros, if_neg (by omega), Nat.mul_div_cancel _ (by decide)]
    exact (trimZeros_le _ _).trans_lt (by omega)

namespace Magnitude

variable {m n : Magnitude} {count : Nat} {exponent : Int} {tie : TieRule}

/-! ## What reads back -/

theorem readsBack_iff : m.readsBack count exponent ↔
    RoundsTo (count * 10 ^ exponent * unitsPerOne) m.rank := by
  have hscale := cast_tenTo_pos (-exponent).toNat
  have hpoint : 2 * (count * 10 ^ exponent * unitsPerOne : ℚ)
      = ((2 * count * (unitsPerOne * tenTo exponent.toNat) : Nat) : ℚ)
        / tenTo (-exponent).toNat := by
    rw [← tenTo_div_tenTo]
    push_cast
    ring
  have hle : ∀ units : Nat, units * tenTo (-exponent).toNat
      ≤ 2 * count * (unitsPerOne * tenTo exponent.toNat) ↔
        (units : ℚ) ≤ 2 * (count * 10 ^ exponent * unitsPerOne) := by
    intro units
    rw [hpoint, le_div_iff₀ hscale]
    exact_mod_cast Iff.rfl
  have hge : ∀ units : Nat,
      2 * count * (unitsPerOne * tenTo exponent.toNat)
        ≤ units * tenTo (-exponent).toNat ↔
          2 * (count * 10 ^ exponent * unitsPerOne) ≤ (units : ℚ) := by
    intro units
    rw [hpoint, div_le_iff₀ hscale]
    exact_mod_cast Iff.rfl
  simp only [readsBack]
  split
  · rename_i heven
    rw [Bool.and_eq_true, decide_eq_true_iff, decide_eq_true_iff, hle, hge,
      Nat.cast_add, Nat.cast_add]
    exact ⟨fun h => ⟨h.1, h.2, fun _ => heven⟩, fun h => ⟨h.low, h.high⟩⟩
  · rename_i hodd
    rw [Bool.and_eq_true, decide_eq_true_iff, decide_eq_true_iff,
      ← not_le, ← not_le, hge, hle, Nat.cast_add, Nat.cast_add, not_le, not_le]
    constructor
    · intro h
      refine ⟨h.1.le, h.2.le, ?_⟩
      rintro (heq | heq)
      · exact absurd heq h.1.ne'
      · exact absurd heq h.2.ne
    · intro h
      exact ⟨h.low.lt_of_ne fun heq => hodd (h.even (.inl heq.symm)),
        h.high.lt_of_ne fun heq => hodd (h.even (.inr heq))⟩

/-- The value itself rounds to its magnitude. -/
theorem roundsTo_value (m : Magnitude) :
    RoundsTo (m.value * unitsPerOne) m.rank := by
  have hunits : m.value * unitsPerOne = unitsAt m.rank :=
    div_mul_cancel₀ _ cast_unitsPerOne_pos.ne'
  rw [hunits]
  exact roundsTo_unitsAt m.rank

/-! ## Grids -/

/-- Steps of a power of ten compare with the value as they are counted. -/
theorem mul_zpow_le_value : count * 10 ^ exponent ≤ m.value ↔
    count * (unitsPerOne * tenTo exponent.toNat)
      ≤ m.units * tenTo (-exponent).toNat := by
  rw [← tenTo_div_tenTo, value, ← mul_div_assoc, div_le_div_iff₀
    (cast_tenTo_pos _) cast_unitsPerOne_pos, mul_assoc, mul_comm (tenTo _ : ℚ)]
  exact_mod_cast Iff.rfl

theorem le_inSteps_iff :
    count ≤ (m.inSteps exponent).num / (m.inSteps exponent).den ↔
      count * 10 ^ exponent ≤ m.value := by
  have hden : 0 < unitsPerOne * tenTo exponent.toNat :=
    Nat.mul_pos unitsPerOne_pos (tenTo_pos _)
  rw [mul_zpow_le_value]
  exact Nat.le_div_iff_mul_le hden

theorem zpow_leadingPosition_le (h : m.units ≠ 0) :
    10 ^ (m.leadingPosition - 1) ≤ m.value := by
  have hle := leadingPosition_le h
  rw [← Nat.one_mul (unitsPerOne * _), ← mul_zpow_le_value] at hle
  simpa using hle

theorem value_lt_zpow_leadingPosition (h : m.units ≠ 0) :
    m.value < 10 ^ m.leadingPosition := by
  have hlt := lt_leadingPosition h
  rw [← Nat.one_mul (unitsPerOne * _), ← Nat.not_le, ← mul_zpow_le_value,
    not_le] at hlt
  simpa using hlt

/-- What is chosen on a grid has no more digits than the grid. -/
theorem le_of_nearestOnGrid? {digits : Nat} (hunits : m.units ≠ 0)
    (h : m.nearestOnGrid? tie (m.leadingPosition - digits) = some count) :
    count ≤ tenTo digits := by
  have hfloor : ¬tenTo digits
      ≤ (m.inSteps (m.leadingPosition - digits)).num
        / (m.inSteps (m.leadingPosition - digits)).den := by
    rw [le_inSteps_iff, not_le, tenTo_mul_zpow, add_sub_cancel]
    exact value_lt_zpow_leadingPosition hunits
  have hle := (of_nearestOnGrid? h).2
  omega

/-- A grid with any number of steps that reads back is not passed over. -/
theorem isSome_of_readsBack (tie : TieRule) (h : m.readsBack count exponent) :
    (m.nearestOnGrid? tie exponent).isSome := by
  have hone := cast_unitsPerOne_pos
  have hstep := ten_zpow_pos exponent
  have hself := roundsTo_value m
  rw [readsBack_iff] at h
  refine isSome_nearestOnGrid?_of_readsBack tie ?_
  obtain ⟨floor, hfloor⟩ : ∃ floor,
    floor = (m.inSteps exponent).num / (m.inSteps exponent).den := ⟨_, rfl⟩
  rw [← hfloor]
  by_cases hle : count ≤ floor
  · have hcount := mul_le_mul_of_nonneg_right
      (Nat.cast_le (α := ℚ).mpr hle) hstep.le
    have hvalue := le_inSteps_iff.mp hfloor.le
    exact .inl (readsBack_iff.mpr (h.between hself
      (mul_le_mul_of_nonneg_right hcount hone.le)
      (mul_le_mul_of_nonneg_right hvalue hone.le)))
  · have hcount := mul_le_mul_of_nonneg_right
      (Nat.cast_le (α := ℚ).mpr (Nat.lt_of_not_le hle)) hstep.le
    have hvalue : m.value < (floor + 1 : Nat) * 10 ^ exponent := by
      rw [← not_le, ← le_inSteps_iff, ← hfloor]
      exact Nat.not_succ_le_self floor
    exact .inr (readsBack_iff.mpr (hself.between h
      (mul_le_mul_of_nonneg_right hvalue.le hone.le)
      (mul_le_mul_of_nonneg_right hcount hone.le)))

/-! ## The fewest digits -/

/-- The coefficient has seventeen digits at most. -/
theorem coefficient_shortest_lt (tie : TieRule) (m : Magnitude) :
    (m.shortest tie).coefficient < tenTo maxDigits := by
  by_cases hunits : m.units = 0
  · rw [shortest, if_pos hunits]
    exact tenTo_pos _
  · obtain ⟨digits, count, hpos, hle, hcount, -, hcoefficient, -⟩ :=
      exists_search tie hunits
    rw [hcoefficient]
    exact (trimZeros_lt hpos (le_of_nearestOnGrid? hunits hcount) _).trans_le
      (tenTo_le_tenTo hle)

/-- A decimal that reads back, of so many digits, does not fall between the
grid of that many and the value. -/
theorem exists_readsBack_on_grid {digits : Nat} (hunits : m.units ≠ 0)
    (hdigits : 0 < digits) (hcount : count < tenTo digits)
    (h : m.readsBack count exponent) :
    ∃ steps, m.readsBack steps (m.leadingPosition - digits) := by
  have hfirst := zpow_leadingPosition_le hunits
  rw [readsBack_iff] at h
  simp only [readsBack_iff]
  generalize m.leadingPosition = top at hfirst ⊢
  by_cases hfine : top - digits ≤ exponent
  · obtain ⟨places, hplaces⟩ := Int.exists_add_of_le hfine
    have hsame : ((count * tenTo places : Nat) : ℚ) * 10 ^ (top - digits)
        = count * 10 ^ exponent := by
      rw [hplaces, zpow_add₀ (by norm_num), zpow_natCast, Nat.cast_mul,
        cast_tenTo]
      ring
    exact ⟨count * tenTo places, hsame ▸ h⟩
  · -- Such a decimal is below the leading digit of the value, which is on any
    -- grid.
    obtain ⟨rest, rfl⟩ := Nat.exists_eq_add_one_of_ne_zero hdigits.ne'
    have hlead : (tenTo rest : ℚ) * 10 ^ (top - (rest + 1 : Nat))
        = 10 ^ (top - 1) := by
      rw [tenTo_mul_zpow]
      congr 1
      omega
    have hbelow : (count * 10 ^ exponent : ℚ) ≤ 10 ^ (top - 1) := by
      calc (count * 10 ^ exponent : ℚ)
          ≤ tenTo (rest + 1) * 10 ^ exponent :=
            mul_le_mul_of_nonneg_right (Nat.cast_le.mpr hcount.le)
              (ten_zpow_pos exponent).le
        _ = 10 ^ ((rest + 1 : Nat) + exponent) := tenTo_mul_zpow _ _
        _ ≤ 10 ^ (top - 1) := zpow_le_zpow_right₀ (by norm_num) (by omega)
    have hone := cast_unitsPerOne_pos
    have hself := roundsTo_value m
    refine ⟨tenTo rest, h.between hself ?_ ?_⟩
    · exact mul_le_mul_of_nonneg_right (hlead ▸ hbelow) hone.le
    · exact mul_le_mul_of_nonneg_right (hlead ▸ hfirst) hone.le

/-- No decimal of fewer digits reads back. -/
theorem shortest_lt_of_readsBack (tie : TieRule) {digits : Nat}
    (hcount : count < tenTo digits) (h : m.readsBack count exponent) :
    (m.shortest tie).coefficient < tenTo digits := by
  by_cases hunits : m.units = 0
  · rw [shortest, if_pos hunits]
    exact tenTo_pos _
  · obtain ⟨found, steps, hpos, -, hsteps, hmiss, hcoefficient, -⟩ :=
      exists_search tie hunits
    have hle : found ≤ digits := by
      by_contra hgt
      have hdigits : 0 < digits := by
        refine Nat.pos_of_ne_zero ?_
        rintro rfl
        obtain rfl : count = 0 := Nat.lt_one_iff.mp hcount
        exact not_readsBack_zero hunits exponent h
      obtain ⟨other, hother⟩ := exists_readsBack_on_grid hunits hdigits hcount h
      have hsome := isSome_of_readsBack tie hother
      rw [hmiss digits hdigits (Nat.lt_of_not_le hgt)] at hsome
      cases hsome
    rw [hcoefficient]
    exact (trimZeros_lt hpos (le_of_nearestOnGrid? hunits hsteps) _).trans_le
      (tenTo_le_tenTo hle)

/-! ## Readings -/

/-- The value of the shortest decimal. -/
def reading (m : Magnitude) : ℚ :=
  (m.shortest .up).coefficient * 10 ^ (m.shortest .up).exponent

theorem roundsTo_reading (m : Magnitude) :
    RoundsTo (m.reading * unitsPerOne) m.rank :=
  readsBack_iff.mp (readsBack_shortest .up m)

theorem reading_nonneg (m : Magnitude) : 0 ≤ m.reading :=
  mul_nonneg (Nat.cast_nonneg _) (ten_zpow_pos _).le

theorem hasDigits_reading (m : Magnitude) : HasDigits maxDigits m.reading :=
  ⟨(m.shortest .up).coefficient, (m.shortest .up).exponent,
    coefficient_shortest_lt .up m, rfl⟩

/-- A number of fewer digits than the reading does not round to the
magnitude. -/
theorem hasDigits_reading_of_roundsTo {digits : Nat} {q : ℚ}
    (hdigits : HasDigits digits q) (h : RoundsTo (q * unitsPerOne) m.rank) :
    HasDigits digits m.reading := by
  obtain ⟨coefficient, exponent, hlt, rfl⟩ := hdigits
  have hnonneg : 0 ≤ coefficient := by
    have hvalue := nonneg_of_mul_nonneg_left h.value_nonneg cast_unitsPerOne_pos
    exact_mod_cast nonneg_of_mul_nonneg_left hvalue (ten_zpow_pos exponent)
  obtain ⟨count, rfl⟩ := Int.eq_ofNat_of_zero_le hnonneg
  exact ⟨(m.shortest .up).coefficient, (m.shortest .up).exponent,
    shortest_lt_of_readsBack .up hlt (readsBack_iff.mpr h), rfl⟩

/-- Readings keep the order of the values. -/
theorem reading_mono (h : m.value ≤ n.value) : m.reading ≤ n.reading := by
  by_contra hlt
  have hone := cast_unitsPerOne_pos
  have hback := (roundsTo_reading n).mono (roundsTo_reading m)
    (mul_le_mul_of_nonneg_right (le_of_not_ge hlt) hone.le)
  have hrank := Nat.le_antisymm (value_le_value.mp h) hback
  obtain rfl : m = n := by
    cases m
    cases n
    cases hrank
    rfl
  exact hlt le_rfl

theorem reading_zero : zero.reading = 0 := by
  have hunits : zero.units = 0 := unitsAt_zero
  rw [reading, shortest, if_pos hunits, Nat.cast_zero, zero_mul]

theorem reading_eq_zero (h : m.value ≤ 0) : m.reading = 0 := by
  refine le_antisymm ?_ m.reading_nonneg
  rw [← value_zero] at h
  exact reading_zero ▸ reading_mono h

/-- A reading is off by a 2 ^ 53th part of the value, or by half a unit. -/
theorem abs_value_sub_reading_le (m : Magnitude) :
    2 * binade * |m.value - m.reading| ≤ m.value + binade / unitsPerOne := by
  have hone := cast_unitsPerOne_pos
  have herror := (roundsTo_reading m).error_le
  have hunits : (unitsAt m.rank : ℚ) = m.value * unitsPerOne :=
    (div_mul_cancel₀ _ hone.ne').symm
  have hbound : max (binade : ℚ)
      (min (m.reading * unitsPerOne) (unitsAt m.rank))
        ≤ m.value * unitsPerOne + binade := by
    have hvalue := mul_nonneg m.value_nonneg hone.le
    have hbinade : (0 : ℚ) ≤ binade := Nat.cast_nonneg _
    refine max_le (by linarith) ((min_le_right _ _).trans ?_)
    rw [hunits]
    linarith
  rw [abs_value_sub, ← mul_div_assoc, div_le_iff₀ hone, add_mul,
    div_mul_cancel₀ _ hone.ne']
  exact herror.trans hbound

end Magnitude

namespace Binary64

open Magnitude

variable {x y : Binary64}

/-- The number that the shortest text of a finite number spells. -/
def reading : Binary64 → ℚ
  | nan => 0
  | signed negative m => if negative then -m.reading else m.reading

/-- The decimal of a finite number is its reading. -/
theorem exists_ofBinary64? (h : x.isFinite) :
    ∃ d, Decimal.ofBinary64? x = some d ∧ d.value = x.reading := by
  cases x with
  | nan => cases h
  | signed negative m =>
    refine ⟨_, if_pos h, ?_⟩
    rw [Decimal.value, reading, Magnitude.reading, ← tenTo_div_tenTo]
    cases negative <;> simp [mul_div_assoc, neg_div]

theorem abs_reading (negative : Bool) (m : Magnitude) :
    |(signed negative m).reading| = m.reading := by
  cases negative <;> simp [reading, m.reading_nonneg]

theorem reading_mono (hx : x ≠ .nan) (hy : y ≠ .nan) (h : x.value ≤ y.value) :
    x.reading ≤ y.reading := by
  cases x with
  | nan => exact absurd rfl hx
  | signed s m =>
    cases y with
    | nan => exact absurd rfl hy
    | signed t n =>
      have hm := m.reading_nonneg
      have hn := n.reading_nonneg
      cases s <;> cases t
      · exact Magnitude.reading_mono h
      · -- Both are zero.
        change m.value ≤ -n.value at h
        have hmvalue := m.value_nonneg
        have hnvalue := n.value_nonneg
        have hmzero := m.reading_eq_zero (by linarith)
        have hnzero := n.reading_eq_zero (by linarith)
        change m.reading ≤ -n.reading
        linarith
      · change -m.reading ≤ n.reading
        linarith
      · exact neg_le_neg (Magnitude.reading_mono (neg_le_neg_iff.mp h))

theorem hasDigits_reading (x : Binary64) : HasDigits 100 x.reading := by
  have hmagnitude : ∀ m : Magnitude, HasDigits 100 m.reading := fun m =>
    m.hasDigits_reading.mono (by decide)
  cases x with
  | nan => exact ⟨0, 0, by decide, by simp [reading]⟩
  | signed negative m =>
    cases negative with
    | false => exact hmagnitude m
    | true => exact (hmagnitude m).neg

theorem abs_value_sub_reading_le (x : Binary64) :
    2 * binade * |x.value - x.reading| ≤ |x.value| + binade / unitsPerOne := by
  cases x with
  | nan =>
    have hnonneg : (0 : ℚ) ≤ binade / unitsPerOne :=
      div_nonneg (Nat.cast_nonneg _) (Nat.cast_nonneg _)
    change 2 * (binade : ℚ) * |0 - 0| ≤ |0| + binade / unitsPerOne
    rw [sub_zero, abs_zero, mul_zero, zero_add]
    exact hnonneg
  | signed negative m =>
    have hsame : |(signed negative m).value - (signed negative m).reading|
        = |m.value - m.reading| := by
      cases negative with
      | false => rfl
      | true =>
        change |-m.value - -m.reading| = _
        rw [← neg_sub', abs_neg]
    rw [hsame, abs_value]
    exact m.abs_value_sub_reading_le

/-- A finite number is the nearest one to its reading. -/
theorem isNearest_reading (h : x.isFinite) : x.IsNearest x.reading := by
  cases x with
  | nan => cases h
  | signed negative m =>
    refine isNearest_of_roundsTo h ?_ ?_
    · rw [abs_reading]
      exact m.roundsTo_reading
    · intro hne
      have hnonneg := m.reading_nonneg
      cases negative with
      | false => simpa [reading] using hnonneg
      | true =>
        change -m.reading ≠ 0 at hne
        simpa [reading] using hnonneg.lt_of_ne (neg_ne_zero.mp hne).symm

/-- What can be read as a decimal is finite, and this is its reading. -/
theorem of_ofBinary64? {d : Decimal} (h : Decimal.ofBinary64? x = some d) :
    x.isFinite ∧ x.reading = d.value := by
  have hfinite : x.isFinite := by
    cases x with
    | nan => cases h
    | signed negative m => exact (Option.ite_none_right_eq_some.mp h).1
  obtain ⟨other, hother, hvalue⟩ := exists_ofBinary64? hfinite
  obtain rfl := Option.some.inj (h.symm.trans hother)
  exact ⟨hfinite, hvalue.symm⟩

def readingSum (numbers : List Binary64) : ℚ := (numbers.map reading).sum

theorem readingSum_perm {numbers others : List Binary64}
    (h : numbers.Perm others) : readingSum numbers = readingSum others :=
  (h.map reading).sum_eq

end Binary64
end CampusQuery.Numeric
