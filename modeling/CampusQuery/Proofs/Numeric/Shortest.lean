/-
CampusQuery.Proofs.Numeric.Shortest — the shortest decimal of a magnitude.

The decimals that read back as a magnitude fill an interval around it, and
the intervals of two magnitudes have nothing in common (`readsBack_unique`).
On the grid of seventeen digits the steps are shorter than the interval, so
the search finds a decimal, which reads back (`readsBack_shortest`).
-/
import Mathlib.Tactic.Set
import CampusQuery.Numeric.Shortest
import CampusQuery.Proofs.Numeric.Digits
import CampusQuery.Proofs.Numeric.Magnitude

namespace CampusQuery.Numeric.Magnitude

variable {m : Magnitude}

/-! ## Intervals -/

/-- What lies strictly between the midpoints reads back. -/
theorem readsBack_of_lt {count : Nat} {exponent : Int}
    (hlow : (unitsAt (m.rank - 1) + m.units) * tenTo (-exponent).toNat
      < 2 * count * (unitsPerOne * tenTo exponent.toNat))
    (hhigh : 2 * count * (unitsPerOne * tenTo exponent.toNat)
      < (m.units + unitsAt (m.rank + 1)) * tenTo (-exponent).toNat) :
    m.readsBack count exponent := by
  simp only [readsBack]
  split
  · exact (Bool.and_eq_true _ _).mpr
      ⟨decide_eq_true hlow.le, decide_eq_true hhigh.le⟩
  · exact (Bool.and_eq_true _ _).mpr
      ⟨decide_eq_true hlow, decide_eq_true hhigh⟩

/-- What reads back does not lie outside of the midpoints, nor on them if the
rank is odd. -/
theorem le_of_readsBack {count : Nat} {exponent : Int}
    (h : m.readsBack count exponent) :
    (unitsAt (m.rank - 1) + m.units) * tenTo (-exponent).toNat
      + m.rank % 2 ≤ 2 * count * (unitsPerOne * tenTo exponent.toNat) ∧
    2 * count * (unitsPerOne * tenTo exponent.toNat) + m.rank % 2
      ≤ (m.units + unitsAt (m.rank + 1)) * tenTo (-exponent).toNat := by
  simp only [readsBack] at h
  split at h
  · rename_i heven
    rw [heven]
    simpa using h
  · have hodd : m.rank % 2 = 1 := by omega
    rw [hodd]
    simpa [Nat.succ_le_iff] using h

/-- The value itself reads back. -/
theorem readsBack_of_eq {count : Nat} {exponent : Int}
    (h : count * (unitsPerOne * tenTo exponent.toNat)
      = m.units * tenTo (-exponent).toNat) : m.readsBack count exponent := by
  have hscale := tenTo_pos (-exponent).toNat
  by_cases hrank : m.rank = 0
  · have hunits := units_eq_zero.mpr hrank
    rw [hunits, Nat.zero_mul] at h
    simp [readsBack, Nat.mul_assoc, h, hrank, hunits, unitsAt_zero]
  · have hbefore := Nat.mul_lt_mul_of_pos_right
      (strictMono_unitsAt (Nat.sub_one_lt hrank)) hscale
    have hafter := Nat.mul_lt_mul_of_pos_right (unitsAt_lt_succ m.rank) hscale
    refine readsBack_of_lt ?_ ?_
    · rw [Nat.mul_assoc 2, h, Nat.add_mul]
      change unitsAt _ * _ < m.units * _ at hbefore
      omega
    · rw [Nat.mul_assoc 2, h, Nat.add_mul]
      change m.units * _ < _ at hafter
      omega

/-- A decimal reads back as one magnitude only. -/
theorem readsBack_unique {m n : Magnitude} {count : Nat} {exponent : Int}
    (hm : m.readsBack count exponent) (hn : n.readsBack count exponent) :
    m = n := by
  have hlt : ∀ {m n : Magnitude}, m.readsBack count exponent →
      n.readsBack count exponent → ¬m.rank < n.rank := by
    intro m n hm hn hrank
    have hscale : 0 < tenTo (-exponent).toNat := tenTo_pos _
    have hhigh := (le_of_readsBack hm).2
    have hlow := (le_of_readsBack hn).1
    by_cases hnext : n.rank = m.rank + 1
    · -- The two intervals meet in a midpoint, which belongs to one of them.
      have hmid : (unitsAt (n.rank - 1) + n.units) * tenTo (-exponent).toNat
          = (m.units + unitsAt (m.rank + 1)) * tenTo (-exponent).toNat := by
        rw [units, units, hnext, Nat.add_sub_cancel]
      omega
    · have hgap : m.units + unitsAt (m.rank + 1)
          < unitsAt (n.rank - 1) + n.units :=
        Nat.add_lt_add (strictMono_unitsAt (by omega))
          (strictMono_unitsAt (by omega))
      have := Nat.mul_lt_mul_of_pos_right hgap hscale
      omega
  have hrank : m.rank = n.rank :=
    Nat.le_antisymm (Nat.le_of_not_lt (hlt hn hm))
      (Nat.le_of_not_lt (hlt hm hn))
  cases m
  cases n
  cases hrank
  rfl

/-- Only the value of the steps counts, not how it is split. -/
theorem readsBack_congr {count other : Nat} {exponent place : Int}
    (hvalue : count * tenTo exponent.toNat = other * tenTo place.toNat)
    (hscale : (-exponent).toNat = (-place).toNat) :
    m.readsBack count exponent = m.readsBack other place := by
  have hpoint : 2 * count * (unitsPerOne * tenTo exponent.toNat)
      = 2 * other * (unitsPerOne * tenTo place.toNat) := by
    rw [Nat.mul_mul_mul_comm, hvalue, Nat.mul_mul_mul_comm]
  unfold readsBack
  rw [hpoint, hscale]

/-- Moving a zero from the coefficient to the exponent changes nothing. -/
theorem readsBack_mul_ten (count : Nat) (exponent : Int) :
    m.readsBack (10 * count) exponent = m.readsBack count (exponent + 1) := by
  by_cases hexponent : 0 ≤ exponent
  · refine readsBack_congr ?_ (by omega)
    rw [Int.toNat_add hexponent (by decide), tenTo_add, Nat.mul_comm 10,
      Nat.mul_assoc, Nat.mul_comm 10]
    rfl
  · have hscale : tenTo (-exponent).toNat
        = 10 * tenTo (-(exponent + 1)).toNat := by
      rw [show (-exponent).toNat = 1 + (-(exponent + 1)).toNat by omega,
        tenTo_add]
      rfl
    have hone : exponent.toNat = (exponent + 1).toNat := by omega
    have hpoint : 2 * (10 * count) * (unitsPerOne * tenTo exponent.toNat)
        = 10 * (2 * count * (unitsPerOne * tenTo (exponent + 1).toNat)) := by
      rw [hone, Nat.mul_left_comm 2 10, Nat.mul_assoc 10]
    unfold readsBack
    rw [hpoint, hscale]
    simp only [Nat.mul_left_comm _ 10, Nat.mul_le_mul_left_iff (Nat.zero_lt_succ 9),
      Nat.mul_lt_mul_left (Nat.zero_lt_succ 9)]

theorem readsBack_trimZeros {count : Nat} {exponent : Int}
    (h : m.readsBack count exponent) :
    m.readsBack (trimZeros count exponent).1 (trimZeros count exponent).2 := by
  induction count, exponent using trimZeros.induct with
  | case1 count exponent hstop =>
    rw [trimZeros, if_pos hstop]
    exact h
  | case2 count exponent hgo ih =>
    rw [trimZeros, if_neg hgo]
    refine ih ?_
    have hcount : 10 * (count / 10) = count := by omega
    rwa [← readsBack_mul_ten, hcount]

theorem not_readsBack_zero (h : m.units ≠ 0) (exponent : Int) :
    ¬m.readsBack 0 exponent := by
  intro hzero
  have hle := (le_of_readsBack hzero).1
  have hlow : 0 < (unitsAt (m.rank - 1) + m.units)
      * tenTo (-exponent).toNat := Nat.mul_pos (by omega) (tenTo_pos _)
  rw [Nat.mul_zero, Nat.zero_mul] at hle
  omega

/-! ## Seventeen digits -/

/-- The value is not below its leading position. -/
theorem leadingPosition_le (h : m.units ≠ 0) :
    unitsPerOne * tenTo (m.leadingPosition - 1).toNat
      ≤ m.units * tenTo (-(m.leadingPosition - 1)).toNat := by
  have hone := unitsPerOne_pos
  unfold leadingPosition
  split
  · rename_i hle
    have hquot : m.units / unitsPerOne ≠ 0 :=
      (Nat.div_pos hle hone).ne'
    have hdigits := tenTo_digitCount_le hquot
    have hcount := digitCount_pos (m.units / unitsPerOne)
    set count := digitCount (m.units / unitsPerOne)
    rw [show ((count : Int) - 1).toNat = count - 1 by omega,
      show (-((count : Int) - 1)).toNat = 0 by omega]
    calc unitsPerOne * tenTo (count - 1)
        ≤ unitsPerOne * (m.units / unitsPerOne) :=
          Nat.mul_le_mul_left _ hdigits
      _ ≤ m.units := Nat.mul_div_le _ _
      _ = m.units * tenTo 0 := (Nat.mul_one _).symm
  · have hdigits := lt_tenTo_digitCount ((unitsPerOne - 1) / m.units)
    set count := digitCount ((unitsPerOne - 1) / m.units)
    rw [show ((1 : Int) - count - 1).toNat = 0 by omega,
      show (-((1 : Int) - count - 1)).toNat = count by omega]
    have hlt := (Nat.div_lt_iff_lt_mul (Nat.pos_of_ne_zero h)).mp hdigits
    rw [Nat.mul_comm m.units, show tenTo 0 = 1 from rfl, Nat.mul_one]
    omega

/-- The value is below the next position. -/
theorem lt_leadingPosition (h : m.units ≠ 0) :
    m.units * tenTo (-m.leadingPosition).toNat
      < unitsPerOne * tenTo m.leadingPosition.toNat := by
  have hone := unitsPerOne_pos
  unfold leadingPosition
  split
  · have hdigits := lt_tenTo_digitCount (m.units / unitsPerOne)
    rw [Nat.div_lt_iff_lt_mul hone] at hdigits
    rw [Int.toNat_natCast, Int.toNat_neg_natCast, Nat.mul_comm unitsPerOne]
    rwa [show tenTo 0 = 1 from rfl, Nat.mul_one]
  · rename_i hsmall
    have hdigits := @tenTo_digitCount_le ((unitsPerOne - 1) / m.units)
    have hcount := digitCount_pos ((unitsPerOne - 1) / m.units)
    have hzero : (unitsPerOne - 1) / m.units = 0 →
        digitCount ((unitsPerOne - 1) / m.units) = 1 := fun hzero => by
      rw [hzero, digitCount, if_pos (by decide)]
    set count := digitCount ((unitsPerOne - 1) / m.units)
    rw [show (1 - (count : Int)).toNat = 0 by omega,
      show (-(1 - (count : Int))).toNat = count - 1 by omega,
      show tenTo 0 = 1 from rfl, Nat.mul_one]
    by_cases hquotient : (unitsPerOne - 1) / m.units = 0
    · rw [hzero hquotient, show tenTo (1 - 1) = 1 from rfl]
      omega
    · have hle := (Nat.le_div_iff_mul_le (Nat.pos_of_ne_zero h)).mp
        (hdigits hquotient)
      rw [Nat.mul_comm]
      omega

/-- On the grid of seventeen digits, sixteen orders below the leading
position, the steps are at most a 10 ^ 16th part of the value. -/
theorem step_le (h : m.units ≠ 0) :
    unitsPerOne * tenTo (m.leadingPosition - 17).toNat * tenTo 16
      ≤ m.units * tenTo (-(m.leadingPosition - 17)).toNat := by
  have hle := leadingPosition_le h
  set first := m.leadingPosition - 1
  rw [show m.leadingPosition - 17 = first - 16 by omega]
  have hsum : (first - 16).toNat + 16 + (-first).toNat
      = first.toNat + (-(first - 16)).toNat := by omega
  refine Nat.le_of_mul_le_mul_right ?_ (tenTo_pos (-first).toNat)
  calc unitsPerOne * tenTo (first - 16).toNat * tenTo 16
        * tenTo (-first).toNat
      = unitsPerOne * tenTo first.toNat * tenTo (-(first - 16)).toNat := by
        rw [Nat.mul_assoc, Nat.mul_assoc, ← Nat.mul_assoc (tenTo _),
          ← tenTo_add, ← tenTo_add, hsum, tenTo_add, Nat.mul_assoc]
    _ ≤ m.units * tenTo (-first).toNat * tenTo (-(first - 16)).toNat :=
        Nat.mul_le_mul_right _ hle
    _ = m.units * tenTo (-(first - 16)).toNat * tenTo (-first).toNat :=
        Nat.mul_right_comm _ _ _

/-- If the steps of a grid are shorter than the interval of a magnitude, one
of the two neighbours of the value on that grid reads back. -/
theorem readsBack_floor_or_next {exponent : Int}
    (h : 2 * (unitsPerOne * tenTo exponent.toNat)
        + (unitsAt (m.rank - 1) + m.units) * tenTo (-exponent).toNat
      < (m.units + unitsAt (m.rank + 1)) * tenTo (-exponent).toNat) :
    m.readsBack ((m.inSteps exponent).num / (m.inSteps exponent).den)
        exponent ∨
      m.readsBack ((m.inSteps exponent).num / (m.inSteps exponent).den + 1)
        exponent := by
  have hden : 0 < unitsPerOne * tenTo exponent.toNat :=
    Nat.mul_pos unitsPerOne_pos (tenTo_pos _)
  have hbefore : unitsAt (m.rank - 1) * tenTo (-exponent).toNat
      ≤ m.units * tenTo (-exponent).toNat :=
    Nat.mul_le_mul_right _ (strictMono_unitsAt.monotone (Nat.sub_le _ _))
  have hafter : m.units * tenTo (-exponent).toNat
      < unitsAt (m.rank + 1) * tenTo (-exponent).toNat :=
    Nat.mul_lt_mul_of_pos_right (unitsAt_lt_succ m.rank) (tenTo_pos _)
  have hfloor := Nat.div_mul_le_self
    (m.units * tenTo (-exponent).toNat) (unitsPerOne * tenTo exponent.toNat)
  have hnext := @Nat.lt_div_mul_add
    (m.units * tenTo (-exponent).toNat) _ hden
  simp only [inSteps]
  set floor := m.units * tenTo (-exponent).toNat
    / (unitsPerOne * tenTo exponent.toNat)
  rw [Nat.add_mul, Nat.add_mul] at h
  -- A neighbour below the interval is less than its width away from the next
  -- one, which is above the value and so cannot be below the interval too.
  by_cases hlow : unitsAt (m.rank - 1) * tenTo (-exponent).toNat
      + m.units * tenTo (-exponent).toNat
      < 2 * (floor * (unitsPerOne * tenTo exponent.toNat))
  · refine .inl (readsBack_of_lt ?_ ?_) <;> rw [Nat.add_mul, Nat.mul_assoc 2]
    · exact hlow
    · omega
  · refine .inr (readsBack_of_lt ?_ ?_) <;>
      rw [Nat.add_mul, Nat.mul_assoc 2, Nat.succ_mul floor] <;> omega

/-- A grid with a neighbour of the value that reads back is not passed over. -/
theorem isSome_nearestOnGrid?_of_readsBack (tie : TieRule) {exponent : Int}
    (h : m.readsBack ((m.inSteps exponent).num / (m.inSteps exponent).den)
        exponent ∨
      m.readsBack ((m.inSteps exponent).num / (m.inSteps exponent).den + 1)
        exponent) : (m.nearestOnGrid? tie exponent).isSome := by
  unfold nearestOnGrid?
  extract_lets steps floor rest
  split
  · rename_i hfloor hnext
    rcases h with hhit | hhit
    · exact absurd (hfloor.symm.trans hhit) Bool.false_ne_true
    · exact absurd (hnext.symm.trans hhit) Bool.false_ne_true
  · rfl
  · rfl
  · split
    · rfl
    · split
      · rfl
      · cases tie <;> rfl

/-- Seventeen digits suffice. -/
theorem isSome_nearestOnGrid? (tie : TieRule) (h : m.units ≠ 0) :
    (m.nearestOnGrid? tie (m.leadingPosition - 17)).isSome := by
  have hrank : m.rank ≠ 0 := fun hrank => h (units_eq_zero.mpr hrank)
  have hwide : 2 * (unitsPerOne * tenTo (m.leadingPosition - 17).toNat)
        + (unitsAt (m.rank - 1) + m.units)
          * tenTo (-(m.leadingPosition - 17)).toNat
      < (m.units + unitsAt (m.rank + 1))
          * tenTo (-(m.leadingPosition - 17)).toNat := by
    have hstep := step_le h
    have hgap := Nat.mul_lt_mul_of_pos_right (two_mul_unitsAt_lt hrank)
      (tenTo_pos (-(m.leadingPosition - 17)).toNat)
    rw [Nat.add_mul, Nat.mul_assoc, Nat.mul_assoc, Nat.mul_assoc] at hgap
    rw [Nat.add_mul, Nat.add_mul]
    rw [show tenTo 16 = 10000000000000000 from rfl] at hstep hgap
    change 2 * (m.units * _) + _ < _ at hgap
    omega
  exact isSome_nearestOnGrid?_of_readsBack tie (readsBack_floor_or_next hwide)

/-! ## The search -/

/-- One of the two neighbours of the value is chosen on a grid. -/
theorem of_nearestOnGrid? {tie : TieRule} {exponent : Int} {count : Nat}
    (h : m.nearestOnGrid? tie exponent = some count) :
    m.readsBack count exponent ∧
      count ≤ (m.inSteps exponent).num / (m.inSteps exponent).den + 1 := by
  unfold nearestOnGrid? at h
  extract_lets steps floor rest at h
  split at h
  · cases h
  · rename_i hfloor _
    obtain rfl := Option.some.inj h
    exact ⟨hfloor, Nat.le_succ _⟩
  · rename_i _ hnext
    obtain rfl := Option.some.inj h
    exact ⟨hnext, Nat.le_refl _⟩
  · rename_i hfloor hnext
    -- Both neighbours read back, so it does not matter which one is chosen.
    have hboth : count = floor ∨ count = floor + 1 := by
      split at h
      · exact .inl (Option.some.inj h).symm
      · split at h
        · exact .inr (Option.some.inj h).symm
        · cases tie with
          | up => exact .inr (Option.some.inj h).symm
          | toEven =>
            rw [Option.some.injEq] at h
            split at h
            · exact .inl h.symm
            · exact .inr h.symm
    rcases hboth with rfl | rfl
    · exact ⟨hfloor, Nat.le_succ floor⟩
    · exact ⟨hnext, Nat.le_refl (floor + 1)⟩

/-- The search ends on the first grid that has a choice. -/
theorem exists_search (tie : TieRule) (h : m.units ≠ 0) :
    ∃ digits count, 0 < digits ∧ digits ≤ maxDigits ∧
      m.nearestOnGrid? tie (m.leadingPosition - digits) = some count ∧
      (∀ fewer, 0 < fewer → fewer < digits →
        m.nearestOnGrid? tie (m.leadingPosition - fewer) = none) ∧
      (m.shortest tie).coefficient
        = (trimZeros count (m.leadingPosition - digits)).1 ∧
      (m.shortest tie).exponent
        = (trimZeros count (m.leadingPosition - digits)).2 := by
  unfold shortest
  rw [if_neg h]
  extract_lets top grids found
  have hfound : found.isSome := by
    rw [List.findSome?_isSome_iff]
    refine ⟨m.leadingPosition - 17, ?_, ?_⟩
    · exact List.mem_map.mpr ⟨16, by decide, rfl⟩
    · rw [Option.isSome_map]
      exact isSome_nearestOnGrid? tie h
  obtain ⟨chosen, hchosen⟩ := Option.isSome_iff_exists.mp hfound
  have hsearch := hchosen
  simp only [found, grids, List.findSome?_map] at hsearch
  rw [List.findSome?_eq_some_iff] at hsearch
  obtain ⟨before, index, after, hrange, hhit, hmiss⟩ := hsearch
  obtain ⟨count, hcount, rfl⟩ := Option.map_eq_some_iff.mp hhit
  have hsorted : (before ++ index :: after).Pairwise (· < ·) :=
    hrange ▸ List.pairwise_lt_range
  have hmem : ∀ n, n ∈ before ++ index :: after ↔ n < maxDigits := by
    intro n
    rw [← hrange, List.mem_range]
  refine ⟨index + 1, count, Nat.succ_pos _, (hmem index).mp (by simp), hcount,
    ?_, ?_, ?_⟩
  · intro fewer hpos hlt
    obtain ⟨n, rfl⟩ := Nat.exists_eq_add_one_of_ne_zero hpos.ne'
    have hbefore : n ∈ before := by
      have hindex := (hmem index).mp (by simp)
      have hn := (hmem n).mpr (by omega)
      rw [List.mem_append, List.mem_cons] at hn
      rcases hn with hn | rfl | hn
      · exact hn
      · omega
      · have hafter := (List.pairwise_append.mp hsorted).2.1
        have hgreater := (List.pairwise_cons.mp hafter).1 n hn
        omega
    exact Option.map_eq_none_iff.mp (hmiss n hbefore)
  · rw [hchosen]
    rfl
  · rw [hchosen]
    rfl

/-- The shortest decimal reads back. -/
theorem readsBack_shortest (tie : TieRule) (m : Magnitude) :
    m.readsBack (m.shortest tie).coefficient (m.shortest tie).exponent := by
  by_cases hunits : m.units = 0
  · unfold shortest
    rw [if_pos hunits]
    exact readsBack_of_eq (by rw [hunits, Nat.zero_mul, Nat.zero_mul])
  · obtain ⟨digits, count, -, -, hcount, -, hcoefficient, hexponent⟩ :=
      exists_search tie hunits
    rw [hcoefficient, hexponent]
    exact readsBack_trimZeros (of_nearestOnGrid? hcount).1

/-- Only zero has the coefficient zero, and it is written without an
exponent. -/
theorem shortest_shape (tie : TieRule) (m : Magnitude) :
    (m.shortest tie).coefficient ≠ 0 ∨ (m.shortest tie).exponent = 0 := by
  by_cases hunits : m.units = 0
  · unfold shortest
    rw [if_pos hunits]
    exact .inr rfl
  · have hreads := readsBack_shortest tie m
    refine .inl fun hzero => ?_
    rw [hzero] at hreads
    exact not_readsBack_zero hunits _ hreads

end CampusQuery.Numeric.Magnitude
