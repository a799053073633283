/-
CampusQuery.Proofs.Numeric.Decimal — decimals as rational numbers.

Sums of decimals are exact (`value_sum`). A quotient is rounded, but no number
of a hundred digits lies between it and the exact one (`dividedBy_le`), so that
a quotient of a hundred digits is exact (`value_dividedBy_eq`) and any other
one off by little (`abs_dividedBy_sub_le`).
-/
import Mathlib.Algebra.BigOperators.Group.List.Basic
import Mathlib.Algebra.Order.Field.Power
import Mathlib.Data.Nat.Cast.Order.Field
import Mathlib.Data.Rat.Floor
import Mathlib.Tactic.FieldSimp
import Mathlib.Tactic.Linarith
import Mathlib.Tactic.Ring
import CampusQuery.Numeric.Decimal
import CampusQuery.Proofs.Numeric.Digits

namespace CampusQuery.Numeric

/-! ## Powers of ten -/

theorem cast_tenTo (n : Nat) : (tenTo n : ℚ) = 10 ^ n := Nat.cast_pow 10 n

theorem cast_tenTo_pos (n : Nat) : (0 : ℚ) < tenTo n :=
  Nat.cast_pos.mpr (tenTo_pos n)

theorem ten_zpow_pos (exponent : Int) : (0 : ℚ) < 10 ^ exponent :=
  zpow_pos (by norm_num) exponent

theorem tenTo_mul_zpow (n : Nat) (exponent : Int) :
    (tenTo n : ℚ) * 10 ^ exponent = 10 ^ (n + exponent) := by
  rw [cast_tenTo, ← zpow_natCast, ← zpow_add₀ (by norm_num)]

/-- A power of ten with its sign, in two parts. -/
theorem tenTo_div_tenTo (exponent : Int) :
    (tenTo exponent.toNat / tenTo (-exponent).toNat : ℚ) = 10 ^ exponent := by
  rw [div_eq_iff (cast_tenTo_pos _).ne', mul_comm, tenTo_mul_zpow, cast_tenTo,
    ← zpow_natCast]
  congr 1
  omega

/-! ## Whole numbers -/

/-- The nearest whole number; a half goes away from zero. -/
def halfAway (q : ℚ) : Int :=
  if q < 0 then -⌊-q + 1 / 2⌋ else ⌊q + 1 / 2⌋

theorem halfAway_neg (q : ℚ) : halfAway (-q) = -halfAway q := by
  unfold halfAway
  rcases lt_trichotomy q 0 with hneg | rfl | hpos
  · rw [if_neg (by linarith), if_pos hneg, neg_neg]
  · norm_num
  · rw [if_pos (by linarith), if_neg (by linarith), neg_neg]

theorem abs_halfAway_sub_le (q : ℚ) : |halfAway q - q| ≤ 1 / 2 := by
  have hfloor : ∀ p : ℚ, |(⌊p + 1 / 2⌋ : ℚ) - p| ≤ 1 / 2 := by
    intro p
    have hle := Int.floor_le (p + 1 / 2)
    have hlt := Int.lt_floor_add_one (p + 1 / 2)
    exact abs_le.mpr ⟨by linarith, by linarith⟩
  unfold halfAway
  split
  · rw [Int.cast_neg, ← abs_neg, neg_sub, sub_neg_eq_add, add_comm]
    simpa using hfloor (-q)
  · exact hfloor q

/-- Nothing else is less than a half away. -/
theorem halfAway_eq {q : ℚ} {n : Int} (h : |n - q| < 1 / 2) :
    halfAway q = n := by
  have hself := abs_halfAway_sub_le q
  have hclose : |(halfAway q : ℚ) - n| < 1 := by
    have hsplit : (halfAway q : ℚ) - n = (halfAway q - q) - (n - q) := by ring
    rw [hsplit]
    exact (abs_sub _ _).trans_lt (by linarith)
  have hsame : halfAway q - n = 0 :=
    Int.abs_lt_one_iff.mp (by exact_mod_cast hclose)
  omega

theorem halfAway_intCast (n : Int) : halfAway n = n :=
  halfAway_eq (by rw [sub_self, abs_zero]; norm_num)

theorem halfAway_mono {p q : ℚ} (hle : p ≤ q) : halfAway p ≤ halfAway q := by
  unfold halfAway
  split
  · split
    · exact neg_le_neg (Int.floor_le_floor (by linarith))
    · have hp : 0 ≤ ⌊-p + 1 / 2⌋ := Int.floor_nonneg.mpr (by linarith)
      have hq : 0 ≤ ⌊q + 1 / 2⌋ := Int.floor_nonneg.mpr (by linarith)
      omega
  · rw [if_neg (by linarith)]
    exact Int.floor_le_floor (by linarith)

/-- Numbers near each other round alike if there is no half nearby. -/
theorem halfAway_eq_of_near {p q distance : ℚ} (hnear : |p - q| ≤ distance)
    (hclear : ∀ n : Int, distance < |q - (n + 1 / 2)|) :
    halfAway p = halfAway q := by
  obtain ⟨hlow, hhigh⟩ := abs_le.mp (abs_halfAway_sub_le q)
  obtain ⟨hless, hmore⟩ := abs_le.mp hnear
  have habove := hclear (halfAway q)
  have hbelow := hclear (halfAway q - 1)
  push_cast at hbelow
  rw [abs_of_nonpos (by linarith)] at habove
  rw [abs_of_nonneg (by linarith)] at hbelow
  exact halfAway_eq (abs_lt.mpr ⟨by linarith, by linarith⟩)

theorem roundHalfUp_eq (num : Nat) {den : Nat} (hden : 0 < den) :
    (roundHalfUp num den : Int) = ⌊(num / den : ℚ) + 1 / 2⌋ := by
  have hpos : (0 : ℚ) < den := Nat.cast_pos.mpr hden
  have hsum : (num / den : ℚ) + 1 / 2
      = ((2 * num + den : Nat) : ℚ) / (2 * den : Nat) := by
    push_cast
    field_simp
  rw [hsum, Rat.floor_natCast_div_natCast]
  rfl

/-- A size rounded with its sign is rounded away from zero. -/
theorem halfAway_eq_roundHalfUp {num den : Nat} {negative : Prop}
    [Decidable negative] {q : ℚ} (hden : 0 < den) (hsize : |q| = num / den)
    (hsign : negative ↔ q < 0) :
    halfAway q = if negative then -(roundHalfUp num den : Int)
      else roundHalfUp num den := by
  rw [roundHalfUp_eq num hden, ← hsize, halfAway]
  by_cases hneg : q < 0
  · rw [if_pos hneg, if_pos (hsign.mpr hneg), abs_of_neg hneg]
  · rw [if_neg hneg, if_neg (mt hsign.mp hneg),
      abs_of_nonneg (le_of_not_gt hneg)]

/-! ## Significant digits -/

/-- The number can be written with so many significant digits. -/
def HasDigits (count : Nat) (q : ℚ) : Prop :=
  ∃ coefficient exponent : Int, coefficient.natAbs < tenTo count ∧
    q = coefficient * 10 ^ exponent

theorem HasDigits.neg {count : Nat} {q : ℚ} (h : HasDigits count q) :
    HasDigits count (-q) := by
  obtain ⟨coefficient, exponent, hlt, rfl⟩ := h
  refine ⟨-coefficient, exponent, by rwa [Int.natAbs_neg], ?_⟩
  push_cast
  ring

theorem HasDigits.mono {count other : Nat} {q : ℚ} (h : HasDigits count q)
    (hle : count ≤ other) : HasDigits other q := by
  obtain ⟨coefficient, exponent, hlt, rfl⟩ := h
  exact ⟨coefficient, exponent, hlt.trans_le (tenTo_le_tenTo hle), rfl⟩

/-- With its point moved, such a number is whole, or too small to have all of
these digits in front of the point. -/
theorem HasDigits.whole_or_lt {count : Nat} {q : ℚ}
    (h : HasDigits (count + 1) q) (places : Nat) :
    (∃ n : Int, q * tenTo places = n) ∨ |q * tenTo places| < tenTo count := by
  obtain ⟨coefficient, exponent, hlt, rfl⟩ := h
  rw [mul_assoc, mul_comm _ (tenTo places : ℚ), tenTo_mul_zpow]
  by_cases hwhole : 0 ≤ places + exponent
  · obtain ⟨power, hpower⟩ := Int.eq_ofNat_of_zero_le hwhole
    refine .inl ⟨coefficient * 10 ^ power, ?_⟩
    rw [hpower, zpow_natCast]
    push_cast
    rfl
  · right
    have hcoefficient : |(coefficient : ℚ)| < tenTo (count + 1) := by
      rw [← Int.cast_abs, ← Nat.cast_natAbs]
      exact_mod_cast hlt
    calc |(coefficient : ℚ) * 10 ^ (places + exponent)|
        = |(coefficient : ℚ)| * 10 ^ (places + exponent) := by
          rw [abs_mul, abs_of_pos (ten_zpow_pos _)]
      _ < tenTo (count + 1) * 10 ^ (places + exponent) :=
          mul_lt_mul_of_pos_right hcoefficient (ten_zpow_pos _)
      _ = 10 ^ ((count + 1 : Nat) + (places + exponent)) :=
          tenTo_mul_zpow _ _
      _ ≤ 10 ^ (count : Int) := zpow_le_zpow_right₀ (by norm_num) (by omega)
      _ = tenTo count := by rw [cast_tenTo, zpow_natCast]

/-- Rounding to a grid of which the value takes at least a hundred digits does
not step over a number of a hundred digits. -/
theorem halfAway_le_of_hasDigits {places : Nat} {value bound : ℚ}
    (hbound : HasDigits 100 bound) (hfine : tenTo 99 ≤ |value * tenTo places|)
    (hle : value ≤ bound) :
    (halfAway (value * tenTo places) : ℚ) ≤ bound * tenTo places := by
  have hplaces := cast_tenTo_pos places
  have hmoved : value * tenTo places ≤ bound * tenTo places :=
    mul_le_mul_of_nonneg_right hle hplaces.le
  rcases hbound.whole_or_lt places with ⟨n, hn⟩ | hsmall
  · rw [hn] at hmoved ⊢
    have hround := halfAway_mono hmoved
    rw [halfAway_intCast] at hround
    exact_mod_cast hround
  · -- The bound is on the other side of zero, or nearer to it.
    have hbelow := (abs_lt.mp hsmall).1
    have hneg : value * tenTo places ≤ ((-(tenTo 99 : Int) : Int) : ℚ) := by
      push_cast
      rcases le_abs.mp hfine with h | h
      · have habove := (abs_lt.mp hsmall).2
        linarith
      · linarith
    have hround := halfAway_mono hneg
    rw [halfAway_intCast] at hround
    have hcast : (halfAway (value * tenTo places) : ℚ) ≤ -(tenTo 99 : ℚ) := by
      exact_mod_cast hround
    linarith

theorem le_halfAway_of_hasDigits {places : Nat} {value bound : ℚ}
    (hbound : HasDigits 100 bound) (hfine : tenTo 99 ≤ |value * tenTo places|)
    (hle : bound ≤ value) :
    bound * tenTo places ≤ (halfAway (value * tenTo places) : ℚ) := by
  have hneg : (halfAway (-value * tenTo places) : ℚ) ≤ -bound * tenTo places :=
    halfAway_le_of_hasDigits hbound.neg (by rwa [neg_mul, abs_neg])
      (neg_le_neg hle)
  rw [neg_mul, halfAway_neg, Int.cast_neg, neg_mul] at hneg
  exact neg_le_neg_iff.mp hneg

namespace Decimal

/-! ## Values -/

def value (d : Decimal) : ℚ := d.coefficient / tenTo d.scale

theorem value_zero : zero.value = 0 := by simp [value, zero]

theorem value_coefficientAt {d : Decimal} {scale : Nat} (h : d.scale ≤ scale) :
    (d.coefficientAt scale : ℚ) = d.value * tenTo scale := by
  have hscale := cast_tenTo_pos d.scale
  obtain ⟨rest, rfl⟩ := Nat.exists_eq_add_of_le h
  rw [coefficientAt, value, Nat.add_sub_cancel_left, tenTo_add,
    div_mul_eq_mul_div, eq_div_iff hscale.ne']
  push_cast
  ring

theorem value_add (a b : Decimal) : (a.add b).value = a.value + b.value := by
  have hscale := cast_tenTo_pos (max a.scale b.scale)
  rw [add, value]
  push_cast
  rw [value_coefficientAt (Nat.le_max_left _ _),
    value_coefficientAt (Nat.le_max_right _ _), ← add_mul,
    mul_div_cancel_right₀ _ hscale.ne']

theorem value_sum (numbers : List Decimal) :
    (sum numbers).value = (numbers.map value).sum := by
  have hfold : ∀ (numbers : List Decimal) (start : Decimal),
      (numbers.foldl add start).value
        = start.value + (numbers.map value).sum := by
    intro numbers
    induction numbers with
    | nil => simp
    | cons d rest ih =>
      intro start
      rw [List.foldl_cons, ih, value_add, List.map_cons, List.sum_cons,
        add_assoc]
  rw [sum, hfold, value_zero, zero_add]

/-- At one scale there is one decimal of a value. -/
theorem eq_of_value {a b : Decimal} (hscale : a.scale = b.scale)
    (hvalue : a.value = b.value) : a = b := by
  rw [value, value, hscale, div_left_inj' (cast_tenTo_pos _).ne',
    Int.cast_inj] at hvalue
  cases a
  cases b
  cases hscale
  cases hvalue
  rfl

/-- Decimals may be added in any order. -/
theorem sum_perm {numbers others : List Decimal} (h : numbers.Perm others) :
    sum numbers = sum others := by
  refine h.foldl_eq' (fun a _ b _ total => ?_) zero
  refine eq_of_value ?_ ?_
  · exact Nat.max_right_comm _ _ _
  · rw [value_add, value_add, value_add, value_add, add_right_comm]

theorem abs_value (d : Decimal) :
    |d.value| = d.coefficient.natAbs / tenTo d.scale := by
  rw [value, abs_div, Nat.abs_cast, Nat.cast_natAbs, Int.cast_abs]

theorem coefficient_neg_iff (d : Decimal) : d.coefficient < 0 ↔ d.value < 0 := by
  rw [value, div_lt_iff₀ (cast_tenTo_pos _), zero_mul, Int.cast_lt_zero]

/-! ## Hundredths -/

theorem hundredths_eq (d : Decimal) :
    d.hundredths = halfAway (d.value * 100) := by
  have hsize : |d.value * 100|
      = ((d.coefficient.natAbs * 100 : Nat) : ℚ) / tenTo d.scale := by
    rw [abs_mul, abs_value]
    push_cast
    rw [abs_of_pos (by norm_num : (0 : ℚ) < 100)]
    ring
  have hsign : d.coefficient < 0 ↔ d.value * 100 < 0 := by
    rw [d.coefficient_neg_iff]
    constructor <;> intro h <;> linarith
  rw [halfAway_eq_roundHalfUp (tenTo_pos _) hsize hsign]
  rfl

/-! ## Quotients -/

/-- The quotient is carried to a hundred digits at least. -/
theorem tenTo_le_of_leadingPositionOf {num den extra : Nat} (hnum : num ≠ 0)
    (hden : 0 < den)
    (hextra : extra = (quotientDigits - leadingPositionOf num den).toNat) :
    tenTo 99 * den ≤ num * tenTo extra := by
  have hquotient : quotientDigits = 100 := rfl
  unfold leadingPositionOf at hextra
  split at hextra
  · rename_i hle
    have hpos : num / den ≠ 0 := (Nat.div_pos hle hden).ne'
    have hdigits : tenTo (digitCount (num / den) - 1) * den ≤ num :=
      (Nat.le_div_iff_mul_le hden).mp (tenTo_digitCount_le hpos)
    have hcount := digitCount_pos (num / den)
    have hplaces : tenTo 99
        ≤ tenTo (digitCount (num / den) - 1) * tenTo extra := by
      rw [← tenTo_add]
      exact tenTo_le_tenTo (by omega)
    calc tenTo 99 * den
        ≤ tenTo (digitCount (num / den) - 1) * tenTo extra * den :=
          Nat.mul_le_mul_right _ hplaces
      _ = tenTo (digitCount (num / den) - 1) * den * tenTo extra :=
          Nat.mul_right_comm _ _ _
      _ ≤ num * tenTo extra := Nat.mul_le_mul_right _ hdigits
  · have hlt := lt_tenTo_digitCount ((den - 1) / num)
    rw [Nat.div_lt_iff_lt_mul (Nat.pos_of_ne_zero hnum)] at hlt
    have hle : den ≤ tenTo (digitCount ((den - 1) / num)) * num := by omega
    have hsum : extra = 99 + digitCount ((den - 1) / num) := by omega
    calc tenTo 99 * den
        ≤ tenTo 99 * (tenTo (digitCount ((den - 1) / num)) * num) :=
          Nat.mul_le_mul_left _ hle
      _ = num * tenTo extra := by
          rw [hsum, tenTo_add, ← Nat.mul_assoc, Nat.mul_comm]

variable {d : Decimal} {count : Nat} {bound : ℚ}

/-- A quotient is rounded to a grid of which it takes many steps. -/
theorem value_dividedBy (hd : d.coefficient ≠ 0) (hcount : 0 < count) :
    ∃ places, tenTo 99 ≤ |d.value / count * tenTo places| ∧
      (d.dividedBy count).value
        = halfAway (d.value / count * tenTo places) / tenTo places := by
  have hcast : (0 : ℚ) < count := Nat.cast_pos.mpr hcount
  have hnum : d.coefficient.natAbs ≠ 0 := Int.natAbs_ne_zero.mpr hd
  obtain ⟨extra, hextra⟩ : ∃ extra, extra = (quotientDigits
      - leadingPositionOf d.coefficient.natAbs count).toNat := ⟨_, rfl⟩
  have hfine := tenTo_le_of_leadingPositionOf hnum hcount hextra
  have hplaces := cast_tenTo_pos (d.scale + extra)
  have hsize : |d.value / count * tenTo (d.scale + extra)|
      = ((d.coefficient.natAbs * tenTo extra : Nat) : ℚ) / count := by
    have hscale := cast_tenTo_pos d.scale
    rw [abs_mul, abs_div, abs_value, Nat.abs_cast, Nat.abs_cast, tenTo_add]
    push_cast
    field_simp
  have hsign : d.coefficient < 0 ↔
      d.value / count * tenTo (d.scale + extra) < 0 := by
    rw [d.coefficient_neg_iff, ← div_lt_div_iff_of_pos_right hcast, zero_div,
      ← mul_lt_mul_iff_left₀ hplaces, zero_mul]
  refine ⟨d.scale + extra, ?_, ?_⟩
  · rw [hsize, le_div_iff₀ hcast]
    exact_mod_cast hfine
  · rw [halfAway_eq_roundHalfUp hcount hsize hsign, dividedBy, if_neg hnum,
      ← hextra]
    rfl

theorem value_dividedBy_of_eq_zero (hd : d.coefficient = 0) :
    (d.dividedBy count).value = d.value / count := by
  rw [dividedBy, if_pos (Int.natAbs_eq_zero.mpr hd), value_zero, value, hd,
    Int.cast_zero, zero_div, zero_div]

/-- No number of a hundred digits lies between a quotient and its exact
value. -/
theorem dividedBy_le (hcount : 0 < count) (hbound : HasDigits 100 bound)
    (hle : d.value / count ≤ bound) : (d.dividedBy count).value ≤ bound := by
  by_cases hd : d.coefficient = 0
  · rwa [value_dividedBy_of_eq_zero hd]
  · obtain ⟨places, hfine, hvalue⟩ := value_dividedBy hd hcount
    rw [hvalue, div_le_iff₀ (cast_tenTo_pos places)]
    exact halfAway_le_of_hasDigits hbound hfine hle

theorem le_dividedBy (hcount : 0 < count) (hbound : HasDigits 100 bound)
    (hle : bound ≤ d.value / count) : bound ≤ (d.dividedBy count).value := by
  by_cases hd : d.coefficient = 0
  · rwa [value_dividedBy_of_eq_zero hd]
  · obtain ⟨places, hfine, hvalue⟩ := value_dividedBy hd hcount
    rw [hvalue, le_div_iff₀ (cast_tenTo_pos places)]
    exact le_halfAway_of_hasDigits hbound hfine hle

/-- A quotient of a hundred digits is exact. -/
theorem value_dividedBy_eq (hcount : 0 < count)
    (h : HasDigits 100 (d.value / count)) :
    (d.dividedBy count).value = d.value / count :=
  le_antisymm (dividedBy_le hcount h le_rfl) (le_dividedBy hcount h le_rfl)

/-- Any other quotient is off by a 10 ^ 99th part at most. -/
theorem abs_dividedBy_sub_le (hcount : 0 < count) :
    |(d.dividedBy count).value - d.value / count|
      ≤ |d.value / count| / tenTo 99 := by
  have hdigits := cast_tenTo_pos 99
  by_cases hd : d.coefficient = 0
  · rw [value_dividedBy_of_eq_zero hd, sub_self, abs_zero]
    positivity
  · obtain ⟨places, hfine, hvalue⟩ := value_dividedBy hd hcount
    have hplaces := cast_tenTo_pos places
    have hround := abs_halfAway_sub_le (d.value / count * tenTo places)
    rw [abs_mul, Nat.abs_cast] at hfine
    have hdiff : (d.dividedBy count).value - d.value / count
        = (halfAway (d.value / count * tenTo places)
          - d.value / count * tenTo places) / tenTo places := by
      rw [hvalue, sub_div, mul_div_cancel_right₀ _ hplaces.ne']
    rw [hdiff, abs_div, Nat.abs_cast, div_le_div_iff₀ hplaces hdigits]
    calc |(halfAway (d.value / count * tenTo places) : ℚ)
            - d.value / count * tenTo places| * tenTo 99
        ≤ 1 * tenTo 99 :=
          mul_le_mul_of_nonneg_right (hround.trans (by norm_num)) hdigits.le
      _ ≤ |d.value / count| * tenTo places := by rwa [one_mul]

end Decimal

end CampusQuery.Numeric
