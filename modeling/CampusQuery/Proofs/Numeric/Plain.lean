/-
CampusQuery.Proofs.Numeric.Plain — texts with all digits in place.

The digits of such a text and the place of its point are those of a decimal
that reads back as the magnitude. As a decimal reads back as one magnitude
only, the text tells the magnitude (`SpelledAs.unique`).
-/
import Mathlib.Data.List.TakeWhile
import CampusQuery.Proofs.Numeric.Shortest

namespace CampusQuery.Numeric

/-! ## Digits and points -/

def digitsOf (text : List Char) : Nat := digitsValue (text.filter Char.isDigit)

/-- How many characters come after the point. -/
def placesOf (text : List Char) : Nat := (text.dropWhile Char.isDigit).length - 1

theorem digitsValue_zeros (count : Nat) :
    digitsValue (List.replicate count '0') = 0 := by
  induction count with
  | zero => rfl
  | succ count ih =>
    rw [List.replicate_succ, ← List.singleton_append, digitsValue_append, ih]
    rfl

theorem digitsOf_eq {text : List Char} (h : ∀ c ∈ text, c.isDigit) :
    digitsOf text = digitsValue text := by
  rw [digitsOf, List.filter_eq_self.mpr h]

theorem placesOf_eq_zero {text : List Char} (h : ∀ c ∈ text, c.isDigit) :
    placesOf text = 0 := by
  rw [placesOf, List.dropWhile_eq_nil_iff.mpr h]
  rfl

/-- A text with a point. -/
theorem digitsOf_point {before after : List Char}
    (hbefore : ∀ c ∈ before, c.isDigit) (hafter : ∀ c ∈ after, c.isDigit) :
    digitsOf (before ++ '.' :: after) = digitsValue (before ++ after) := by
  rw [digitsOf, List.filter_append, List.filter_cons_of_neg (by decide),
    List.filter_eq_self.mpr hbefore, List.filter_eq_self.mpr hafter]

theorem placesOf_point {before after : List Char}
    (hbefore : ∀ c ∈ before, c.isDigit) :
    placesOf (before ++ '.' :: after) = after.length := by
  rw [placesOf, List.dropWhile_append_of_pos hbefore,
    List.dropWhile_cons_of_neg (by decide)]
  rfl

theorem isDigit_of_mem_zeros {count : Nat} {c : Char}
    (h : c ∈ List.replicate count '0') : c.isDigit := by
  rw [List.eq_of_mem_replicate h]
  rfl

namespace ShortDecimal

/-- The digits and the point of a decimal in full. -/
theorem digitsOf_placesOf_positional (d : ShortDecimal) :
    digitsOf (d.positional []) = d.coefficient * tenTo d.exponent.toNat ∧
      placesOf (d.positional []) = (-d.exponent).toNat := by
  have hdigits : ∀ c ∈ digitChars d.coefficient, c.isDigit :=
    fun _ => isDigit_of_mem_digitChars
  have hlength : (digitChars d.coefficient).length = d.length :=
    length_digitChars _
  unfold positional
  simp only [List.append_nil]
  split
  · rename_i hwhole
    have hall : ∀ c ∈ digitChars d.coefficient
        ++ List.replicate d.exponent.toNat '0', c.isDigit := by
      intro c hc
      exact (List.mem_append.mp hc).elim (hdigits c) isDigit_of_mem_zeros
    rw [digitsOf_eq hall, placesOf_eq_zero hall, digitsValue_append,
      digitsValue_digitChars, digitsValue_zeros, List.length_replicate]
    exact ⟨Nat.mul_comm _ _, by omega⟩
  · rename_i hfraction
    have hone : d.exponent.toNat = 0 := by omega
    rw [hone, show tenTo 0 = 1 from rfl, Nat.mul_one]
    split
    · rename_i hinside
      rw [digitsOf_point (fun c hc => hdigits c (List.mem_of_mem_take hc))
        (fun c hc => hdigits c (List.mem_of_mem_drop hc)),
        placesOf_point fun c hc => hdigits c (List.mem_of_mem_take hc),
        List.take_append_drop, digitsValue_digitChars, List.length_drop,
        hlength]
      refine ⟨rfl, ?_⟩
      unfold pointPosition at *
      omega
    · have hall : ∀ c ∈ List.replicate (-d.pointPosition).toNat '0'
          ++ digitChars d.coefficient, c.isDigit := by
        intro c hc
        exact (List.mem_append.mp hc).elim isDigit_of_mem_zeros (hdigits c)
      have hzero : ∀ c ∈ ['0'], c.isDigit :=
        List.forall_mem_singleton.mpr rfl
      have hvalue : digitsValue (['0'] ++ (List.replicate
          (-d.pointPosition).toNat '0' ++ digitChars d.coefficient))
            = d.coefficient := by
        rw [digitsValue_append, digitsValue_append, digitsValue_zeros,
          digitsValue_digitChars, show digitsValue ['0'] = 0 from rfl,
          Nat.mul_zero, Nat.mul_zero, Nat.zero_add, Nat.zero_add]
      have hafter : (List.replicate (-d.pointPosition).toNat '0'
          ++ digitChars d.coefficient).length = (-d.exponent).toNat := by
        rw [List.length_append, List.length_replicate, hlength]
        unfold pointPosition at *
        omega
      exact ⟨(digitsOf_point hzero hall).trans hvalue,
        (placesOf_point hzero).trans hafter⟩

/-- A decimal in full starts with a digit. -/
theorem positional_eq_cons (d : ShortDecimal) :
    ∃ c rest, d.positional [] = c :: rest ∧ c.isDigit := by
  obtain ⟨c, rest, heq⟩ :=
    List.exists_cons_of_ne_nil (digitChars_ne_nil d.coefficient)
  have hc : c.isDigit :=
    isDigit_of_mem_digitChars (heq ▸ List.mem_cons_self)
  unfold positional
  simp only [heq, List.append_nil]
  split
  · exact ⟨c, _, rfl, hc⟩
  · split
    · rename_i hinside
      obtain ⟨position, hposition⟩ : ∃ position,
          d.pointPosition.toNat = position + 1 :=
        ⟨d.pointPosition.toNat - 1, by omega⟩
      rw [hposition]
      exact ⟨c, _, rfl, hc⟩
    · exact ⟨'0', _, rfl, by decide⟩

end ShortDecimal

/-! ## Magnitudes -/

namespace Magnitude

variable {m n : Magnitude} {body : List Char}

/-- The text is that of the magnitude without a sign. -/
inductive SpelledAs (m : Magnitude) (body : List Char) : Prop
  | digits :
    m.isFinite →
    (∃ c rest, body = c :: rest ∧ c.isDigit) →
    m.readsBack (digitsOf body) (-(placesOf body : Int)) →
    SpelledAs m body
  | infinite : ¬m.isFinite → body = ['i', 'n', 'f'] → SpelledAs m body

/-- A text is that of one magnitude only. -/
theorem SpelledAs.unique (hm : m.SpelledAs body) (hn : n.SpelledAs body) :
    m = n := by
  cases hm with
  | digits _ hstart hreads =>
    cases hn with
    | digits _ _ hreads' => exact readsBack_unique hreads hreads'
    | infinite _ hbody =>
      obtain ⟨c, rest, rfl, hc⟩ := hstart
      cases hbody
      exact absurd hc (by decide)
  | infinite hinfinite hbody =>
    cases hn with
    | digits _ hstart _ =>
      obtain ⟨c, rest, rfl, hc⟩ := hstart
      cases hbody
      exact absurd hc (by decide)
    | infinite hinfinite' _ =>
      have hm := m.rank_le
      have hn := n.rank_le
      simp only [isFinite, decide_eq_true_eq] at hinfinite hinfinite'
      obtain ⟨rank, _⟩ := m
      obtain ⟨rank', _⟩ := n
      obtain rfl : rank = rank' := by dsimp only at *; omega
      rfl

theorem spelledAs_positional (tie : TieRule) (h : m.isFinite) :
    m.SpelledAs ((m.shortest tie).positional []) := by
  obtain ⟨hdigits, hplaces⟩ :=
    (m.shortest tie).digitsOf_placesOf_positional
  refine .digits h (ShortDecimal.positional_eq_cons _) ?_
  rw [hdigits, hplaces, readsBack_congr _ _]
  · exact readsBack_shortest tie m
  · rw [show (-(((-(m.shortest tie).exponent).toNat : Int))).toNat = 0 by omega]
    exact Nat.mul_one _
  · omega

theorem spelledAs_digitChars {count : Nat} (h : m.isFinite)
    (hunits : m.units = count * unitsPerOne) :
    m.SpelledAs (digitChars count) := by
  have hdigits : ∀ c ∈ digitChars count, c.isDigit :=
    fun _ => isDigit_of_mem_digitChars
  obtain ⟨c, rest, heq⟩ :=
    List.exists_cons_of_ne_nil (digitChars_ne_nil count)
  refine .digits h ⟨c, rest, heq, hdigits c (heq ▸ List.mem_cons_self)⟩ ?_
  rw [digitsOf_eq hdigits, digitsValue_digitChars, placesOf_eq_zero hdigits]
  refine readsBack_of_eq ?_
  rw [hunits]
  exact (Nat.mul_assoc _ _ _).symm

end Magnitude

/-! ## Whole numbers -/

namespace Binary64

/-- A whole number is its magnitude with its sign. -/
theorem of_toWhole? {negative : Bool} {m : Magnitude} {whole : Int}
    (h : (signed negative m).toWhole? = some whole) :
    m.isFinite ∧ m.units = whole.natAbs * unitsPerOne ∧
      (whole < 0 ↔ negative ∧ m.units ≠ 0) := by
  have hone : (0 : Int) < unitsPerOne :=
    Int.natCast_pos.mpr unitsPerOne_pos
  obtain ⟨hexact, -⟩ := Option.filter_eq_some_iff.mp h
  obtain ⟨units, hunits, hwhole⟩ := Option.bind_eq_some_iff.mp hexact
  have hvalue : whole * unitsPerOne = units := by
    split at hwhole
    · rename_i hdvd
      cases hwhole
      exact Int.ediv_mul_cancel (Int.dvd_of_emod_eq_zero hdvd)
    · cases hwhole
  have hsign : whole < 0 ↔ units < 0 := by
    rw [← hvalue]
    constructor
    · intro hneg
      exact Int.mul_neg_of_neg_of_pos hneg hone
    · intro hneg
      exact Int.not_le.mp fun hle =>
        absurd hneg (Int.not_lt.mpr (Int.mul_nonneg hle hone.le))
  have habs := congrArg Int.natAbs hvalue
  rw [Int.natAbs_mul, Int.natAbs_natCast] at habs
  simp only [units?] at hunits
  split at hunits
  · rename_i hfinite
    obtain rfl := Option.some.inj hunits
    refine ⟨hfinite, ?_, ?_⟩
    · rw [habs]
      split <;> simp
    · rw [hsign]
      cases negative with
      | false => simp
      | true => simp [Nat.pos_iff_ne_zero]
  · cases hunits

theorem toWhole?_zero (negative : Bool) {m : Magnitude} (h : m.units = 0) :
    (signed negative m).toWhole? = some 0 := by
  have hrank := Magnitude.units_eq_zero.mp h
  have hfinite : m.isFinite := by
    rw [Magnitude.isFinite, hrank]
    exact decide_eq_true (Nat.mul_pos (by decide) binade_pos)
  have hunits : (signed negative m).units? = some 0 := by
    rw [units?, if_pos hfinite, h]
    cases negative <;> rfl
  have hexact : (signed negative m).exactInt? = some 0 := by
    refine Option.bind_eq_some_iff.mpr ⟨0, hunits, ?_⟩
    rw [if_pos (Int.zero_emod _), Int.zero_ediv]
  rw [toWhole?, hexact]
  exact Option.filter_eq_some_iff.mpr ⟨rfl, decide_eq_true (twoTo_pos 53)⟩

/-- Numbers are equal if they are the same or both are zero. -/
theorem equals_signed {s t : Bool} {m n : Magnitude} :
    (signed s m).equals (signed t n) ↔ m = n ∧ (s = t ∨ m.rank = 0) := by
  have hrank : m = n ↔ m.rank = n.rank := by
    cases m
    cases n
    simp
  rw [hrank]
  simp only [equals, compare?, orderKey?, beq_iff_eq, Option.some.injEq,
    compare_eq_iff_eq]
  cases s <;> cases t <;> simp <;> omega

end Binary64

end CampusQuery.Numeric
