/-
CampusQuery.Proofs.Value — what the text of a value tells.

Numbers with the same text are equal, but for "no number"
(`numberText_eq_iff`). Values with the same text need not be equal: a text
may be that of a number (`display_eq_iff`).
-/
import CampusQuery.Proofs.Numeric.Plain
import CampusQuery.Value

namespace CampusQuery

open Numeric

/-! ## Texts of numbers -/

namespace Value

/-- A number other than "no number" is written as its magnitude behind a
minus sign, which zero does not have. -/
theorem numberText_signed (negative : Bool) (m : Magnitude) :
    ∃ body, numberText (.signed negative m) = String.ofList
        (Binary64.signChars (negative && decide (m.units ≠ 0)) ++ body) ∧
      m.SpelledAs body := by
  unfold numberText
  cases hwhole : (Binary64.signed negative m).toWhole? with
  | some whole =>
    obtain ⟨hfinite, hunits, hsign⟩ := Binary64.of_toWhole? hwhole
    refine ⟨digitChars whole.natAbs, ?_,
      Magnitude.spelledAs_digitChars hfinite hunits⟩
    have hnegative : (negative && decide (m.units ≠ 0))
        = decide (whole < 0) := by
      rw [Bool.eq_iff_iff, Bool.and_eq_true, decide_eq_true_eq,
        decide_eq_true_eq, hsign]
    rw [hnegative]
    unfold wholeChars Binary64.signChars
    by_cases hneg : whole < 0 <;> simp [hneg]
  | none =>
    have hunits : m.units ≠ 0 := by
      intro hzero
      rw [Binary64.toWhole?_zero negative hzero] at hwhole
      cases hwhole
    have hsign : (negative && decide (m.units ≠ 0)) = negative := by
      simp [hunits]
    rw [hsign]
    refine ⟨_, rfl, ?_⟩
    by_cases hfinite : m.isFinite
    · rw [if_pos hfinite]
      exact Magnitude.spelledAs_positional .up hfinite
    · rw [if_neg hfinite]
      exact .infinite hfinite rfl

/-- A sign and what comes behind it can be told apart. -/
theorem signChars_append_inj {s t : Bool} {m n : Magnitude}
    {body other : List Char} (hm : m.SpelledAs body) (hn : n.SpelledAs other)
    (h : Binary64.signChars s ++ body = Binary64.signChars t ++ other) :
    s = t ∧ body = other := by
  have hstart : ∀ {m : Magnitude} {body : List Char}, m.SpelledAs body →
      ∀ rest, body ≠ '-' :: rest := by
    intro m body hbody rest
    cases hbody with
    | digits _ hstart _ =>
      obtain ⟨c, tail, rfl, hc⟩ := hstart
      rintro heq
      cases heq
      exact absurd hc (by decide)
    | infinite _ hinf =>
      rw [hinf]
      simp
  cases s <;> cases t
  · exact ⟨rfl, h⟩
  · exact absurd h (hstart hm _)
  · exact absurd h.symm (hstart hn _)
  · exact ⟨rfl, List.cons.inj h |>.2⟩

/-- "No number" has a text of its own. -/
theorem numberText_signed_ne_nan (negative : Bool) (m : Magnitude) :
    numberText (.signed negative m) ≠ numberText .nan := by
  obtain ⟨body, htext, hbody⟩ := numberText_signed negative m
  rw [htext]
  intro h
  have hchars : Binary64.signChars (negative && decide (m.units ≠ 0)) ++ body
      = ['N', 'a', 'N'] := by
    have hlist := congrArg String.toList h
    rw [String.toList_ofList] at hlist
    exact hlist
  have hhead : body = ['N', 'a', 'N'] := by
    unfold Binary64.signChars at hchars
    split at hchars
    · cases hchars
    · exact hchars
  cases hbody with
  | digits _ hstart _ =>
    obtain ⟨c, rest, rfl, hc⟩ := hstart
    cases hhead
    exact absurd hc (by decide)
  | infinite _ hinf =>
    rw [hinf] at hhead
    cases hhead

theorem numberText_signed_eq_iff {s t : Bool} {m n : Magnitude} :
    numberText (.signed s m) = numberText (.signed t n) ↔
      m = n ∧ (s = t ∨ m.units = 0) := by
  obtain ⟨body, hbody, hm⟩ := numberText_signed s m
  obtain ⟨other, hother, hn⟩ := numberText_signed t n
  constructor
  · intro h
    rw [hbody, hother, String.ofList_inj] at h
    obtain ⟨hsign, rfl⟩ := signChars_append_inj hm hn h
    obtain rfl := hm.unique hn
    refine ⟨rfl, ?_⟩
    by_cases hunits : m.units = 0
    · exact .inr hunits
    · exact .inl (by simpa [hunits] using hsign)
  · rintro ⟨rfl, rfl | hunits⟩
    · rfl
    · unfold numberText
      rw [Binary64.toWhole?_zero s hunits, Binary64.toWhole?_zero t hunits]

/-- Numbers have the same text if they are equal or neither is a number. -/
theorem numberText_eq_iff {x y : Binary64} :
    numberText x = numberText y ↔ x.equals y ∨ x = .nan ∧ y = .nan := by
  cases x with
  | nan =>
    cases y with
    | nan => simp
    | signed t n =>
      simpa [Binary64.equals, Binary64.compare?, Binary64.orderKey?] using
        (numberText_signed_ne_nan t n).symm
  | signed s m =>
    cases y with
    | nan =>
      simpa [Binary64.equals, Binary64.compare?, Binary64.orderKey?] using
        numberText_signed_ne_nan s m
    | signed t n =>
      simp [numberText_signed_eq_iff, Magnitude.units_eq_zero,
        Binary64.equals_signed]

/-! ## Texts of values -/

/-- Values that are not equal although they have the same text. -/
inductive LooksLike : Value → Value → Prop
  | nan : LooksLike (.number .nan) (.number .nan)
  | text (x : Binary64) : LooksLike (.text (numberText x)) (.number x)
  | number (x : Binary64) : LooksLike (.number x) (.text (numberText x))

theorem LooksLike.not_equals {v w : Value} (h : LooksLike v w) :
    ¬v.equals w := by
  cases h <;> simp [equals, Binary64.equals, Binary64.compare?,
    Binary64.orderKey?]

/-- Values have the same text if they are equal or look alike. -/
theorem display_eq_iff {v w : Value} :
    v.display = w.display ↔ v.equals w ∨ v.LooksLike w := by
  cases v with
  | text s =>
    cases w with
    | text t =>
      have hlike : ¬LooksLike (.text s) (.text t) := fun h => nomatch h
      simp [display, equals, hlike]
    | number y =>
      simp only [display, equals, Bool.false_eq_true, false_or]
      constructor
      · rintro rfl
        exact .text y
      · rintro ⟨⟩
        rfl
  | number x =>
    cases w with
    | text t =>
      simp only [display, equals, Bool.false_eq_true, false_or]
      constructor
      · rintro rfl
        exact .number x
      · rintro ⟨⟩
        rfl
    | number y =>
      rw [display, display, numberText_eq_iff, equals]
      refine or_congr_right ?_
      constructor
      · rintro ⟨rfl, rfl⟩
        exact .nan
      · rintro ⟨⟩
        exact ⟨rfl, rfl⟩

end Value

end CampusQuery
