/-
CampusQuery.Proofs.Json.Numeral — what is written of a number is a numeral.

A lexeme is a numeral if the scanner can go through it and stop at its end.
Whole numbers are written as one, and so is every finite floating-point
number, in either of its two layouts. Nothing is said here about the value
of the numeral.
-/
import CampusQuery.Json.Token
import CampusQuery.Json.Writer
import CampusQuery.Proofs.Numeric.Shortest

namespace CampusQuery.Json

open Numeric

/-! ## Walks -/

namespace NumeralPlace

def walk? (place : NumeralPlace) (chars : List Char) : Option NumeralPlace :=
  chars.foldlM step? place

def after? : List Char → Option NumeralPlace
  | [] => none
  | c :: rest => do walk? (← begin? c) rest

@[simp] theorem walk?_nil (place : NumeralPlace) :
    place.walk? [] = some place := rfl

theorem walk?_cons {place next : NumeralPlace} {c : Char}
    (h : place.step? c = some next) (rest : List Char) :
    place.walk? (c :: rest) = next.walk? rest := by
  rw [walk?, List.foldlM_cons, h]
  rfl

theorem walk?_append {place next : NumeralPlace} {first : List Char}
    (h : place.walk? first = some next) (rest : List Char) :
    place.walk? (first ++ rest) = next.walk? rest := by
  rw [walk?, List.foldlM_append]
  change (place.walk? first >>= _) = _
  rw [h]
  rfl

/-- Digits lead on from a place that they lead back to. -/
theorem walk?_digits {place : NumeralPlace}
    (hstay : ∀ c : Char, c.isDigit → place.step? c = some place) :
    ∀ digits : List Char, (∀ c ∈ digits, c.isDigit) →
      place.walk? digits = some place
  | [], _ => rfl
  | c :: rest, hdigits => by
    rw [walk?_cons (hstay c (hdigits c (by simp)))]
    exact walk?_digits hstay rest fun d hd => hdigits d (by simp [hd])

/-- Digits lead on to another place if the first one does. -/
theorem walk?_digits_to {place next : NumeralPlace}
    (henter : ∀ c : Char, c.isDigit → place.step? c = some next)
    (hstay : ∀ c : Char, c.isDigit → next.step? c = some next)
    {digits : List Char} (hne : digits ≠ []) (h : ∀ c ∈ digits, c.isDigit) :
    place.walk? digits = some next := by
  cases digits with
  | nil => exact absurd rfl hne
  | cons c rest =>
    rw [walk?_cons (henter c (h c (by simp)))]
    exact walk?_digits hstay rest fun d hd => h d (by simp [hd])

/-! ## Pieces -/

def IsWhole (place : NumeralPlace) : Prop := place = zero ∨ place = whole

theorem step?_whole (c : Char) (h : c.isDigit) : whole.step? c = some whole := by
  simp [step?, h]

theorem walk?_whole {c : Char} {rest : List Char} (hc : c ≠ '0')
    (hdigits : ∀ d ∈ c :: rest, d.isDigit) :
    sign.walk? (c :: rest) = some whole := by
  have hdigit := hdigits c (by simp)
  have hminus : c ≠ '-' := by
    rintro rfl
    exact absurd hdigit (by decide)
  have hstep : sign.step? c = some whole := by
    simp [step?, begin?, hminus, hc, hdigit]
  rw [walk?_cons hstep]
  exact walk?_digits step?_whole rest fun d hd => hdigits d (by simp [hd])

/-- The first digits of a number other than zero. -/
theorem walk?_take {n count : Nat} (hn : n ≠ 0) (hcount : count ≠ 0) :
    sign.walk? ((digitChars n).take count) = some whole := by
  obtain ⟨c, rest, heq, hc⟩ := digitChars_eq_cons hn
  obtain ⟨count, rfl⟩ := Nat.exists_eq_succ_of_ne_zero hcount
  have hdigits : ∀ d ∈ (digitChars n).take (count + 1), d.isDigit :=
    fun d hd => isDigit_of_mem_digitChars (List.mem_of_mem_take hd)
  rw [heq, List.take_succ_cons] at hdigits ⊢
  exact walk?_whole hc hdigits

/-- A number starts with a single zero or without one. -/
theorem walk?_digitChars (n : Nat) :
    sign.walk? (digitChars n) = some (if n = 0 then zero else whole) := by
  by_cases hn : n = 0
  · rw [if_pos hn, hn, digitChars_zero]
    rfl
  · have hlength : (digitChars n).length ≠ 0 := by
      simpa using digitChars_ne_nil n
    have htake := walk?_take hn hlength
    rw [List.take_length] at htake
    rw [htake, if_neg hn]

theorem isWhole_digitChars (n : Nat) :
    ∃ place, sign.walk? (digitChars n) = some place ∧ place.IsWhole := by
  refine ⟨_, walk?_digitChars n, ?_⟩
  by_cases hn : n = 0
  · exact .inl (if_pos hn)
  · exact .inr (if_neg hn)

/-- A point with digits behind it. -/
theorem walk?_point {place : NumeralPlace} (hplace : place.IsWhole)
    {digits : List Char} (hne : digits ≠ []) (h : ∀ c ∈ digits, c.isDigit) :
    place.walk? ('.' :: digits) = some fraction := by
  have hstep : place.step? '.' = some point := by
    rcases hplace with rfl | rfl <;> rfl
  rw [walk?_cons hstep]
  exact walk?_digits_to (fun c hc => by simp [step?, hc])
    (fun c hc => by simp [step?, hc]) hne h

/-- An exponent with a sign. -/
theorem walk?_exponent {place : NumeralPlace}
    (hplace : place.IsWhole ∨ place = fraction) {mark : Char}
    (hmark : mark = '-' ∨ mark = '+') (n : Nat) :
    place.walk? ('e' :: mark :: digitChars n) = some exponent := by
  have hstep : place.step? 'e' = some .mark := by
    rcases hplace with (rfl | rfl) | rfl <;> rfl
  have hsign : NumeralPlace.mark.step? mark = some markSign := by
    rcases hmark with rfl | rfl <;> rfl
  rw [walk?_cons hstep, walk?_cons hsign]
  exact walk?_digits_to (fun c hc => by simp [step?, hc])
    (fun c hc => by simp [step?, hc]) (digitChars_ne_nil n)
    (fun c => isDigit_of_mem_digitChars)

/-- A numeral may have a minus sign in front. -/
theorem after?_signChars {lexeme : List Char} {place : NumeralPlace}
    (h : sign.walk? lexeme = some place) (hfinal : place.isFinal)
    (negative : Bool) :
    after? (Binary64.signChars negative ++ lexeme) = some place := by
  cases negative with
  | true => exact h
  | false =>
    cases lexeme with
    | nil =>
      cases h
      exact absurd hfinal (by decide)
    | cons c rest =>
      change after? (c :: rest) = _
      by_cases hc : c = '-'
      · subst hc
        exact absurd h (by simp [walk?, step?])
      · rw [← h, after?, walk?, List.foldlM_cons]
        simp only [step?, if_neg hc]
        rfl

end NumeralPlace

/-! ## Numerals -/

/-- The scanner can go through the lexeme and stop at its end. -/
def IsNumeral (lexeme : List Char) : Prop :=
  ∃ place, NumeralPlace.after? lexeme = some place ∧ place.isFinal

open NumeralPlace in
theorem walk?_positional {d : ShortDecimal}
    (hd : d.coefficient ≠ 0 ∨ d.exponent = 0) :
    sign.walk? (d.positional ['.', '0']) = some .fraction := by
  have hdigits : ∀ c ∈ digitChars d.coefficient, c.isDigit :=
    fun c => isDigit_of_mem_digitChars
  unfold ShortDecimal.positional
  extract_lets digits
  split
  · rename_i hexponent
    -- The zeros behind the digits are no zeros in front of others.
    obtain ⟨place, hplace, hwhole⟩ : ∃ place,
        sign.walk? (digits ++ List.replicate d.exponent.toNat '0')
          = some place ∧ place.IsWhole := by
      rcases hd with hd | hd
      · have hdigits := walk?_digitChars d.coefficient
        rw [if_neg hd] at hdigits
        refine ⟨whole, ?_, .inr rfl⟩
        rw [walk?_append hdigits]
        refine walk?_digits step?_whole _ fun c hc => ?_
        rw [List.eq_of_mem_replicate hc]
        rfl
      · rw [hd, Int.toNat_zero, List.replicate_zero, List.append_nil]
        exact isWhole_digitChars d.coefficient
    rw [walk?_append hplace]
    exact walk?_point hwhole (by simp) (by simp)
  · rename_i hexponent
    have hne : d.coefficient ≠ 0 :=
      hd.resolve_right fun h => hexponent (by omega)
    split
    · rename_i hposition
      have hlength : digits.length = d.length := length_digitChars _
      have hbehind : digits.drop d.pointPosition.toNat ≠ [] := by
        rw [Ne, List.drop_eq_nil_iff, hlength]
        unfold ShortDecimal.pointPosition at *
        omega
      rw [walk?_append (walk?_take hne (by omega))]
      exact walk?_point (.inr rfl) hbehind
        fun c hc => hdigits c (List.mem_of_mem_drop hc)
    · have hzero : sign.step? '0' = some zero := rfl
      rw [List.cons_append, List.cons_append, walk?_cons hzero]
      refine walk?_point (.inl rfl) (by simp [digits, digitChars_ne_nil]) ?_
      intro c hc
      rcases List.mem_append.mp hc with hc | hc
      · rw [List.eq_of_mem_replicate hc]
        rfl
      · exact hdigits c hc

open NumeralPlace in
theorem walk?_exponential (d : ShortDecimal) :
    sign.walk? d.exponential = some .exponent := by
  unfold ShortDecimal.exponential
  extract_lets exponent digits mantissa mark
  have hdigits : ∀ c ∈ digits, c.isDigit :=
    fun c => isDigit_of_mem_digitChars
  have hmark : mark = '-' ∨ mark = '+' := by
    by_cases h : exponent < 0
    · exact .inl (if_pos h)
    · exact .inr (if_neg h)
  obtain ⟨place, hplace, hbehind⟩ : ∃ place,
      sign.walk? mantissa = some place ∧
        (place.IsWhole ∨ place = fraction) := by
    have hfirst : ∀ c rest, digits = c :: rest →
        ∃ place, sign.walk? [c] = some place ∧ place.IsWhole := by
      intro c rest heq
      have hc := hdigits c (by simp [heq])
      by_cases hzero : c = '0'
      · exact ⟨zero, by rw [hzero]; rfl, .inl rfl⟩
      · exact ⟨whole, walk?_whole hzero (by simpa using hc), .inr rfl⟩
    rcases hcase : digits with _ | ⟨c, _ | ⟨next, rest⟩⟩
    · exact absurd hcase (digitChars_ne_nil _)
    · obtain ⟨place, hplace, hwhole⟩ := hfirst c _ hcase
      exact ⟨place, by simpa [mantissa, hcase] using hplace, .inl hwhole⟩
    · obtain ⟨place, hplace, hwhole⟩ := hfirst c _ hcase
      refine ⟨fraction, ?_, .inr rfl⟩
      have hsplit : mantissa = [c] ++ '.' :: next :: rest := by
        simp [mantissa, hcase]
      rw [hsplit, walk?_append hplace]
      exact walk?_point hwhole (by simp)
        fun e he => hdigits e (by simp [hcase, List.mem_cons.mp he])
  rw [walk?_append hplace]
  exact walk?_exponent hbehind hmark _

/-- A whole number is written as a numeral. -/
theorem isNumeral_wholeChars (n : Int) : IsNumeral (wholeChars n) := by
  obtain ⟨place, hplace, hwhole⟩ :=
    NumeralPlace.isWhole_digitChars n.natAbs
  have hfinal : place.isFinal := by
    rcases hwhole with rfl | rfl <;> rfl
  have hsplit : wholeChars n
      = Binary64.signChars (n < 0) ++ digitChars n.natAbs := by
    unfold wholeChars
    by_cases hn : n < 0 <;> simp [hn, Binary64.signChars]
  rw [hsplit]
  exact ⟨place, NumeralPlace.after?_signChars hplace hfinal _, hfinal⟩

/-- A finite floating-point number is written as a numeral. -/
theorem isNumeral_literalChars (negative : Bool) (magnitude : Magnitude) :
    IsNumeral (Binary64.literalChars negative magnitude) := by
  unfold Binary64.literalChars
  extract_lets digits position
  split
  · exact ⟨.fraction, NumeralPlace.after?_signChars
      (walk?_positional (magnitude.shortest_shape _)) rfl _, rfl⟩
  · exact ⟨.exponent, NumeralPlace.after?_signChars
      (walk?_exponential _) rfl _, rfl⟩

end CampusQuery.Json
