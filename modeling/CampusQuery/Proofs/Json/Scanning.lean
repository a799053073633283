/-
CampusQuery.Proofs.Json.Scanning — scanning what the writer has written.

`run?` reads a whole list of characters. Every piece of text that the writer
makes has a lemma that takes it off the front of the list: a string and a
word leave their token behind, and so does a numeral in front of a character
that cannot be part of it.
-/
import CampusQuery.Json.Reader
import CampusQuery.Proofs.Json.Numeral

namespace CampusQuery.Json

open Mode

namespace Progress

def run? (follows : Char → Bool) (maxDepth : Nat) (progress : Progress)
    (chars : List Char) : Option Progress :=
  chars.foldlM (step? follows maxDepth) progress

variable {follows : Char → Bool} {maxDepth : Nat} {stack : List Frame}
  {next : Expected} {mode : Mode} {c : Char} {rest : List Char}

@[simp] theorem run?_nil (progress : Progress) :
    run? follows maxDepth progress [] = some progress := rfl

theorem run?_cons (progress : Progress) (c : Char) (rest : List Char) :
    run? follows maxDepth progress (c :: rest) =
      (progress.step? follows maxDepth c).bind
        (run? follows maxDepth · rest) := List.foldlM_cons ..

/-! ## Single characters -/

/-- A character in the middle of a token. -/
theorem run?_goOn (after : Mode) (hends : mode.endsBefore c = false)
    (h : mode.step? c = some after.goOn) :
    run? follows maxDepth ⟨mode, .reading stack next⟩ (c :: rest) =
      run? follows maxDepth ⟨after, .reading stack next⟩ rest := by
  rw [run?_cons, step?, hends, if_neg Bool.false_ne_true]
  simp [advance?, h, goOn]

/-- The last character of a token. -/
theorem run?_found (hends : mode.endsBefore c = false) {token : Token}
    (h : mode.step? c = some (found token)) :
    run? follows maxDepth ⟨mode, .reading stack next⟩ (c :: rest) =
      ((Reader.reading stack next).step? maxDepth token).bind fun reader =>
        run? follows maxDepth ⟨.between, reader⟩ rest := by
  rw [run?_cons, step?, hends, if_neg Bool.false_ne_true]
  simp only [advance?, h, found, bind, Option.bind]
  cases (Reader.reading stack next).step? maxDepth token <;> rfl

/-- A mark between tokens. -/
theorem run?_mark {token : Token} (h : begin? c = some (found token)) :
    run? follows maxDepth ⟨.between, .reading stack next⟩ (c :: rest) =
      ((Reader.reading stack next).step? maxDepth token).bind fun reader =>
        run? follows maxDepth ⟨.between, reader⟩ rest :=
  run?_found rfl h

/-! ## Strings -/

theorem hexValue?_hexDigit : ∀ n < 16, hexValue? (hexDigit n) = some n := by
  decide

/-- A character inside a string, as it is written. -/
theorem run?_escapeChar (reversed : List Char) (c : Char) :
    run? follows maxDepth ⟨.text reversed none, .reading stack next⟩
        (escapeChar c ++ rest) =
      run? follows maxDepth ⟨.text (c :: reversed) none, .reading stack next⟩
        rest := by
  -- Short escapes are a backslash and one more character.
  have hshort : ∀ letter : Char, letter ≠ 'u' → unescape? letter = some c →
      run? follows maxDepth ⟨.text reversed none, .reading stack next⟩
          ('\\' :: letter :: rest) =
        run? follows maxDepth
          ⟨.text (c :: reversed) none, .reading stack next⟩ rest := by
    intro letter hletter hc
    rw [run?_goOn (.escape reversed none) rfl rfl]
    exact run?_goOn _ rfl (by simp [Mode.step?, hletter, hc])
  unfold escapeChar
  split
  · exact hshort '"' (by decide) rfl
  · exact hshort '\\' (by decide) rfl
  · exact hshort 'n' (by decide) rfl
  · exact hshort 'r' (by decide) rfl
  · exact hshort 't' (by decide) rfl
  · exact hshort 'b' (by decide) rfl
  · exact hshort 'f' (by decide) rfl
  · rename_i hquote hbackslash _ _ _ _ _
    split
    · rename_i hcontrol
      have hhigh := hexValue?_hexDigit (c.toNat / 16) (by omega)
      have hlow := hexValue?_hexDigit (c.toNat % 16) (by omega)
      have hcode : 16 * (c.toNat / 16) + c.toNat % 16 = c.toNat :=
        Nat.div_add_mod _ _
      simp only [List.cons_append, List.nil_append]
      rw [run?_goOn (.escape reversed none) rfl rfl,
        run?_goOn (.code reversed none 0 0) rfl rfl,
        run?_goOn (.code reversed none 1 0) rfl rfl,
        run?_goOn (.code reversed none 2 0) rfl rfl,
        run?_goOn (.code reversed none 3 (c.toNat / 16)) rfl
          (by simp [Mode.step?, hhigh])]
      refine run?_goOn _ rfl ?_
      have hclose : closeCode? reversed none c.toNat
          = some (.text (c :: reversed) none) := by
        have hsurrogate : ¬(0xD800 ≤ c.toNat ∧ c.toNat ≤ 0xDBFF) := by omega
        have hsecond : ¬(0xDC00 ≤ c.toNat ∧ c.toNat ≤ 0xDFFF) := by omega
        simp [closeCode?, hsurrogate, hsecond]
      simp [Mode.step?, hlow, hcode, hclose]
    · rename_i hcontrol
      exact run?_goOn _ rfl (by simp_all [Mode.step?])

/-- A string in quotes. -/
theorem run?_quoteChars (value : String) :
    run? follows maxDepth ⟨.between, .reading stack next⟩
        (quoteChars value ++ rest) =
      ((Reader.reading stack next).step? maxDepth (.text value)).bind
        fun reader => run? follows maxDepth ⟨.between, reader⟩ rest := by
  have hbody : ∀ (chars reversed : List Char),
      run? follows maxDepth ⟨.text reversed none, .reading stack next⟩
          (chars.flatMap escapeChar ++ '"' :: rest) =
        run? follows maxDepth
          ⟨.text (chars.reverse ++ reversed) none, .reading stack next⟩
          ('"' :: rest) := by
    intro chars
    induction chars with
    | nil => intro reversed; rfl
    | cons c chars ih =>
      intro reversed
      rw [List.flatMap_cons, List.append_assoc, run?_escapeChar, ih,
        List.reverse_cons, List.append_assoc, List.singleton_append]
  rw [quoteChars, List.cons_append, List.cons_append, List.append_assoc,
    List.singleton_append, run?_goOn (.text [] none) rfl rfl, hbody]
  refine run?_found rfl ?_
  simp [Mode.step?]

/-! ## Words -/

theorem run?_null :
    run? follows maxDepth ⟨.between, .reading stack next⟩
        ("null".toList ++ rest) =
      ((Reader.reading stack next).step? maxDepth (.literal .null)).bind
        fun reader => run? follows maxDepth ⟨.between, reader⟩ rest := by
  change run? _ _ _ ('n' :: 'u' :: 'l' :: 'l' :: rest) = _
  rw [run?_goOn (.word ['n']) rfl rfl,
    run?_goOn (.word ['u', 'n']) rfl rfl,
    run?_goOn (.word ['l', 'u', 'n']) rfl rfl]
  exact run?_found rfl rfl

theorem run?_true :
    run? follows maxDepth ⟨.between, .reading stack next⟩
        ("true".toList ++ rest) =
      ((Reader.reading stack next).step? maxDepth (.literal (.bool true))).bind
        fun reader => run? follows maxDepth ⟨.between, reader⟩ rest := by
  change run? _ _ _ ('t' :: 'r' :: 'u' :: 'e' :: rest) = _
  rw [run?_goOn (.word ['t']) rfl rfl,
    run?_goOn (.word ['r', 't']) rfl rfl,
    run?_goOn (.word ['u', 'r', 't']) rfl rfl]
  exact run?_found rfl rfl

theorem run?_false :
    run? follows maxDepth ⟨.between, .reading stack next⟩
        ("false".toList ++ rest) =
      ((Reader.reading stack next).step? maxDepth (.literal (.bool false))).bind
        fun reader => run? follows maxDepth ⟨.between, reader⟩ rest := by
  change run? _ _ _ ('f' :: 'a' :: 'l' :: 's' :: 'e' :: rest) = _
  rw [run?_goOn (.word ['f']) rfl rfl,
    run?_goOn (.word ['a', 'f']) rfl rfl,
    run?_goOn (.word ['l', 'a', 'f']) rfl rfl,
    run?_goOn (.word ['s', 'l', 'a', 'f']) rfl rfl]
  exact run?_found rfl rfl

/-! ## Numerals -/

/-- What starts a numeral starts nothing else. -/
theorem begin?_numeral {c : Char} {place : NumeralPlace}
    (h : NumeralPlace.begin? c = some place) :
    Mode.step? .between c = some (goOn (.numeral place [c])) := by
  have hc : c = '-' ∨ c.isDigit := by
    unfold NumeralPlace.begin? at h
    split at h
    · exact .inl ‹_›
    · split at h
      · rename_i hzero
        exact .inr (hzero ▸ by decide)
      · split at h
        · exact .inr ‹_›
        · cases h
  have hlower : c.isLower = false := by
    rcases hc with rfl | hdigit
    · rfl
    · refine Bool.eq_false_iff.mpr fun hletter => ?_
      have hnine := ((Bool.and_eq_true _ _).mp hdigit).2
      have ha := ((Bool.and_eq_true _ _).mp hletter).1
      simp only [decide_eq_true_eq, ge_iff_le, UInt32.le_iff_toNat_le]
        at hnine ha
      have : '9'.val.toNat < 'a'.val.toNat := by decide
      omega
  have hblank : isJsonBlank c = false := by
    rcases hc with rfl | hdigit
    · rfl
    · simp only [isJsonBlank, Bool.or_eq_false_iff, decide_eq_false_iff_not]
      refine ⟨⟨⟨?_, ?_⟩, ?_⟩, ?_⟩ <;> rintro rfl <;>
        exact absurd hdigit (by decide)
  have hquote : c ≠ '"' := by
    rintro rfl
    rcases hc with hc | hc <;> exact absurd hc (by decide)
  simp [Mode.step?, begin?, hblank, hquote, hlower, h]

/-- The characters of a numeral lead into its middle. -/
theorem run?_numeral {lexeme : List Char} {place : NumeralPlace}
    (h : NumeralPlace.after? lexeme = some place) :
    run? follows maxDepth ⟨.between, .reading stack next⟩ (lexeme ++ rest) =
      run? follows maxDepth
        ⟨.numeral place lexeme.reverse, .reading stack next⟩ rest := by
  have hwalk : ∀ (chars reversed : List Char) (first : NumeralPlace),
      first.walk? chars = some place →
      run? follows maxDepth ⟨.numeral first reversed, .reading stack next⟩
          (chars ++ rest) =
        run? follows maxDepth
          ⟨.numeral place (chars.reverse ++ reversed), .reading stack next⟩
          rest := by
    intro chars
    induction chars with
    | nil =>
      intro reversed first hfirst
      cases hfirst
      rfl
    | cons c chars ih =>
      intro reversed first hfirst
      cases hstep : first.step? c with
      | none => simp [NumeralPlace.walk?, hstep] at hfirst
      | some second =>
        rw [NumeralPlace.walk?_cons hstep] at hfirst
        have hends : Mode.endsBefore (.numeral first reversed) c = false := by
          simp [Mode.endsBefore, hstep]
        rw [List.cons_append,
          run?_goOn (.numeral second (c :: reversed)) hends
            (by simp [Mode.step?, hstep]), ih _ _ hfirst]
        simp
  cases lexeme with
  | nil => cases h
  | cons c chars =>
    obtain ⟨first, hfirst, hchars⟩ := Option.bind_eq_some_iff.mp h
    rw [List.cons_append, run?_goOn _ rfl (begin?_numeral hfirst),
      hwalk chars [c] first hchars, List.reverse_cons]

/-- A numeral before a character that ends it. -/
theorem run?_complete {place : NumeralPlace} {reversed : List Char}
    (hfinal : place.isFinal) (hc : c = ',' ∨ c = ']' ∨ c = '\x7d') :
    run? follows maxDepth ⟨.numeral place reversed, .reading stack next⟩
        (c :: rest) =
      (settle? maxDepth ⟨.numeral place reversed, .reading stack next⟩).bind
        (run? follows maxDepth · (c :: rest)) := by
  have hstop : place.step? c = none := by
    rcases hc with rfl | rfl | rfl <;> cases place <;> rfl
  have hends : Mode.endsBefore (.numeral place reversed) c = true := by
    simp [Mode.endsBefore, hfinal, hstop]
  rw [run?_cons, step?, hends, if_pos rfl, settle?]
  cases Mode.complete? (.numeral place reversed) with
  | none => rfl
  | some token =>
    cases hreader : (Reader.reading stack next).step? maxDepth token with
    | none => simp [hreader]
    | some reader =>
      simp only [hreader, bind, Option.bind]
      rw [run?_cons]
      rfl

/-- A whole numeral, in front of a character that ends it. -/
theorem run?_number {lexeme : List Char} (h : IsNumeral lexeme)
    (hc : c = ',' ∨ c = ']' ∨ c = '\x7d') :
    run? follows maxDepth ⟨.between, .reading stack next⟩
        (lexeme ++ c :: rest) =
      (readNumber? lexeme).bind fun n =>
        ((Reader.reading stack next).step? maxDepth
          (.literal (.number n))).bind fun reader =>
            run? follows maxDepth ⟨.between, reader⟩ (c :: rest) := by
  obtain ⟨place, hplace, hfinal⟩ := h
  rw [run?_numeral hplace, run?_complete hfinal hc, settle?,
    Mode.complete?, if_pos hfinal, List.reverse_reverse]
  cases readNumber? lexeme with
  | none => rfl
  | some n =>
    simp only [bind, Option.bind, Option.map]
    cases (Reader.reading stack next).step? maxDepth (.literal (.number n))
      <;> rfl

end Progress

end CampusQuery.Json
