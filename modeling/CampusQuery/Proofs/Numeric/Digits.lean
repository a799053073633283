/-
CampusQuery.Proofs.Numeric.Digits — the decimal digits of a number.

`digitChars` writes a number without zeros in front of it, and
`digitsValue` reads back what it has written.
-/
import CampusQuery.Numeric.Layout
import CampusQuery.Numeric.Numeral

namespace CampusQuery.Numeric

/-! ## Writing -/

theorem digitChars_ne_nil (n : Nat) : digitChars n ≠ [] :=
  Nat.toDigits_ne_nil

theorem isDigit_of_mem_digitChars {n : Nat} {c : Char}
    (h : c ∈ digitChars n) : c.isDigit :=
  Nat.isDigit_of_mem_toDigits (by decide) (by decide) h

theorem digitChars_zero : digitChars 0 = ['0'] := Nat.toDigits_zero 10

theorem digitChars_of_lt {n : Nat} (h : n < 10) :
    digitChars n = [n.digitChar] := Nat.toDigits_of_lt_base h

theorem digitChars_of_le {n : Nat} (h : 10 ≤ n) :
    digitChars n = digitChars (n / 10) ++ [(n % 10).digitChar] :=
  Nat.toDigits_of_base_le (by decide) h

/-- The first digit of a number other than zero is no zero. -/
theorem digitChars_eq_cons {n : Nat} (h : n ≠ 0) :
    ∃ c rest, digitChars n = c :: rest ∧ c ≠ '0' := by
  induction n using Nat.strongRecOn with
  | ind n ih =>
    by_cases hn : n < 10
    · refine ⟨n.digitChar, [], digitChars_of_lt hn, ?_⟩
      simpa using h
    · obtain ⟨c, rest, heq, hc⟩ := ih (n / 10) (by omega) (by omega)
      refine ⟨c, rest ++ [(n % 10).digitChar], ?_, hc⟩
      rw [digitChars_of_le (Nat.le_of_not_lt hn), heq, List.cons_append]

theorem length_digitChars (n : Nat) :
    (digitChars n).length = digitCount n := by
  induction n using Nat.strongRecOn with
  | ind n ih =>
    rw [digitCount]
    by_cases hn : n < 10
    · rw [if_pos hn, digitChars_of_lt hn]
      rfl
    · rw [if_neg hn, digitChars_of_le (Nat.le_of_not_lt hn),
        List.length_append, ih (n / 10) (by omega)]
      rfl

/-! ## Counting -/

theorem tenTo_pos (n : Nat) : 0 < tenTo n := Nat.pow_pos (by decide)

theorem tenTo_add (m n : Nat) : tenTo (m + n) = tenTo m * tenTo n :=
  Nat.pow_add 10 m n

theorem tenTo_le_tenTo {m n : Nat} (h : m ≤ n) : tenTo m ≤ tenTo n :=
  Nat.pow_le_pow_right (by decide) h

theorem lt_tenTo_digitCount (n : Nat) : n < tenTo (digitCount n) := by
  induction n using Nat.strongRecOn with
  | ind n ih =>
    rw [digitCount]
    by_cases hn : n < 10
    · rw [if_pos hn]
      exact hn
    · have hrest := ih (n / 10) (by omega)
      rw [if_neg hn, tenTo_add, show tenTo 1 = 10 from rfl]
      omega

theorem digitCount_pos (n : Nat) : 0 < digitCount n := by
  rw [digitCount]
  split <;> omega

theorem tenTo_digitCount_le {n : Nat} (h : n ≠ 0) :
    tenTo (digitCount n - 1) ≤ n := by
  induction n using Nat.strongRecOn with
  | ind n ih =>
    rw [digitCount]
    by_cases hn : n < 10
    · rw [if_pos hn]
      exact Nat.pos_of_ne_zero h
    · have hrest := ih (n / 10) (by omega) (by omega)
      obtain ⟨count, hcount⟩ :=
        Nat.exists_eq_add_one_of_ne_zero
          (Nat.ne_of_gt (digitCount_pos (n / 10)))
      rw [hcount, Nat.add_sub_cancel] at hrest
      rw [if_neg hn, Nat.add_sub_cancel, hcount, tenTo_add,
        show tenTo 1 = 10 from rfl]
      omega

/-! ## Reading -/

theorem digitsValue_digitChars (n : Nat) : digitsValue (digitChars n) = n :=
  Nat.ofDigitChars_ten_toDigits

theorem digitsValue_append (a b : List Char) :
    digitsValue (a ++ b) = tenTo b.length * digitsValue a + digitsValue b := by
  change Nat.ofDigitChars 10 (a ++ b) 0 = _
  rw [Nat.ofDigitChars_append, Nat.ofDigitChars_eq_ofDigitChars_zero]
  rfl

end CampusQuery.Numeric
