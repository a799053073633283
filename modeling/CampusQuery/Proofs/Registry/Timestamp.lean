/-
CampusQuery.Proofs.Registry.Timestamp — the stamps of the clock are times.
-/
import Mathlib.Data.List.TakeDrop
import Mathlib.Data.List.TakeWhile
import CampusQuery.Proofs.Numeric.Digits
import CampusQuery.Registry.Timestamp

namespace CampusQuery.Timestamp

open Numeric

/-- The second that every stamp starts with. -/
def firstMoment : Moment := ⟨2026, 1, 1, 0, 0, 0⟩

theorem ofTick_eq (tick : Nat) :
    ofTick tick = "2026-01-01 00:00:00." ++ (nineDigits tick ++ "+00:00") :=
  String.append_assoc ..

/-- No stamp has a letter between its date and its time of day. -/
theorem isLettered_ofTick (tick : Nat) : isLettered (ofTick tick) = false := by
  rw [isLettered, ofTick_eq, String.toUTF8_eq_toByteArray,
    String.toByteArray_append]
  have hsize : 10 < ("2026-01-01 00:00:00.".toByteArray ++
      (nineDigits tick ++ "+00:00").toByteArray).size := by
    rw [ByteArray.size_append]
    exact Nat.lt_add_right _ (by decide)
  have hbyte := getElem?_pos (_ ++ _ : ByteArray) 10 hsize
  rw [hbyte, ByteArray.getElem_append_left (by decide)]
  decide

theorem moment_eq (rest : List Char) :
    moment false ("2026-01-01 00:00:00.".toList ++ rest) =
      (optionalFraction ('.' :: rest)).bind
        fun taken => some (firstMoment, taken.2) := rfl

theorem isDigit_of_mem_nineDigits {tick : Nat} {c : Char}
    (h : c ∈ (nineDigits tick).toList) : c.isDigit := by
  simp only [nineDigits, String.toList_ofList, List.mem_append] at h
  rcases h with h | h
  · rw [List.eq_of_mem_replicate h]
    rfl
  · exact isDigit_of_mem_digitChars h

theorem nineDigits_ne_nil (tick : Nat) : (nineDigits tick).toList ≠ [] := by
  simp [nineDigits]

/-- The digits of a fraction are taken as a whole. -/
theorem optionalFraction_eq {digits rest : List Char} (hne : digits ≠ [])
    (hdigits : ∀ c ∈ digits, c.isDigit)
    (hrest : ∀ c ∈ rest.head?, ¬c.isDigit) :
    optionalFraction ('.' :: (digits ++ rest)) = some ((), rest) := by
  have htake : (digits ++ rest).takeWhile Char.isDigit = digits := by
    rw [List.takeWhile_append_of_pos hdigits]
    cases rest with
    | nil => simp
    | cons c rest => simp [hrest c (by simp)]
  have hdrop : (digits ++ rest).dropWhile Char.isDigit = rest := by
    rw [List.dropWhile_append_of_pos hdigits]
    cases rest with
    | nil => rfl
    | cons c rest => simp [hrest c (by simp)]
  rw [optionalFraction, List.span_eq_takeWhile_dropWhile, htake, hdrop]
  cases digits with
  | nil => exact absurd rfl hne
  | cons => rfl

/-- Every stamp is a time, however long the clock has run. -/
theorem isValid_ofTick (tick : Nat) : isValid (ofTick tick) = true := by
  have hlist : (ofTick tick).toList = "2026-01-01 00:00:00.".toList ++
      ((nineDigits tick).toList ++ "+00:00".toList) := by
    rw [ofTick_eq, String.toList_append, String.toList_append]
  have hfraction : optionalFraction
      ('.' :: ((nineDigits tick).toList ++ "+00:00".toList))
        = some ((), "+00:00".toList) :=
    optionalFraction_eq (nineDigits_ne_nil tick)
      (fun c => isDigit_of_mem_nineDigits) (by simp)
  rw [isValid, isLettered_ofTick, hlist, moment_eq, hfraction]
  decide

end CampusQuery.Timestamp
