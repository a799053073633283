/-
CampusQuery.Proofs.Query.Pattern — which texts are patterns.

A text is a pattern if asterisks stand at its two ends only. That is a
statement about places in the text, while `Pattern.parse` strips the ends
and looks at what is left; `parse_eq_ok` shows the two to be the same.
-/
import CampusQuery.Proofs.Outcome
import CampusQuery.Query.Pattern

namespace CampusQuery.Query

open Outcome

/-- Asterisks stand nowhere but at the first and at the last place. -/
def WildcardsAtEnds (raw : String) : Prop :=
  ∀ i, raw.toList[i]? = some '*' → i = 0 ∨ i + 1 = raw.toList.length

def inner (text : List Char) : List Char := (text.drop 1).dropLast

theorem wildcardsAtEnds_iff (raw : String) :
    WildcardsAtEnds raw ↔ '*' ∉ inner raw.toList := by
  unfold WildcardsAtEnds inner
  rw [List.mem_iff_getElem?]
  simp only [List.getElem?_dropLast, List.getElem?_drop, List.length_drop]
  constructor
  · rintro h ⟨i, hi⟩
    split at hi
    · have := h (1 + i) hi
      omega
    · cases hi
  · intro h i hi
    have hlt : i < raw.toList.length := (List.getElem?_eq_some_iff.mp hi).1
    by_contra hends
    apply h
    refine ⟨i - 1, ?_⟩
    rw [if_pos (by omega), show 1 + (i - 1) = i by omega]
    exact hi

/-- A last asterisk aside, nothing changes if the last character is dropped. -/
theorem mem_stripLast (text : List Char) :
    ('*' ∈ if text.getLast? = some '*' then text.dropLast else text) ↔
      '*' ∈ text.dropLast := by
  split
  · rfl
  · rename_i hlast
    rcases List.eq_nil_or_concat text with rfl | ⟨front, c, rfl⟩
    · simp
    · have : '*' ≠ c := by
        intro e
        simp [← e] at hlast
      simp [this]

/-- Stripping the ends leaves an asterisk if one stands between them. -/
theorem Pattern.mem_needle_split (raw : String) :
    '*' ∈ (Pattern.split raw).needle ↔ '*' ∈ inner raw.toList := by
  simp only [Pattern.split]
  rw [mem_stripLast]
  unfold inner
  cases h : raw.toList with
  | nil => simp
  | cons c rest =>
    by_cases hc : c = '*'
    · simp [hc]
    · have : '*' ≠ c := fun e => hc e.symm
      cases rest <;> simp [hc, this]

/-- Reading succeeds on texts with asterisks at the ends only. -/
theorem Pattern.parse_eq_ok {raw : String} {pattern : Pattern} :
    Pattern.parse raw = .ok pattern ↔
      WildcardsAtEnds raw ∧ pattern = Pattern.split raw := by
  unfold Pattern.parse
  rw [ite_refuse_eq_ok, wildcardsAtEnds_iff, ← mem_needle_split]
  simp only [List.contains_iff_mem, Except.ok.injEq]
  rw [eq_comm (a := pattern)]

/-- A text without asterisks is a pattern that fits this text only. -/
theorem Pattern.parse_of_not_mem {raw : String} (h : '*' ∉ raw.toList) :
    Pattern.parse raw = .ok ⟨.whole, raw.toList⟩ := by
  have hhead : raw.toList.head? ≠ some '*' := fun hfirst =>
    h (List.mem_of_head? hfirst)
  have hlast : raw.toList.getLast? ≠ some '*' := fun hfound =>
    h (List.mem_of_getLast? hfound)
  have hsplit : split raw = ⟨.whole, raw.toList⟩ := by
    simp [split, hhead, hlast, modeOf]
  rw [parse, hsplit, if_neg (by simpa using h)]

end CampusQuery.Query
