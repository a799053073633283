/-
CampusQuery.Proofs.Query.Wildcards — which texts fit a pattern.

A text fits a pattern if it comes out when a text is put in place of every
asterisk (`Replaces`). A pattern that has been read has no asterisks any more:
they have become its mode, and what stood between them its needle. `exists_ends`
puts the parts together again, and `replaces_iff` says what may stand before
and behind the needle, which is what each of the four modes looks for
(`accepts_iff`).
-/
import Mathlib.Data.List.Infix
import CampusQuery.Proofs.Query.Pattern

namespace CampusQuery.Query

open Outcome

/-! ## Replacing asterisks -/

/-- The text comes out if a text, maybe an empty one, is put in place of every
asterisk, and all other characters stay as they are. -/
inductive Replaces : List Char → List Char → Prop
  | nil : Replaces [] []
  | asterisk (filling : List Char) {rest text : List Char} :
    Replaces rest text → Replaces ('*' :: rest) (filling ++ text)
  | char {c : Char} {rest text : List Char} :
    c ≠ '*' → Replaces rest text → Replaces (c :: rest) (c :: text)

/-- Parts of a pattern are filled in one after the other. -/
theorem replaces_append {front back text : List Char} :
    Replaces (front ++ back) text ↔
      ∃ start rest, text = start ++ rest ∧ Replaces front start ∧
        Replaces back rest := by
  constructor
  · intro h
    induction front generalizing text with
    | nil => exact ⟨[], text, rfl, .nil, h⟩
    | cons c front ih =>
      cases h with
      | asterisk filling h =>
        obtain ⟨start, rest, rfl, hfront, hback⟩ := ih h
        exact ⟨filling ++ start, rest, by simp, .asterisk filling hfront, hback⟩
      | char hc h =>
        obtain ⟨start, rest, rfl, hfront, hback⟩ := ih h
        exact ⟨c :: start, rest, rfl, .char hc hfront, hback⟩
  · rintro ⟨start, rest, rfl, hfront, hback⟩
    induction hfront with
    | nil => exact hback
    | asterisk filling _ ih =>
      rw [List.append_assoc]
      exact .asterisk filling ih
    | char hc _ ih => exact .char hc ih

/-- Without asterisks there is nothing to fill in. -/
theorem replaces_of_not_mem {raw text : List Char} (h : '*' ∉ raw) :
    Replaces raw text ↔ text = raw := by
  induction raw generalizing text with
  | nil =>
    constructor
    · rintro ⟨⟩
      rfl
    · rintro rfl
      exact .nil
  | cons c rest ih =>
    rw [List.mem_cons, not_or] at h
    constructor
    · intro hreplaces
      cases hreplaces with
      | asterisk => exact absurd rfl h.1
      | char _ hrest => rw [(ih h.2).mp hrest]
    · rintro rfl
      exact .char (Ne.symm h.1) ((ih h.2).mpr rfl)

def asteriskIf (present : Bool) : List Char := if present then ['*'] else []

/-- Anything can be put in place of an asterisk, and nothing where none is. -/
theorem replaces_asteriskIf {present : Bool} {text : List Char} :
    Replaces (asteriskIf present) text ↔ (present = false → text = []) := by
  cases present with
  | false => simpa [asteriskIf] using replaces_of_not_mem (List.not_mem_nil)
  | true =>
    have hany : Replaces ['*'] (text ++ []) := .asterisk text .nil
    simpa [asteriskIf] using hany

/-- The needle stands in the text, with something before it or behind it only
where there is an asterisk. -/
def Encloses (leading trailing : Bool) (needle text : List Char) : Prop :=
  ∃ before behind, text = before ++ needle ++ behind ∧
    (leading = false → before = []) ∧ (trailing = false → behind = [])

theorem replaces_iff {leading trailing : Bool} {needle text : List Char}
    (h : '*' ∉ needle) :
    Replaces (asteriskIf leading ++ needle ++ asteriskIf trailing) text ↔
      Encloses leading trailing needle text := by
  simp only [replaces_append, replaces_asteriskIf, replaces_of_not_mem h]
  constructor
  · rintro ⟨_, behind, rfl, ⟨before, _, rfl, hbefore, rfl⟩, hbehind⟩
    exact ⟨before, behind, rfl, hbefore, hbehind⟩
  · rintro ⟨before, behind, rfl, hbefore, hbehind⟩
    exact ⟨_, behind, rfl, ⟨before, needle, rfl, hbefore, rfl⟩, hbehind⟩

/-! ## Looking for the needle -/

theorem occursIn_iff {needle text : List Char} :
    occursIn needle text = true ↔ needle <:+: text := by
  induction text with
  | nil => simp [occursIn]
  | cons c rest ih =>
    rw [occursIn, Bool.or_eq_true, List.isPrefixOf_iff_prefix, ih,
      List.infix_cons_iff]

namespace Pattern

/-- The mode decides what may stand around the needle. -/
theorem accepts_iff {leading trailing : Bool} {needle : List Char}
    {text : String} :
    (Pattern.mk (modeOf leading trailing) needle).accepts text = true ↔
      Encloses leading trailing needle text.toList := by
  unfold Encloses
  cases leading <;> cases trailing <;>
    simp only [accepts, modeOf, beq_iff_eq, List.isPrefixOf_iff_prefix,
      List.isSuffixOf_iff_suffix, occursIn_iff, forall_const,
      IsEmpty.forall_iff, reduceCtorEq, and_true, true_and]
  case false.false =>
    constructor
    · intro h
      exact ⟨[], [], by simp [h], rfl, rfl⟩
    · rintro ⟨_, _, h, rfl, rfl⟩
      simpa using h
  case false.true =>
    constructor
    · rintro ⟨behind, h⟩
      exact ⟨[], behind, h.symm, rfl⟩
    · rintro ⟨_, behind, h, rfl⟩
      exact ⟨behind, h.symm⟩
  case true.false =>
    constructor
    · rintro ⟨before, h⟩
      exact ⟨before, [], by simp [h], rfl⟩
    · rintro ⟨before, _, h, rfl⟩
      exact ⟨before, by simp [h]⟩
  case true.true =>
    constructor
    · rintro ⟨before, behind, h⟩
      exact ⟨before, behind, h.symm⟩
    · rintro ⟨before, behind, h⟩
      exact ⟨before, behind, h.symm⟩

/-- The first character is an asterisk or stays. -/
theorem asteriskIf_append_drop (text : List Char) :
    asteriskIf (text.head? = some '*')
      ++ (if text.head? = some '*' then text.drop 1 else text) = text := by
  by_cases h : text.head? = some '*'
  · obtain ⟨rest, rfl⟩ := List.head?_eq_some_iff.mp h
    simp [asteriskIf]
  · simp [asteriskIf, h]

/-- The last character is an asterisk or stays. -/
theorem dropLast_append_asteriskIf (text : List Char) :
    (if text.getLast? = some '*' then text.dropLast else text)
      ++ asteriskIf (text.getLast? = some '*') = text := by
  by_cases h : text.getLast? = some '*'
  · obtain ⟨front, rfl⟩ := List.getLast?_eq_some_iff.mp h
    simp [asteriskIf]
  · simp [asteriskIf, h]

/-- A text is its needle with the asterisks that have been taken from the two
ends. -/
theorem exists_ends (raw : String) :
    ∃ leading trailing, (split raw).mode = modeOf leading trailing ∧
      raw.toList = asteriskIf leading ++ (split raw).needle
        ++ asteriskIf trailing := by
  refine ⟨_, _, rfl, ?_⟩
  rw [List.append_assoc, split, dropLast_append_asteriskIf,
    asteriskIf_append_drop]

/-- A text can be read as a pattern if and only if it has no asterisk but at the
first and the last place, and then the texts that fit it are those that come out
when every asterisk is replaced by some text. -/
theorem parse_accepts_replacements (raw : String) :
    ((∃ pattern, parse raw = .ok pattern) ↔ WildcardsAtEnds raw) ∧
    ∀ pattern, parse raw = .ok pattern → ∀ text : String,
      pattern.accepts text = true ↔ Replaces raw.toList text.toList := by
  constructor
  · simp only [parse_eq_ok]
    constructor
    · rintro ⟨_, hraw, -⟩
      exact hraw
    · intro hraw
      exact ⟨split raw, hraw, rfl⟩
  · intro pattern hpattern text
    obtain ⟨hraw, rfl⟩ := parse_eq_ok.mp hpattern
    have hneedle : '*' ∉ (split raw).needle := by
      rw [mem_needle_split]
      exact (wildcardsAtEnds_iff raw).mp hraw
    obtain ⟨leading, trailing, hmode, hends⟩ := exists_ends raw
    have hsplit : split raw
        = ⟨modeOf leading trailing, (split raw).needle⟩ := by
      rw [← hmode]
    rw [hends, replaces_iff hneedle, hsplit]
    exact accepts_iff

/-- The asterisks of `*b*` are replaced by a line and by nothing. -/
theorem parse_accepts_replacements_twoLines :
    parse "*b*" = .ok ⟨.anywhere, ['b']⟩ ∧
      (⟨.anywhere, ['b']⟩ : Pattern).accepts "a\nb" = true := by
  have hparse : parse "*b*" = .ok ⟨.anywhere, ['b']⟩ := by decide
  refine ⟨hparse, ((parse_accepts_replacements "*b*").2 _ hparse _).mpr ?_⟩
  exact .asterisk ['a', '\n'] (.char (by decide) (.asterisk [] .nil))

end Pattern

end CampusQuery.Query
