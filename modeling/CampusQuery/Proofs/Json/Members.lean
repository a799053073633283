/-
CampusQuery.Proofs.Json.Members — looking up members of objects.

With every key there once, a member is found whatever the order of the
members (`lookup_of_mem`), and so an object has exactly some members if it
has as many and each of them is found (`perm_iff_lookup`). Sorting members
by their keys only puts them in another order (`sortMembers_perm`).
-/
import Mathlib.Data.List.Perm.Subperm
import Mathlib.Data.List.Nodup
import CampusQuery.Json.Basic

namespace CampusQuery.Json

variable {α : Type}

/-! ## Members with different keys -/

theorem mem_of_lookup {key : String} {value : α} {members : List (String × α)}
    (h : members.lookup key = some value) : (key, value) ∈ members := by
  obtain ⟨front, back, rfl, -⟩ := List.lookup_eq_some_iff.mp h
  simp

theorem lookup_of_mem {key : String} {value : α} {members : List (String × α)}
    (hkeys : (members.map Prod.fst).Nodup) (h : (key, value) ∈ members) :
    members.lookup key = some value := by
  induction members with
  | nil => cases h
  | cons member rest ih =>
    rw [List.map_cons, List.nodup_cons] at hkeys
    rcases List.mem_cons.mp h with rfl | hrest
    · simp
    · have hne : (key == member.1) = false := by
        have : key ≠ member.1 := fun e =>
          hkeys.1 (e ▸ List.mem_map_of_mem (f := Prod.fst) hrest)
        simpa using this
      rw [List.lookup_cons, hne]
      exact ih hkeys.2 hrest

/-- Members are the expected ones, in some order, if there are as many and
every expected one is found. -/
theorem perm_iff_lookup {found expected : List (String × α)}
    (hkeys : (expected.map Prod.fst).Nodup) :
    found.Perm expected ↔
      found.length = expected.length ∧
        ∀ member ∈ expected, found.lookup member.1 = some member.2 := by
  constructor
  · intro h
    have hfound : (found.map Prod.fst).Nodup :=
      (h.map Prod.fst).nodup_iff.mpr hkeys
    exact ⟨h.length_eq, fun member hmem =>
      lookup_of_mem hfound (h.mem_iff.mpr hmem)⟩
  · rintro ⟨hlength, h⟩
    have hsub : expected ⊆ found := fun member hmem =>
      mem_of_lookup (h member hmem)
    have hnodup : expected.Nodup := List.Nodup.of_map Prod.fst hkeys
    exact ((List.subperm_of_subset hnodup hsub).perm_of_length_le
      (Nat.le_of_eq hlength)).symm

/-- A key that is not expected is not found. -/
theorem lookup_eq_none_of_perm {found expected : List (String × α)}
    {key : String} (h : found.Perm expected)
    (hkey : key ∉ expected.map Prod.fst) : found.lookup key = none := by
  rw [List.lookup_eq_none_iff]
  intro member hmem
  have : key ≠ member.1 := fun e =>
    hkey (e ▸ List.mem_map_of_mem (f := Prod.fst) (h.mem_iff.mp hmem))
  simpa using this

/-- The order of members does not matter to a look-up. -/
theorem lookup_of_perm {found expected : List (String × α)}
    (hkeys : (expected.map Prod.fst).Nodup) (h : found.Perm expected)
    (key : String) : found.lookup key = expected.lookup key := by
  cases hlookup : expected.lookup key with
  | some value =>
    exact lookup_of_mem ((h.map Prod.fst).nodup_iff.mpr hkeys)
      (h.mem_iff.mpr (mem_of_lookup hlookup))
  | none =>
    refine lookup_eq_none_of_perm h fun hmem => ?_
    obtain ⟨member, hmember, rfl⟩ := List.mem_map.mp hmem
    have := List.lookup_eq_none_iff.mp hlookup member hmember
    simp at this

/-! ## Sorted members -/

theorem insertMember_perm {key : String} (value : Json)
    {members : List (String × Json)} (h : key ∉ members.map Prod.fst) :
    (insertMember key value members).Perm ((key, value) :: members) := by
  induction members with
  | nil => exact .refl _
  | cons member rest ih =>
    rw [List.map_cons, List.mem_cons, not_or] at h
    rw [insertMember]
    split
    · exact .refl _
    · rw [if_neg h.1]
      exact ((ih h.2).cons member).trans (.swap ..)

/-- Members with different keys are all still there after sorting. -/
theorem sortMembers_perm {members : List (String × Json)}
    (hkeys : (members.map Prod.fst).Nodup) :
    (sortMembers members).Perm members := by
  have hfold : ∀ (rest sorted : List (String × Json)),
      ((sorted ++ rest).map Prod.fst).Nodup →
      (rest.foldl (fun sorted member =>
        insertMember member.1 member.2 sorted) sorted).Perm
          (sorted ++ rest) := by
    intro rest
    induction rest with
    | nil => intro sorted _; simp
    | cons member rest ih =>
      intro sorted hnodup
      have hmiddle : (sorted ++ member :: rest).Perm
          (member :: sorted ++ rest) := List.perm_middle
      have hnodup' := (hmiddle.map Prod.fst).nodup_iff.mp hnodup
      have hnew : member.1 ∉ sorted.map Prod.fst := by
        rw [List.cons_append, List.map_cons, List.nodup_cons,
          List.map_append, List.mem_append, not_or] at hnodup'
        exact hnodup'.1.1
      have hinsert := (insertMember_perm member.2 hnew).append_right rest
      exact (ih _ ((hinsert.map Prod.fst).nodup_iff.mpr hnodup')).trans
        (hinsert.trans hmiddle.symm)
  exact hfold members [] (by simpa using hkeys)

end CampusQuery.Json
