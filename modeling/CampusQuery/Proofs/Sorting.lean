/-
CampusQuery.Proofs.Sorting — what sorting leaves of a list.

A list that is sorted by an order up to ties is the list in another
arrangement, in which the lesser of two elements comes first and of two that
tie the one that came first before (`exists_stableSort`,
`pairwise_stableSort`). Any other comparison gives an arrangement or nothing
(`perm_of_sortAnyway?`): an arrangement if the list is short
(`exists_sortAnyway?`), perhaps nothing if it is not (`sortAnyway?_turnLess`).
Both ways of sorting look at the outcomes of comparisons only, so they commute
with a map that keeps these (`stableSort_map`, `sortAnyway?_map`).
-/
import Mathlib.Data.List.FinRange
import Mathlib.Data.List.Nodup
import Mathlib.Tactic.Set
import CampusQuery.Sorting.Basic

namespace CampusQuery.Sorting

variable {α β : Type}

/-! ## Sorting by an order -/

theorem stableSort_perm (less : α → α → Bool) (xs : List α) :
    (stableSort less xs).Perm xs := List.mergeSort_perm _ _

/-- Sorting commutes with a map that keeps the comparisons. -/
theorem stableSort_map {less : α → α → Bool} {lessB : β → β → Bool}
    {f : α → β} {xs : List α}
    (h : ∀ a ∈ xs, ∀ b ∈ xs, lessB (f a) (f b) = less a b) :
    stableSort lessB (xs.map f) = (stableSort less xs).map f := by
  unfold stableSort
  refine (List.map_mergeSort fun a ha b hb => ?_).symm
  rw [h b hb a ha]

/-- The positions of a list, each with its place among them. -/
theorem snd_eq_of_mem_zipIdx_finRange {n : Nat} {pair : Fin n × Nat}
    (h : pair ∈ (List.finRange n).zipIdx) : pair.2 = pair.1.val := by
  obtain ⟨i, k⟩ := pair
  obtain ⟨-, hk, hi⟩ := List.mem_zipIdx h
  simp [hi]

/-- A sorted list is an arrangement of its positions: of two elements the
lesser one comes first, and the one from the earlier position if they tie. -/
theorem exists_stableSort {less : α → α → Bool} {xs : List α}
    (htrans : ∀ a ∈ xs, ∀ b ∈ xs, ∀ c ∈ xs,
      less b a = false → less c b = false → less c a = false)
    (hasymm : ∀ a ∈ xs, ∀ b ∈ xs, less a b = true → less b a = false) :
    ∃ places : List (Fin xs.length),
      places.Perm (List.finRange xs.length) ∧
      stableSort less xs = places.map xs.get ∧
      places.Pairwise fun i j => less (xs.get i) (xs.get j) = true ∨
        (less (xs.get j) (xs.get i) = false ∧ i < j) := by
  let le : Fin xs.length → Fin xs.length → Bool := fun i j =>
    !less (xs.get j) (xs.get i)
  have hmem : ∀ i, xs.get i ∈ xs := List.get_mem xs
  have hletrans : ∀ i j k, le i j = true → le j k = true → le i k = true := by
    intro i j k hij hjk
    simp only [le, Bool.not_eq_true'] at *
    exact htrans _ (hmem i) _ (hmem j) _ (hmem k) hij hjk
  have hletotal : ∀ i j, (le i j || le j i) = true := by
    intro i j
    show (!less (xs.get j) (xs.get i) || !less (xs.get i) (xs.get j)) = true
    cases h : less (xs.get j) (xs.get i) with
    | false => rfl
    | true =>
      rw [hasymm _ (hmem j) _ (hmem i) h]
      rfl
  set positions := List.finRange xs.length
  have hperm := List.mergeSort_perm positions le
  refine ⟨positions.mergeSort le, hperm, ?_, ?_⟩
  · have hmap := @List.map_mergeSort _ _ le (fun a b => !less b a) xs.get
      positions fun _ _ _ _ => rfl
    rw [hmap, List.map_get_finRange]
    rfl
  · -- Sorted together with their places, positions that tie keep their order.
    have hpairs := List.pairwise_mergeSort (List.zipIdxLE_trans hletrans)
      (List.zipIdxLE_total hletotal) positions.zipIdx
    have hnodup : (positions.mergeSort le).Nodup :=
      hperm.nodup_iff.mpr (List.nodup_finRange _)
    rw [← List.mergeSort_zipIdx] at hnodup ⊢
    rw [List.Nodup, List.pairwise_map] at hnodup
    rw [List.pairwise_map]
    refine (hpairs.and hnodup).imp_of_mem ?_
    rintro p q hp hq ⟨hle, hne⟩
    have hplace := snd_eq_of_mem_zipIdx_finRange (List.mem_mergeSort.mp hp)
    have hother := snd_eq_of_mem_zipIdx_finRange (List.mem_mergeSort.mp hq)
    cases hless : less (xs.get p.1) (xs.get q.1) with
    | true => exact .inl rfl
    | false =>
      cases hback : less (xs.get q.1) (xs.get p.1) with
      | true => simp only [List.zipIdxLE, le, hback] at hle; cases hle
      | false =>
        simp only [List.zipIdxLE, le, hless, hback, hplace, hother] at hle
        have hat : p.1.val ≤ q.1.val := of_decide_eq_true hle
        exact .inr ⟨rfl, Nat.lt_of_le_of_ne hat fun h => hne (Fin.ext h)⟩

/-- Sorting by the order of a comparison puts the lesser element first; those
that tie are still in the order in which they were. -/
theorem pairwise_stableSort {less : α → α → Bool} {cmp : α → α → Ordering}
    [Std.TransCmp cmp] {xs : List α} {earlier : α → α → Prop}
    (hless : ∀ a ∈ xs, ∀ b ∈ xs, less a b = true ↔ cmp a b = .lt)
    (hearlier : xs.Pairwise earlier) :
    (stableSort less xs).Pairwise fun a b =>
      cmp a b = .lt ∨ (cmp a b = .eq ∧ earlier a b) := by
  have hnot : ∀ a ∈ xs, ∀ b ∈ xs, less a b = false ↔ (cmp b a).isLE := by
    intro a ha b hb
    rw [← Bool.not_eq_true, hless a ha b hb, ← Std.OrientedCmp.gt_iff_lt]
    exact Ordering.ne_gt_iff_isLE
  have hasymm : ∀ a ∈ xs, ∀ b ∈ xs, less a b = true → less b a = false := by
    intro a ha b hb hlt
    rw [hnot b hb a ha, (hless a ha b hb).mp hlt]
    rfl
  have htrans : ∀ a ∈ xs, ∀ b ∈ xs, ∀ c ∈ xs,
      less b a = false → less c b = false → less c a = false := by
    intro a ha b hb c hc hab hbc
    rw [hnot _ hb _ ha] at hab
    rw [hnot _ hc _ hb] at hbc
    exact (hnot _ hc _ ha).mpr (Std.TransCmp.isLE_trans hab hbc)
  obtain ⟨places, -, hsorted, hplaces⟩ := exists_stableSort htrans hasymm
  rw [hsorted, List.pairwise_map]
  refine hplaces.imp fun {i j} hij => ?_
  have hi := List.get_mem xs i
  have hj := List.get_mem xs j
  rcases hij with hlt | ⟨hle, hbefore⟩
  · exact .inl ((hless _ hi _ hj).mp hlt)
  · have hat := List.pairwise_iff_getElem.mp hearlier i j i.isLt j.isLt hbefore
    rw [hnot _ hj _ hi, Ordering.isLE_iff_eq_lt_or_eq_eq] at hle
    exact hle.imp_right fun heq => ⟨heq, hat⟩

/-! ## Sorting by any comparison -/

theorem insertFromEnd_perm (less : Less) (x : Nat) :
    ∀ positions : List Nat,
      (insertFromEnd less x positions).Perm (x :: positions)
  | [] => .refl _
  | y :: rest => by
    rw [insertFromEnd]
    split
    · exact ((insertFromEnd_perm less x rest).cons y).trans (.swap x y rest)
    · exact .refl _

/-- Insertion loses nothing, whatever the comparison. -/
theorem insertAll_perm (less : Less) (sorted positions : List Nat) :
    (insertAll less sorted positions).Perm (sorted ++ positions) := by
  have hfold : ∀ positions done : List Nat,
      (positions.foldl (fun done x => insertFromEnd less x done) done).Perm
        (done ++ positions) := by
    intro positions
    induction positions with
    | nil => simp
    | cons x rest ih =>
      intro done
      refine (ih _).trans ?_
      refine ((insertFromEnd_perm less x done).append_right rest).trans ?_
      exact List.perm_middle.symm
  refine (List.reverse_perm _).trans ((hfold positions sorted.reverse).trans ?_)
  exact (List.reverse_perm _).append_right _

/-- A list that is short enough to be sorted by insertion is sorted by any
comparison. -/
theorem exists_sortAnyway? (less : α → α → Bool) {xs : List α}
    (h : xs.length ≤ insertionLength) :
    ∃ sorted, sortAnyway? less xs = some sorted := by
  have hperm : (arrange (lessAt less xs.toArray)
      (List.range xs.length)).Perm (List.range xs.length) := by
    rw [arrange, if_pos (by simpa using h)]
    simpa using insertAll_perm (lessAt less xs.toArray) [] (List.range xs.length)
  have harranged : arrangedPositions? (lessAt less xs.toArray) xs.length
      = some (arrange (lessAt less xs.toArray) (List.range xs.length)) :=
    if_pos (List.isPerm_iff.mpr hperm)
  exact ⟨_, Option.map_eq_some_iff.mpr ⟨_, harranged, rfl⟩⟩

/-- Positions at odd places come before those at even places, and the one in the
middle is level with all others. -/
def turnLess (i j : Nat) : Bool :=
  i < 21 && j < 21 && i % 2 = 1 && j % 2 = 0 && j ≠ 10

/-- Merging from the starts and merging from the ends do not meet: both put the
even positions of the first half into their half of the result. -/
theorem sortShort_turnLess : sortShort turnLess (List.range 21)
    = [1, 3, 5, 7, 9, 0, 2, 4, 6, 8, 10, 11, 13, 15, 17, 19,
       0, 2, 4, 6, 8, 12, 14, 16, 18, 20] := by
  have hleft : sortHalf turnLess true (List.range 10)
      = [1, 3, 5, 7, 9, 0, 2, 4, 6, 8] := by decide +kernel
  have hright : sortHalf turnLess true (List.range' 10 11)
      = [10, 11, 13, 15, 17, 19, 12, 14, 16, 18, 20] := by decide +kernel
  have hinward : sortShort turnLess (List.range 21)
      = mergeInward turnLess (sortHalf turnLess true (List.range 10))
          (sortHalf turnLess true (List.range' 10 11)) := rfl
  rw [hinward, hleft, hright]
  simp [mergeInward, mergeUp, mergeDown, turnLess]

/-- A list of one more element may be without a result. -/
theorem sortAnyway?_turnLess :
    sortAnyway? turnLess (List.range 21) = none := by
  have hless : lessAt turnLess (List.range 21).toArray = turnLess := by
    funext i j
    by_cases hi : i < 21 <;> by_cases hj : j < 21 <;>
      simp [lessAt, turnLess, hi, hj]
  have hfirst : firstRun turnLess 11 true (List.range 21)
      = ⟨true, sortShort turnLess (List.range 21)⟩ := by
    have hstart : ¬11 ≤ (orderedStart turnLess (List.range 21)).length := by
      decide +kernel
    rw [firstRun, if_neg hstart]
    rfl
  have hruns : runsOf turnLess 11 true 21 (List.range 21)
      = [⟨true, sortShort turnLess (List.range 21)⟩] := by
    rw [runsOf, if_neg (by decide), hfirst, sortShort_turnLess]
    rfl
  have harranged : arrange turnLess (List.range 21)
      = sortShort turnLess (List.range 21) := by
    have hlong : ¬(List.range 21).length ≤ insertionLength := by decide
    have hatOnce : decide ((List.range 21).length ≤ 2 * shortLength) = true :=
      rfl
    have hmin : minRunLength (List.range 21).length = 11 := by decide
    rw [arrange, if_neg hlong, sortByRuns, hmin, hatOnce, List.length_range,
      hruns]
    rfl
  have hnone : arrangedPositions? turnLess 21 = none := by
    rw [arrangedPositions?, harranged, sortShort_turnLess]
    decide +kernel
  rw [sortAnyway?, hless]
  exact Option.map_eq_none_iff.mpr hnone

theorem arrangedPositions?_eq_some {less : Less} {count : Nat}
    {positions : List Nat}
    (h : arrangedPositions? less count = some positions) :
    positions.Perm (List.range count) := by
  unfold arrangedPositions? at h
  simp only [Option.ite_none_right_eq_some, Option.some.injEq] at h
  obtain ⟨hperm, rfl⟩ := h
  exact List.isPerm_iff.mp hperm

/-- Sorting gives an arrangement of the list if it gives anything. -/
theorem perm_of_sortAnyway? {less : α → α → Bool} {xs ys : List α}
    (h : sortAnyway? less xs = some ys) : ys.Perm xs := by
  obtain ⟨positions, hpositions, rfl⟩ := Option.map_eq_some_iff.mp h
  have hall : (List.range xs.length).filterMap (xs.toArray[·]?) = xs := by
    rw [← List.map_coe_finRange_eq_range, List.filterMap_map]
    conv_rhs => rw [← List.map_get_finRange xs, ← List.filterMap_eq_map]
    refine List.filterMap_congr fun i _ => ?_
    simp
  have hperm := arrangedPositions?_eq_some hpositions
  rw [List.size_toArray] at hperm
  exact (hperm.filterMap _).trans (.of_eq hall)

/-- Sorting commutes with a map that keeps the comparisons. -/
theorem sortAnyway?_map {less : α → α → Bool} {lessB : β → β → Bool}
    {f : α → β} {xs : List α}
    (h : ∀ a ∈ xs, ∀ b ∈ xs, lessB (f a) (f b) = less a b) :
    sortAnyway? lessB (xs.map f) = (sortAnyway? less xs).map (List.map f) := by
  have hless : lessAt lessB (xs.map f).toArray = lessAt less xs.toArray := by
    funext i j
    simp only [lessAt, List.getElem?_toArray, List.getElem?_map]
    cases hi : xs[i]? with
    | none => rfl
    | some a =>
      cases hj : xs[j]? with
      | none => rfl
      | some b => exact h a (List.mem_of_getElem? hi) b (List.mem_of_getElem? hj)
  simp only [sortAnyway?, hless, List.size_toArray, List.length_map,
    Option.map_map]
  refine congrArg (Option.map · _) (funext fun positions => ?_)
  simp [List.map_filterMap]

end CampusQuery.Sorting
