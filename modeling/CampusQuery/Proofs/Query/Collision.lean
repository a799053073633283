/-
CampusQuery.Proofs.Query.Collision — groups and equal keys.

The rows of a group should be those with equal values in all key columns.
What is compared is one text for each row, so two rows with unequal keys
collide if that text is the same: because a key ends where another one goes
on, or because unequal values look alike. Groups are exact if and only if no
two rows collide (`isExact_iff_distinguishes`).
-/
import CampusQuery.Proofs.Query.Grouping
import CampusQuery.Proofs.Value

namespace CampusQuery.Query.Grouping

open Outcome

variable {grouping : Grouping} {rows : List Row} {row other : Row}

/-! ## Columns of two rows -/

/-- Both rows have a column, and its values are related. -/
def Related (r : Value → Value → Prop) (row other : Row)
    (column : String) : Prop :=
  ∃ v w, row.get? column = some v ∧ other.get? column = some w ∧ r v w

def SameKeys (grouping : Grouping) (row other : Row) : Prop :=
  ∀ key ∈ grouping.keys,
    Related (fun v w => v.equals w) row other key.column

/-- The rows have the same text without having equal keys. -/
structure Collide (grouping : Grouping) (row other : Row) : Prop where
  joined : grouping.joined row = grouping.joined other
  differ : grouping.displays row ≠ grouping.displays other ∨
    ∃ key ∈ grouping.keys, Related Value.LooksLike row other key.column

/-- The key columns have the same texts one by one. -/
theorem displays_eq_iff (hrow : grouping.Covers row)
    (hother : grouping.Covers other) :
    grouping.displays row = grouping.displays other ↔
      ∀ key ∈ grouping.keys,
        Related (fun v w => v.display = w.display) row other key.column := by
  have hkeys : ∀ keys : List FieldRef,
      (∀ key ∈ keys, row.contains key.column) →
      (∀ key ∈ keys, other.contains key.column) →
      ((keys.filterMap fun key => (row.get? key.column).map Value.display)
          = (keys.filterMap fun key =>
            (other.get? key.column).map Value.display) ↔
        ∀ key ∈ keys,
          Related (fun v w => v.display = w.display) row other key.column) := by
    intro keys
    induction keys with
    | nil => simp
    | cons key rest ih =>
      intro hrow hother
      rw [List.forall_mem_cons] at hrow hother
      obtain ⟨v, hv⟩ := Option.isSome_iff_exists.mp hrow.1
      obtain ⟨w, hw⟩ := Option.isSome_iff_exists.mp hother.1
      have hfirst : Related (fun v w => v.display = w.display) row other
          key.column ↔ v.display = w.display := by
        simp [Related, hv, hw]
      rw [List.forall_mem_cons, hfirst, ← ih hrow.2 hother.2]
      simp [hv, hw]
  exact hkeys _ hrow hother

/-- Rows with equal keys have the same texts. -/
theorem SameKeys.displays_eq (h : grouping.SameKeys row other)
    (hrow : grouping.Covers row) (hother : grouping.Covers other) :
    grouping.displays row = grouping.displays other := by
  rw [displays_eq_iff hrow hother]
  intro key hkey
  obtain ⟨v, w, hv, hw, hequals⟩ := h key hkey
  exact ⟨v, w, hv, hw, Value.display_eq_iff.mpr (.inl hequals)⟩

/-- Rows with the same text have equal keys unless they collide. -/
theorem sameKeys_iff_not_collide (hrow : grouping.Covers row)
    (hother : grouping.Covers other)
    (h : grouping.joined row = grouping.joined other) :
    grouping.SameKeys row other ↔ ¬grouping.Collide row other := by
  constructor
  · rintro hsame ⟨-, hdiffer | ⟨key, hkey, v, w, hv, hw, hlike⟩⟩
    · exact hdiffer (hsame.displays_eq hrow hother)
    · obtain ⟨v', w', hv', hw', hequals⟩ := hsame key hkey
      obtain rfl := Option.some.inj (hv.symm.trans hv')
      obtain rfl := Option.some.inj (hw.symm.trans hw')
      exact hlike.not_equals hequals
  · intro hcollide key hkey
    have hdisplays : grouping.displays row = grouping.displays other :=
      Classical.not_not.mp fun hne => hcollide ⟨h, .inl hne⟩
    obtain ⟨v, w, hv, hw, hdisplay⟩ :=
      (displays_eq_iff hrow hother).mp hdisplays key hkey
    refine ⟨v, w, hv, hw, ?_⟩
    exact (Value.display_eq_iff.mp hdisplay).resolve_right fun hlike =>
      hcollide ⟨h, .inr ⟨key, hkey, v, w, hv, hw, hlike⟩⟩

/-! ## Groups -/

/-- Two rows are together exactly if their keys are equal. -/
def IsExact (grouping : Grouping) (rows : List Row)
    (blocks : List (List (Fin rows.length))) : Prop :=
  ∀ i j, i ≠ j → (Together blocks i j ↔
    grouping.SameKeys (rows.get i) (rows.get j))

/-- No two rows collide. -/
def Distinguishes (grouping : Grouping) (rows : List Row) : Prop :=
  ∀ i j : Fin rows.length, i ≠ j →
    ¬grouping.Collide (rows.get i) (rows.get j)

/-- The key columns of the result are those of all rows of the block. -/
def Shares (grouping : Grouping) (rows : List Row)
    (block : List (Fin rows.length)) (result : Row) : Prop :=
  ∀ i ∈ block, ∀ key ∈ grouping.keys,
    Related (fun v w => v = w ∨ v.equals w) result (rows.get i) key.column

/-- The results of exact groups have the keys of all their rows. -/
theorem shares_of_isExact {blocks : List (List (Fin rows.length))}
    (hbuilt : grouping.IsBuilt) (hrows : ∀ row ∈ rows, grouping.Covers row)
    (hgroups : grouping.Groups rows blocks)
    (hexact : grouping.IsExact rows blocks) {results : List Row}
    (h : grouping.apply rows = .ok results) :
    List.Forall₂ (grouping.Shares rows) blocks results := by
  rw [apply, hgroups.buckets] at h
  have hresults := mapM_eq_ok.mp h
  rw [List.forall₂_map_left_iff, List.forall₂_iff_zip] at hresults
  refine List.forall₂_iff_zip.mpr ⟨hresults.1, ?_⟩
  intro block result hpair i hi key hkey
  have hblock := (List.of_mem_zip hpair).1
  obtain ⟨first, rest, rfl⟩ :=
    List.exists_cons_of_ne_nil (hgroups.nonempty block hblock)
  have hfirst := hrows _ (List.get_mem rows first)
  have hcolumn := get?_bucketRow hbuilt hfirst (hresults.2 hpair) hkey
  obtain ⟨value, hvalue⟩ := Option.isSome_iff_exists.mp (hfirst key hkey)
  by_cases heq : first = i
  · exact ⟨value, value, hcolumn.trans hvalue, heq ▸ hvalue, .inl rfl⟩
  · obtain ⟨v, w, hv, hw, hequals⟩ := (hexact first i heq).mp
      ⟨_, hblock, List.mem_cons_self, hi⟩ key hkey
    exact ⟨v, w, hcolumn.trans hv, hw, .inr hequals⟩

/-- Rows that have all key columns fall into groups. The groups are exact if
and only if no two rows collide, and then every result has the keys that all
rows of its group share. -/
theorem isExact_iff_distinguishes (hbuilt : grouping.IsBuilt)
    (hrows : ∀ row ∈ rows, grouping.Covers row) :
    ∃ blocks, grouping.Groups rows blocks ∧
      (grouping.IsExact rows blocks ↔ grouping.Distinguishes rows) ∧
      (grouping.Distinguishes rows → ∀ results,
        grouping.apply rows = .ok results →
          List.Forall₂ (grouping.Shares rows) blocks results) := by
  obtain ⟨blocks, hgroups, htogether⟩ := exists_groups hrows
  have hcovers : ∀ i, grouping.Covers (rows.get i) := fun i =>
    hrows _ (List.get_mem rows i)
  have hiff : grouping.IsExact rows blocks ↔ grouping.Distinguishes rows := by
    refine forall_congr' fun i => forall_congr' fun j => ?_
    refine imp_congr_right fun _ => ?_
    rw [htogether]
    constructor
    · intro hexact hcollide
      exact (sameKeys_iff_not_collide (hcovers i) (hcovers j)
        hcollide.joined).mp (hexact.mp hcollide.joined) hcollide
    · intro hcollide
      constructor
      · intro hjoined
        exact (sameKeys_iff_not_collide (hcovers i) (hcovers j)
          hjoined).mpr hcollide
      · intro hsame
        exact congrArg String.join
          (hsame.displays_eq (hcovers i) (hcovers j))
  refine ⟨blocks, hgroups, hiff, ?_⟩
  intro hdistinguishes results hresults
  exact shares_of_isExact hbuilt hrows hgroups (hiff.mpr hdistinguishes)
    hresults

def byCourse : Grouping where
  keys := [⟨"courses", "dept", .text⟩, ⟨"courses", "id", .text⟩]
  aggregates := []

def courseRows (courses : List (String × String)) : List Row :=
  courses.map fun (dept, id) =>
    .ofColumns [("courses_dept", .text dept), ("courses_id", .text id)]

/-- The courses a-bc and ab-c fall into one group, a-b and c-d do not. -/
theorem isExact_iff_distinguishes_byCourse :
    (∃ blocks, byCourse.Groups (courseRows [("a", "bc"), ("ab", "c")]) blocks ∧
      ¬byCourse.IsExact (courseRows [("a", "bc"), ("ab", "c")]) blocks) ∧
    ∃ blocks, byCourse.Groups (courseRows [("a", "b"), ("c", "d")]) blocks ∧
      byCourse.IsExact (courseRows [("a", "b"), ("c", "d")]) blocks := by
  have hbuilt : byCourse.IsBuilt :=
    @IsBuilt.setKeys _ _ byCourse.keys .empty rfl
  constructor
  · obtain ⟨blocks, hgroups, hiff, -⟩ :=
      @isExact_iff_distinguishes _ (courseRows [("a", "bc"), ("ab", "c")])
        hbuilt (by decide)
    refine ⟨blocks, hgroups, fun hexact => ?_⟩
    refine hiff.mp hexact ⟨0, by decide⟩ ⟨1, by decide⟩ (by decide) ?_
    exact ⟨by decide, .inl (by decide)⟩
  · obtain ⟨blocks, hgroups, hiff, -⟩ :=
      @isExact_iff_distinguishes _ (courseRows [("a", "b"), ("c", "d")])
        hbuilt (by decide)
    have hjoined : ∀ i j : Fin (courseRows [("a", "b"), ("c", "d")]).length,
        i ≠ j →
        byCourse.joined ((courseRows [("a", "b"), ("c", "d")]).get i)
          ≠ byCourse.joined ((courseRows [("a", "b"), ("c", "d")]).get j) := by
      decide
    refine ⟨blocks, hgroups, hiff.mpr fun i j hne hcollide => ?_⟩
    exact hjoined i j hne hcollide.joined

end CampusQuery.Query.Grouping
