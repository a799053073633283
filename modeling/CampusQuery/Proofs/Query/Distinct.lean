/-
CampusQuery.Proofs.Query.Distinct — counting values and grouping by them.

COUNT looks for equal values, grouping for equal texts. For the values of one
field these are the same as long as none is "no number", so each value that is
counted has its text, in the order in which they were put in front
(`map_distinct`), and there are as many values as groups. A set that
keeps values by their hashes counts the same, whatever the hashes are, since
equal values are hashed as one (`countHashed_eq`).
-/
import Mathlib.Data.Finset.Card
import CampusQuery.Proofs.Query.Aggregate
import CampusQuery.Proofs.Query.SingleKey

namespace CampusQuery

open Numeric Outcome

namespace Value

/-! ## Hashing -/

/-- What is hashed of a value: of the two zeros, which are equal, always the
positive one. -/
def hashed : Value → Value
  | number x => if x.equals .zero then .number .zero else .number x
  | text value => .text value

@[simp] theorem hashed_text (s : String) : hashed (.text s) = .text s := rfl

@[simp] theorem hashed_nan : hashed (.number .nan) = .number .nan := rfl

/-- The sign counts unless the number is zero. -/
@[simp] theorem hashed_signed (negative : Bool) (m : Magnitude) :
    hashed (.number (.signed negative m))
      = .number (.signed (negative && decide (m.rank ≠ 0)) m) := by
  have hzero : (Binary64.signed negative m).equals .zero ↔ m = .zero := by
    rw [Binary64.zero, Binary64.equals_signed]
    exact ⟨And.left, fun h => ⟨h, .inr (h ▸ rfl)⟩⟩
  by_cases hsize : m = .zero
  · rw [hashed, if_pos (hzero.mpr hsize), hsize]
    simp [Binary64.zero, Magnitude.zero]
  · have hrank : m.rank ≠ 0 := by
      cases m
      simpa [Magnitude.zero] using hsize
    rw [hashed, if_neg (mt hzero.mp hsize)]
    simp [hrank]

/-- Values other than "no number" are hashed as one if they are equal. -/
theorem hashed_eq_iff {v w : Value} (hv : v ≠ .number .nan) :
    v.hashed = w.hashed ↔ v.equals w := by
  have hnan : ∀ x : Binary64, x.equals .nan = false := by
    intro x
    cases x <;> rfl
  cases v with
  | text s =>
    cases w with
    | text t => simp [equals]
    | number y => cases y <;> simp [equals]
  | number x =>
    cases x with
    | nan => exact absurd rfl hv
    | signed s m =>
      cases w with
      | text t => simp [equals]
      | number y =>
        cases y with
        | nan => simp [equals, hnan]
        | signed t n =>
          simp only [hashed_signed, number.injEq, Binary64.signed.injEq, equals,
            Binary64.equals_signed]
          constructor
          · rintro ⟨hsign, rfl⟩
            by_cases hrank : m.rank = 0
            · exact ⟨rfl, .inr hrank⟩
            · exact ⟨rfl, .inl (by simpa [hrank] using hsign)⟩
          · rintro ⟨rfl, rfl | hrank⟩
            · exact ⟨rfl, rfl⟩
            · simp [hrank]

/-- Equal values are hashed as one. -/
theorem hashed_eq_of_equals {v w : Value} (h : v.equals w) :
    v.hashed = w.hashed := by
  refine (hashed_eq_iff ?_).mpr h
  rintro rfl
  cases w <;> cases h

/-- Puts a value in front of a list unless there is an equal one with the same
hash. -/
def insertHashed (hash : Value → UInt64) (values : List Value)
    (value : Value) : List Value :=
  if values.any fun other =>
    hash other.hashed == hash value.hashed && value.equals other
  then values else value :: values

/-- How many distinct values a list has, told by their hashes first. -/
def countHashed (hash : Value → UInt64) (values : List Value) : Nat :=
  (values.foldl (insertHashed hash) []).length

theorem insertHashed_eq (hash : Value → UInt64) (values : List Value)
    (value : Value) :
    insertHashed hash values value = insertDistinct values value := by
  have hequal : ∀ other : Value,
      (hash other.hashed == hash value.hashed && value.equals other)
        = value.equals other := by
    intro other
    cases h : value.equals other with
    | false => simp
    | true => simp [hashed_eq_of_equals h]
  simp only [insertHashed, insertDistinct, hequal]

/-- Whatever the hashes are, they do not change the count. -/
theorem countHashed_eq (hash : Value → UInt64) (values : List Value) :
    countHashed hash values = countDistinct values := by
  have hinsert : insertHashed hash = insertDistinct := by
    funext values value
    exact insertHashed_eq hash values value
  rw [countHashed, hinsert, countDistinct]

/-! ## Counting -/

theorem mem_of_mem_distinct {value : Value} {values : List Value}
    (h : value ∈ values.foldl insertDistinct []) : value ∈ values := by
  induction values using List.reverseRecOn with
  | nil => exact h
  | append_singleton values last ih =>
    rw [List.foldl_concat, insertDistinct] at h
    split at h
    · exact List.mem_append_left _ (ih h)
    · rcases List.mem_cons.mp h with rfl | hold
      · simp
      · exact List.mem_append_left _ (ih hold)

/-- If a key tells values apart, the distinct values have the keys of the list,
each once, the last one first. -/
theorem map_distinct {κ : Type} [BEq κ] [LawfulBEq κ] {key : Value → κ}
    {values : List Value}
    (h : ∀ v ∈ values, ∀ w ∈ values, key v = key w ↔ v.equals w) :
    (values.foldl insertDistinct []).map key
      = (values.map key).eraseDups.reverse := by
  -- Values are put in front one after the other, so the last one comes last.
  induction values using List.reverseRecOn with
  | nil => rfl
  | append_singleton values last ih =>
    have hold : ∀ v ∈ values, ∀ w ∈ values, key v = key w ↔ v.equals w := by
      intro v hv w hw
      exact h v (List.mem_append_left _ hv) w (List.mem_append_left _ hw)
    have hlast : (values.foldl insertDistinct []).any (equals last)
        ↔ key last ∈ values.map key := by
      have hkeys : key last ∈ values.map key ↔
          key last ∈ (values.foldl insertDistinct []).map key := by
        rw [ih hold, List.mem_reverse, List.mem_eraseDups]
      rw [hkeys, List.any_eq_true, List.mem_map]
      refine exists_congr fun v => and_congr_right fun hv => ?_
      have hin := List.mem_append_left [last] (mem_of_mem_distinct hv)
      rw [← h last (by simp) v hin]
      exact eq_comm
    rw [List.foldl_concat, List.map_append, List.map_singleton,
      Query.Grouping.eraseDups_concat, insertDistinct]
    by_cases hmem : key last ∈ values.map key
    · rw [if_pos (hlast.mpr hmem), if_pos hmem, ih hold]
    · rw [if_neg (mt hlast.mp hmem), if_neg hmem, List.map_cons, ih hold,
        List.reverse_concat]

/-- There are as many distinct values as keys. -/
theorem countDistinct_eq {κ : Type} [BEq κ] [LawfulBEq κ] {key : Value → κ}
    {values : List Value}
    (h : ∀ v ∈ values, ∀ w ∈ values, key v = key w ↔ v.equals w) :
    countDistinct values = (values.map key).eraseDups.length := by
  rw [countDistinct, ← List.length_map key, map_distinct h,
    List.length_reverse]

/-- Values other than "no number" are counted as what is hashed of them. -/
theorem countDistinct_eq_card {values : List Value}
    (h : ∀ v ∈ values, v ≠ .number .nan) :
    countDistinct values = (values.map hashed).toFinset.card := by
  have hsame : (values.map hashed).eraseDups.toFinset
      = (values.map hashed).toFinset := by
    ext v
    rw [List.mem_toFinset, List.mem_toFinset, List.mem_eraseDups]
  rw [countDistinct_eq fun v hv _ _ => hashed_eq_iff (h v hv), ← hsame,
    List.toFinset_card_of_nodup (Query.Grouping.nodup_eraseDups _)]

/-- Their order does not matter. -/
theorem countDistinct_perm {values others : List Value}
    (h : ∀ v ∈ values, v ≠ .number .nan) (hperm : values.Perm others) :
    countDistinct values = countDistinct others := by
  rw [countDistinct_eq_card h, countDistinct_eq_card fun v hv =>
    h v (hperm.mem_iff.mpr hv), List.toFinset_eq_of_perm _ _ (hperm.map hashed)]

theorem countDistinct_le {values : List Value}
    (h : ∀ v ∈ values, v ≠ .number .nan) :
    countDistinct values ≤ values.length := by
  have hcard := List.toFinset_card_le (values.map hashed)
  rwa [List.length_map, ← countDistinct_eq_card h] at hcard

theorem countDistinct_pos {values : List Value} (hne : values ≠ [])
    (h : ∀ v ∈ values, v ≠ .number .nan) : 0 < countDistinct values := by
  rw [countDistinct_eq_card h, Finset.card_pos]
  simpa [Finset.nonempty_iff_ne_empty] using hne

/-- One is counted if all values are equal. -/
theorem countDistinct_eq_one_iff {values : List Value} (hne : values ≠ [])
    (h : ∀ v ∈ values, v ≠ .number .nan) :
    countDistinct values = 1 ↔ ∀ v ∈ values, ∀ w ∈ values, v.equals w := by
  have hpos := countDistinct_pos hne h
  have hsingle : countDistinct values = 1 ↔ countDistinct values ≤ 1 := by omega
  rw [hsingle, countDistinct_eq_card h, Finset.card_le_one]
  simp only [List.mem_toFinset, List.forall_mem_map]
  exact forall₂_congr fun v hv => forall₂_congr fun w _ => hashed_eq_iff (h v hv)

end Value

namespace Query

variable {dataset : Dataset} {ref : FieldRef}

/-! ## Counting a column -/

/-- The count of a column is that of its distinct values. -/
theorem Aggregate.compute_count {rows : List Row} {values : List Value}
    (hvalues : List.Forall₂ (fun row value =>
      row.get? ref.column = some value) rows values) (name : String) :
    compute ⟨name, .count, ref⟩ rows
      = .ok (.number (.ofInt (Value.countDistinct values))) := by
  exact compute_eq hvalues name .count

namespace Grouping

variable {grouping : Grouping} {rows results : List Row}

/-- Grouping by a field without aggregates always makes rows. -/
theorem exists_apply_of_aggregates_eq_nil (hkeys : grouping.keys = [ref])
    (hrows : ∀ row ∈ rows, ∃ value, ref.Has row value)
    (hnone : grouping.aggregates = []) :
    ∃ results, grouping.apply rows = .ok results := by
  refine (exists_apply_iff hkeys hrows).mpr fun row hrow => ?_
  obtain ⟨value, hvalue⟩ := hrows row hrow
  exact ⟨value, hvalue, by simp [Computes, hnone]⟩

/-- There are as many rows as distinct values of the field. -/
theorem length_apply {values : List Value} (hkeys : grouping.keys = [ref])
    (hvalues : List.Forall₂ ref.Has rows values)
    (h : grouping.apply rows = .ok results) :
    results.length = Value.countDistinct values := by
  have hrows : ∀ row ∈ rows, ∃ value, ref.Has row value := by
    intro row hrow
    obtain ⟨value, -, hvalue⟩ := exists_of_forall₂ hvalues hrow
    exact ⟨value, hvalue⟩
  have htexts : rows.map grouping.joined = values.map Value.display := by
    rw [← List.forall₂_eq_eq_eq, List.forall₂_map_left_iff,
      List.forall₂_map_right_iff]
    exact hvalues.imp fun _ _ hvalue => joined_of_has hkeys hvalue
  have htold : ∀ v ∈ values, ∀ w ∈ values,
      v.display = w.display ↔ v.equals w := by
    intro v hv w hw
    obtain ⟨_, -, hleft⟩ := exists_of_forall₂ hvalues.flip hv
    obtain ⟨_, -, hright⟩ := exists_of_forall₂ hvalues.flip hw
    exact Value.display_eq_iff_equals (hleft.type.trans hright.type.symm)
      hleft.ne_nan
  rw [Value.countDistinct_eq htold, ← htexts]
  exact ((apply_eq_ok (covers_of_has hkeys hrows)).mp h).length_eq.symm

/-- Grouping rows of a dataset by a field makes as many rows as COUNT finds
values of the field in all of them, also when it goes by hashes. -/
theorem length_apply_eq_count
    (hkind : ∀ record ∈ dataset.records, record.kind = dataset.kind)
    (hnan : ∀ record ∈ dataset.records,
      record.field ref.field ≠ .ok (.number .nan))
    (href : (scopeOf dataset).Names ref.column ref)
    (hkeys : grouping.keys = [ref])
    (hrows : ∀ row ∈ rows, ∃ record ∈ dataset.records,
      record.toRow dataset.id = .ok row) :
    (grouping.aggregates = [] →
      ∃ results, grouping.apply rows = .ok results) ∧
    ∀ results, grouping.apply rows = .ok results →
      (∀ name, Aggregate.compute ⟨name, .count, ref⟩ rows
        = .ok (.number (.ofInt results.length))) ∧
      ∃ values, List.Forall₂ (fun row value =>
          row.get? ref.column = some value) rows values ∧
        ∀ hash, Value.countHashed hash values = results.length := by
  have hhas : ∀ row ∈ rows, ∃ value, ref.Has row value := fun row hrow =>
    exists_has hkind hnan href (hrows row hrow)
  refine ⟨exists_apply_of_aggregates_eq_nil hkeys hhas, ?_⟩
  intro results hresults
  obtain ⟨values, hvalues⟩ := exists_forall₂ hhas
  have hlength := length_apply hkeys hvalues hresults
  have hget : List.Forall₂ (fun row value =>
      row.get? ref.column = some value) rows values :=
    hvalues.imp fun _ _ hvalue => hvalue.get?
  refine ⟨fun name => ?_, values, hget, fun hash => ?_⟩
  · rw [hlength]
    exact Aggregate.compute_count hget name
  · rw [hlength]
    exact Value.countHashed_eq hash values

/-- The zeros are counted as one average, and they make one group. -/
theorem length_apply_eq_count_zeroAverages :
    ∃ rows results, selectRows zeroAverages none = .ok rows ∧
      byAverageCount.apply rows = .ok results ∧
      (∀ name, Aggregate.compute
        ⟨name, .count, ⟨"courses", "avg", .numeric⟩⟩ rows
          = .ok (.number (.ofInt 2))) ∧
      ∃ values, List.Forall₂ (fun row value =>
          row.get? "courses_avg" = some value) rows values ∧
        ∀ hash, Value.countHashed hash values = 2 := by
  have hlength : List.length <$>
      (selectRows zeroAverages none >>= byAverageCount.apply)
        = .ok 2 := by decide +kernel
  obtain ⟨results, hresults, htwo⟩ := map_eq_ok.mp hlength
  obtain ⟨rows, hrows, happly⟩ := bind_eq_ok.mp hresults
  have hkind : ∀ record ∈ zeroAverages.records,
      record.kind = zeroAverages.kind := by decide
  have hnan : ∀ record ∈ zeroAverages.records,
      record.field "avg" ≠ .ok (.number .nan) := by decide +kernel
  have href : (scopeOf zeroAverages).Names "courses_avg"
      ⟨"courses", "avg", .numeric⟩ := ⟨rfl, by decide, rfl⟩
  have hkeys : byAverageCount.keys = [⟨"courses", "avg", .numeric⟩] := rfl
  obtain ⟨-, hcount⟩ := length_apply_eq_count hkind hnan href hkeys fun _ =>
    exists_record_of_selectRows hrows
  obtain ⟨hcomputed, hhashed⟩ := htwo ▸ hcount results happly
  exact ⟨rows, results, hrows, happly, hcomputed, hhashed⟩

end Grouping

end Query

end CampusQuery
