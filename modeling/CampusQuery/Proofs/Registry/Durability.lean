/-
CampusQuery.Proofs.Registry.Durability — datasets that outlive the program.

A dataset that was added can be asked for after a restart. What comes back is
the dataset that was added exactly if all its records are durable
(`resolve_after_restart`). A number whose literal is read as another number
comes back changed, and one that is not finite makes the dataset unreadable.
-/
import CampusQuery.Proofs.Registry.Storage
import CampusQuery.Registry.Basic

namespace CampusQuery

open Numeric Outcome

/-! ## Making datasets -/

theorem Dataset.checkId_eq_ok {id : String} {done : Unit} :
    checkId id = .ok done ↔ isValidId id := by
  unfold checkId
  split <;> simp_all

/-- A dataset is made of records of its kind, of which there must be one,
under a valid id. -/
theorem Dataset.ofRecords_eq_ok {id : String} {kind : Kind}
    {records : List Record} {dataset : Dataset} :
    ofRecords id kind records = .ok dataset ↔
      isValidId id ∧ records ≠ [] ∧ (∀ record ∈ records, record.kind = kind) ∧
        dataset = ⟨id, kind, records⟩ := by
  rw [ofRecords, bind_eq_ok]
  simp only [checkId_eq_ok, ite_refuse_eq_ok, List.isEmpty_iff]
  refine (exists_const Unit).trans
    (and_congr_right fun _ => and_congr_right fun _ => ?_)
  cases hfind : records.find? (·.kind ≠ kind) with
  | none =>
    rw [pure_eq_ok, eq_comm, and_iff_right (by simpa using hfind)]
  | some stray =>
    have hstray := List.find?_some hfind
    constructor
    · intro h
      exact absurd h refuse_ne_ok
    · rintro ⟨h, -⟩
      exact absurd (h stray (List.mem_of_find?_eq_some hfind))
        (by simpa using hstray)

namespace Registry

/-- A dataset can be added if it can be made and its id is not taken. -/
theorem prepare_eq_ok {registry : Registry} {id : String} {kind : Kind}
    {records : List Record} {dataset : Dataset} :
    registry.prepare id kind records = .ok dataset ↔
      registry.contains id = false ∧
        Dataset.ofRecords id kind records = .ok dataset := by
  unfold prepare
  simp only [bind_eq_ok, Dataset.checkId_eq_ok, ite_refuse_eq_ok,
    Bool.not_eq_true]
  constructor
  · rintro ⟨_, -, h⟩
    exact h
  · rintro ⟨hnew, hmade⟩
    exact ⟨(), (Dataset.ofRecords_eq_ok.mp hmade).1, hnew, hmade⟩

/-- Adding succeeds only if the dataset can be made; it is then on the shelf
and in storage, in a row behind all others. -/
theorem add_eq_ok {registry after : Registry} {id : String} {kind : Kind}
    {records : List Record} {ids : List String}
    (h : registry.add id kind records = (.ok ids, after)) :
    ∃ dataset, registry.prepare id kind records = .ok dataset ∧
      after = ⟨registry.shelf.keep dataset,
        (registry.storage.persist dataset).2⟩ := by
  unfold add at h
  split at h
  · cases h
  · rename_i dataset hprepare
    exact ⟨dataset, hprepare, (congrArg Prod.snd h).symm⟩

end Registry

namespace Storage

variable {storage : Storage} {dataset : Dataset}

theorem find?_eq_none (h : storage.contains dataset.id = false) :
    storage.find? dataset.id = none := by
  simpa [contains] using h

/-- A new dataset is stored in a row behind all others. -/
theorem rows_persist (h : storage.contains dataset.id = false) :
    (storage.persist dataset).2.rows = storage.rows ++
      [rowOf dataset (Timestamp.ofTick storage.clock)] := by
  rw [persist, h, if_neg Bool.false_ne_true]

/-- That row is found again. -/
theorem find?_persist (h : storage.contains dataset.id = false) :
    (storage.persist dataset).2.find? dataset.id =
      some (rowOf dataset (Timestamp.ofTick storage.clock)) := by
  have hnone : storage.rows.find? (·.id = dataset.id) = none :=
    find?_eq_none h
  rw [find?, rows_persist h, List.find?_append, hnone]
  simp [rowOf]

/-- What is restored for an id is what the row of that id holds. -/
theorem restore_eq_some {id : String} :
    storage.restore id = .ok (some dataset) ↔ ∃ row,
      storage.find? id = some row ∧ row.id = id ∧
        restoreRow row = .ok dataset := by
  unfold restore
  cases hfind : storage.find? id with
  | none => simp
  | some row =>
    have hid : row.id = id := by simpa using List.find?_some hfind
    simp [map_eq_ok, hid]

end Storage

namespace Registry

/-! ## After a restart -/

/-- A dataset that is not loaded is restored from its row. -/
theorem resolve_fst_of_row {registry : Registry} {id : String}
    {row : StoredRow} (hnew : registry.shelf.get? id = none)
    (hrow : registry.storage.find? id = some row) :
    (registry.resolve id).1 = some <$> Storage.restoreRow row := by
  unfold resolve Storage.restore
  rw [hnew, hrow]
  cases h : Storage.restoreRow row <;> simp [h, Functor.map, Except.map]

/-- Of a dataset that was added only its row is left after a restart. -/
theorem resolve_restart {registry : Registry} {id : String}
    {row : StoredRow} (h : registry.storage.find? id = some row) :
    (registry.restart.resolve id).1 = some <$> Storage.restoreRow row :=
  resolve_fst_of_row rfl h

/-- A dataset that was added comes back after a restart, of the same kind and
with the same records in the same order, exactly if all its records are
durable. -/
theorem resolve_after_restart {registry after : Registry} {id : String}
    {kind : Kind} {records : List Record} {ids : List String}
    (h : registry.add id kind records = (.ok ids, after)) :
    (after.restart.resolve id).1 = .ok (some ⟨id, kind, records⟩) ↔
      ∀ record ∈ records, record.IsDurable := by
  obtain ⟨dataset, hprepare, rfl⟩ := add_eq_ok h
  obtain ⟨hnew, hmade⟩ := prepare_eq_ok.mp hprepare
  obtain ⟨-, -, hkind, rfl⟩ := Dataset.ofRecords_eq_ok.mp hmade
  have hstored : registry.storage.contains id = false :=
    (Bool.or_eq_false_iff.mp hnew).2
  have hrow := @Storage.restoreRow_rowOf_eq_ok ⟨id, kind, records⟩ _
    (Timestamp.isValid_ofTick registry.storage.clock) hkind
  rw [resolve_restart (Storage.find?_persist hstored), map_eq_ok]
  simpa using hrow

def passedBy (pass : Binary64) : Record :=
  .ofSection {
    uuid := "1"
    id := "310"
    title := "sw eng"
    instructor := "smith"
    dept := "cpsc"
    year := .ofInt 2015
    avg := .ofInt 80
    pass := pass
    fail := .ofInt 0
    audit := .ofInt 0 }

/-- Of two sections that are both added, one comes back and one does not. -/
theorem resolve_after_restart_passedBy :
    let added (pass : Binary64) :=
      Registry.empty.add "courses" .sections [passedBy pass]
    let comesBack (pass : Binary64) :=
      ((added pass).2.restart.resolve "courses").1
        = .ok (some ⟨"courses", .sections, [passedBy pass]⟩)
    ((added (.ofInt 40)).1 = .ok ["courses"] ∧ comesBack (.ofInt 40)) ∧
    (added (.ofInt 100000000000000048)).1 = .ok ["courses"] ∧
      ¬comesBack (.ofInt 100000000000000048) := by
  intro added comesBack
  have hadded : ∀ pass, (added pass).1 = .ok ["courses"] →
      (comesBack pass ↔ ∀ record ∈ [passedBy pass], record.IsDurable) :=
    fun pass h => resolve_after_restart (Prod.ext h rfl)
  have hlight : (added (.ofInt 40)).1 = .ok ["courses"] := by decide +kernel
  have hheavy : (added (.ofInt 100000000000000048)).1 = .ok ["courses"] := by
    decide +kernel
  refine ⟨⟨hlight, (hadded _ hlight).mpr ?_⟩, hheavy, ?_⟩
  · decide +kernel
  · rw [hadded _ hheavy]
    decide +kernel

end Registry

end CampusQuery
