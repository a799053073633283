/-
CampusQuery.Proofs.Registry.Integrity — what holds of every registry that can
be reached.

The shelf and storage are changed in separate steps, and a dataset that is
restored from storage is put on the shelf unchecked. `Coherent` is what keeps
the two together all the same: every row of storage is the row of a sound
dataset, and what is on the shelf is sound and has the id, the kind and the
number of records of a stored row. Every operation keeps it up, so it holds of
whatever can be reached (`Reachable.coherent`). The listing of a coherent
registry shows the rows of storage, in another order at most
(`Coherent.list`).
-/
import Mathlib.Data.List.Nodup
import CampusQuery.Proofs.Registry.Catalogue
import CampusQuery.Proofs.Registry.Representation

namespace CampusQuery

open Outcome

/-! ## Sound datasets and their rows -/

/-- What is checked when a dataset is made. -/
structure Dataset.IsSound (dataset : Dataset) : Prop where
  id : isValidId dataset.id
  records : dataset.records ≠ []
  kind : ∀ record ∈ dataset.records, record.kind = dataset.kind

theorem Dataset.isSound_of_ofRecords {id : String} {kind : Kind}
    {records : List Record} {dataset : Dataset}
    (h : ofRecords id kind records = .ok dataset) :
    dataset.IsSound ∧ dataset.id = id := by
  obtain ⟨hid, hne, hkind, rfl⟩ := ofRecords_eq_ok.mp h
  exact ⟨⟨hid, hne, hkind⟩, rfl⟩

/-- The row is stored under the id of the listing entry, with its kind and its
number of records. -/
structure StoredRow.Shows (row : StoredRow) (info : DatasetInfo) : Prop where
  id : row.id = info.id
  kind : row.kind = .text info.kind.name
  count : row.count = .integer info.rows

/-- A row shows one listing entry only. -/
theorem StoredRow.Shows.unique {row : StoredRow} {info other : DatasetInfo}
    (h : row.Shows info) (hother : row.Shows other) : info = other := by
  obtain ⟨id, kind, rows⟩ := info
  obtain ⟨otherId, otherKind, otherRows⟩ := other
  have hid : id = otherId := h.id.symm.trans hother.id
  have hname := h.kind.symm.trans hother.kind
  have hcount := h.count.symm.trans hother.count
  have hkind : kind = otherKind := by
    cases kind <;> cases otherKind <;> simp_all [Kind.name]
  have hrows : rows = otherRows := Int.ofNat.inj (Cell.integer.inj hcount)
  rw [hid, hkind, hrows]

namespace Storage

/-- The row of a dataset shows its listing entry. -/
theorem shows_rowOf (dataset : Dataset) (time : String) :
    (rowOf dataset time).Shows dataset.info := ⟨rfl, rfl, rfl⟩

/-- Numbers may have changed in records that are read from storage, but there
are as many of them and they are of the same kind. -/
theorem of_readRecords {dataset : Dataset} {records : List Record}
    (h : readRecords dataset.id dataset.kind (recordsText dataset)
      = .ok records) :
    records.length = dataset.records.length ∧
      ∀ record ∈ records, record.kind = dataset.kind := by
  unfold readRecords at h
  rw [read?_recordsText] at h
  split at h
  · cases h
  · rename_i items hitems
    have hwritten := (rereadItems_eq_some.mp hitems).length_eq
    have hread := mapM_eq_ok.mp h
    refine ⟨by simpa [hread.length_eq] using hwritten.symm, ?_⟩
    intro record hrecord
    obtain ⟨item, -, hitem⟩ := exists_of_forall₂ hread.flip hrecord
    exact (RecordReader.named_of_read (mapError_eq_ok.mp hitem)).1

/-- What is restored from the row of a sound dataset is sound, and has the same
listing entry. -/
theorem isSound_of_restoreRow {dataset restored : Dataset} {tick : Nat}
    (hsound : dataset.IsSound)
    (h : restoreRow (rowOf dataset (Timestamp.ofTick tick)) = .ok restored) :
    restored.IsSound ∧ restored.info = dataset.info := by
  rw [restoreRow_rowOf dataset (Timestamp.isValid_ofTick tick)] at h
  obtain ⟨records, hrecords, rfl⟩ := map_eq_ok.mp h
  obtain ⟨hlength, hkind⟩ := of_readRecords hrecords
  refine ⟨⟨hsound.id, ?_, hkind⟩, by simp [Dataset.info, hlength]⟩
  intro hempty
  have hzero : dataset.records.length = 0 := by simpa [← hlength] using hempty
  exact hsound.records (List.eq_nil_of_length_eq_zero hzero)

end Storage

/-! ## The invariant -/

namespace Registry

/-- The shelf and storage go together. -/
structure Coherent (registry : Registry) : Prop where
  shelf_nodup : (registry.shelf.datasets.map (·.id)).Nodup
  shelf_sound : ∀ dataset ∈ registry.shelf.datasets, dataset.IsSound
  shelf_stored : ∀ dataset ∈ registry.shelf.datasets,
    ∃ row ∈ registry.storage.rows, row.Shows dataset.info
  rows_nodup : (registry.storage.rows.map (·.id)).Nodup
  rows_written : ∀ row ∈ registry.storage.rows, ∃ dataset tick,
    dataset.IsSound ∧ row = Storage.rowOf dataset (Timestamp.ofTick tick)

variable {registry : Registry}

theorem coherent_empty : Registry.empty.Coherent where
  shelf_nodup := List.nodup_nil
  shelf_sound := by simp [Registry.empty, Shelf.empty]
  shelf_stored := by simp [Registry.empty, Shelf.empty]
  rows_nodup := List.nodup_nil
  rows_written := by simp [Registry.empty, Storage.empty]

namespace Coherent

/-- A sound dataset with a stored row may be loaded. -/
theorem keep (h : registry.Coherent) {dataset : Dataset}
    (hsound : dataset.IsSound)
    (hstored : ∃ row ∈ registry.storage.rows, row.Shows dataset.info)
    (hnew : registry.shelf.get? dataset.id = none) :
    Coherent ⟨registry.shelf.keep dataset, registry.storage⟩ where
  shelf_nodup := Shelf.nodup_keep hnew h.shelf_nodup
  shelf_sound kept hkept := by
    rcases (Shelf.mem_keep hnew).mp hkept with hold | rfl
    · exact h.shelf_sound kept hold
    · exact hsound
  shelf_stored kept hkept := by
    rcases (Shelf.mem_keep hnew).mp hkept with hold | rfl
    · exact h.shelf_stored kept hold
    · exact hstored
  rows_nodup := h.rows_nodup
  rows_written := h.rows_written

/-- A sound dataset under a new id may be stored. -/
theorem persist (h : registry.Coherent) {dataset : Dataset}
    (hsound : dataset.IsSound)
    (hnew : registry.storage.contains dataset.id = false) :
    Coherent ⟨registry.shelf, (registry.storage.persist dataset).2⟩ := by
  have hrows := Storage.rows_persist hnew
  have hrowsNew : ∀ row ∈ registry.storage.rows, row.id ≠ dataset.id := by
    simpa [Storage.find?] using Storage.find?_eq_none hnew
  constructor
  case shelf_nodup => exact h.shelf_nodup
  case shelf_sound => exact h.shelf_sound
  case shelf_stored =>
    intro kept hkept
    obtain ⟨row, hrow, hshows⟩ := h.shelf_stored kept hkept
    exact ⟨row, by simp [hrows, hrow], hshows⟩
  case rows_nodup =>
    rw [hrows, List.map_append, List.map_singleton, List.nodup_append_comm]
    refine List.nodup_cons.mpr ⟨?_, h.rows_nodup⟩
    intro hmem
    obtain ⟨row, hrow, hid⟩ := List.mem_map.mp hmem
    exact hrowsNew row hrow hid
  case rows_written =>
    intro row hrow
    rw [hrows, List.mem_append, List.mem_singleton] at hrow
    rcases hrow with hold | rfl
    · exact h.rows_written row hold
    · exact ⟨dataset, _, hsound, rfl⟩

/-! ## Operations -/

theorem add (h : registry.Coherent) (id : String) (kind : Kind)
    (records : List Record) :
    (registry.add id kind records).2.Coherent := by
  unfold Registry.add
  cases hprepare : registry.prepare id kind records with
  | error e => exact h
  | ok dataset =>
    obtain ⟨hnew, hmade⟩ := prepare_eq_ok.mp hprepare
    obtain ⟨hsound, rfl⟩ := Dataset.isSound_of_ofRecords hmade
    obtain ⟨hshelf, hstorage⟩ := Bool.or_eq_false_iff.mp hnew
    have hget : registry.shelf.get? dataset.id = none := by
      simpa [Shelf.contains] using hshelf
    -- The row is there before the dataset is put on the shelf.
    have hstored := h.persist hsound hstorage
    refine hstored.keep hsound ⟨_, ?_,
      Storage.shows_rowOf dataset (Timestamp.ofTick registry.storage.clock)⟩ hget
    show _ ∈ (registry.storage.persist dataset).2.rows
    rw [Storage.rows_persist hstorage]
    exact List.mem_append_right _ List.mem_cons_self

theorem addJson (h : registry.Coherent) (id : String) (kind : Kind)
    (content : Json) : (registry.addJson id kind content).2.Coherent := by
  unfold Registry.addJson
  cases readContent kind content with
  | error e => exact h
  | ok records => exact h.add id kind records

/-- What is taken from the shelf is removed from storage as well, and nothing
else is. -/
theorem remove (h : registry.Coherent) (id : String) :
    (registry.remove id).2.Coherent := by
  unfold Registry.remove
  cases Dataset.checkId id with
  | error e => exact h
  | ok done =>
    by_cases hthere : registry.contains id
    · rw [if_pos hthere]
      constructor
      case shelf_nodup =>
        exact h.shelf_nodup.sublist (List.filter_sublist.map _)
      case shelf_sound =>
        intro kept hkept
        exact h.shelf_sound kept (List.mem_filter.mp hkept).1
      case shelf_stored =>
        intro kept hkept
        obtain ⟨hold, hne⟩ := List.mem_filter.mp hkept
        obtain ⟨row, hrow, hshows⟩ := h.shelf_stored kept hold
        have hid : row.id = kept.id := hshows.id
        exact ⟨row, List.mem_filter.mpr ⟨hrow, by rwa [hid]⟩, hshows⟩
      case rows_nodup =>
        exact h.rows_nodup.sublist (List.filter_sublist.map _)
      case rows_written =>
        intro row hrow
        exact h.rows_written row (List.mem_filter.mp hrow).1
    · rw [if_neg hthere]
      exact h

/-- A dataset that is restored fits the row that it is restored from. -/
theorem resolve (h : registry.Coherent) (id : String) :
    (registry.resolve id).2.Coherent := by
  unfold Registry.resolve
  cases hget : registry.shelf.get? id with
  | some dataset => exact h
  | none =>
    cases hrestore : registry.storage.restore id with
    | error e => exact h
    | ok found =>
      cases found with
      | none => exact h
      | some restored =>
        obtain ⟨row, hfind, hid, hrow⟩ := Storage.restore_eq_some.mp hrestore
        have hmem := List.mem_of_find?_eq_some hfind
        obtain ⟨dataset, tick, hsound, rfl⟩ := h.rows_written row hmem
        obtain ⟨hrestored, hinfo⟩ := Storage.isSound_of_restoreRow hsound hrow
        have hshows := Storage.shows_rowOf dataset (Timestamp.ofTick tick)
        rw [← hinfo] at hshows
        have hnew : registry.shelf.get? restored.id = none := by
          rw [← hget, ← hid]
          exact congrArg _ hshows.id.symm
        exact h.keep hrestored ⟨_, hmem, hshows⟩ hnew

theorem restart (h : registry.Coherent) : registry.restart.Coherent where
  shelf_nodup := List.nodup_nil
  shelf_sound := by simp [Registry.restart, Shelf.empty]
  shelf_stored := by simp [Registry.restart, Shelf.empty]
  rows_nodup := h.rows_nodup
  rows_written := h.rows_written

theorem afterBinding (h : registry.Coherent) (raw : Json) :
    (registry.afterBinding raw).Coherent := by
  unfold Registry.afterBinding
  cases Query.boundDataset raw with
  | error e => exact h
  | ok id => exact h.resolve id

/-- No request breaks a coherent registry. -/
theorem serve (h : registry.Coherent) (request : Request) :
    (registry.serve request).2.Coherent := by
  cases request with
  | add id kind content => exact h.addJson id kind content
  | remove id => exact h.remove id
  | list => exact h
  | resolve id => exact h.resolve id
  | query raw => exact h.afterBinding raw
  | restart => exact h.restart

end Coherent

/-- What can be reached from nothing by adding records as they are and by
requests, in any order. -/
inductive Reachable : Registry → Prop
  | empty : Reachable .empty
  | added {registry : Registry} (id : String) (kind : Kind)
      (records : List Record) :
    Reachable registry → Reachable (registry.add id kind records).2
  | served {registry : Registry} (request : Request) :
    Reachable registry → Reachable (registry.serve request).2

/-- Every registry that can be reached is coherent. -/
theorem Reachable.coherent (h : registry.Reachable) : registry.Coherent := by
  induction h with
  | empty => exact coherent_empty
  | added id kind records _ ih => exact ih.add id kind records
  | served request _ ih => exact ih.serve request

/-! ## Listing -/

/-- Putting those loaded first changes the order of a listing only. -/
theorem loaded_append_perm {loaded stored : List DatasetInfo}
    (hloaded : (loaded.map (·.id)).Nodup) (hstored : (stored.map (·.id)).Nodup)
    (hsub : ∀ info ∈ loaded, info ∈ stored) :
    (loaded ++ stored.filter fun info => loaded.all (·.id ≠ info.id)).Perm
      stored := by
  have hleft : (loaded ++ stored.filter fun info =>
      loaded.all (·.id ≠ info.id)).Nodup := by
    rw [List.nodup_append]
    refine ⟨.of_map _ hloaded, (List.Nodup.of_map _ hstored).filter _, ?_⟩
    intro info hinfo other hother heq
    have hall := (List.mem_filter.mp hother).2
    simpa [heq] using List.all_eq_true.mp hall info hinfo
  rw [List.perm_ext_iff_of_nodup hleft (.of_map _ hstored)]
  intro info
  rw [List.mem_append, List.mem_filter]
  constructor
  · intro h
    rcases h with hinfo | ⟨hinfo, -⟩
    · exact hsub info hinfo
    · exact hinfo
  · intro hinfo
    by_cases hall : loaded.all (·.id ≠ info.id)
    · exact .inr ⟨hinfo, hall⟩
    · simp only [List.all_eq_true, decide_eq_true_eq, not_forall,
        Classical.not_not] at hall
      obtain ⟨other, hother, hid⟩ := hall
      have hsame : other = info :=
        List.inj_on_of_nodup_map hstored (hsub other hother) hinfo hid
      exact .inl (hsame ▸ hother)

namespace Coherent

/-- Every row of storage is listed as what it shows. -/
theorem infos (h : registry.Coherent) :
    ∃ stored, registry.storage.infos = .ok stored ∧
      (stored.map (·.id)).Perm (registry.storage.rows.map (·.id)) ∧
      ∀ info, info ∈ stored ↔
        ∃ row ∈ registry.storage.rows, row.Shows info := by
  have hperm := List.mergeSort_perm registry.storage.rows Storage.addedBefore
  have hrow : ∀ row ∈ registry.storage.rows.mergeSort Storage.addedBefore,
      ∃ info, Storage.rowInfo row = .ok (some info) ∧ row.Shows info := by
    intro row hrow
    obtain ⟨dataset, tick, -, rfl⟩ := h.rows_written row (hperm.mem_iff.mp hrow)
    exact ⟨dataset.info, Storage.rowInfo_rowOf _ _, Storage.shows_rowOf _ _⟩
  obtain ⟨stored, hstored⟩ := exists_forall₂ hrow
  have hread : (registry.storage.rows.mergeSort Storage.addedBefore).mapM
      Storage.rowInfo = .ok (stored.map some) := by
    rw [mapM_eq_ok, List.forall₂_map_right_iff]
    exact hstored.imp fun _ _ hinfo => hinfo.1
  have hids : stored.map (·.id)
      = (registry.storage.rows.mergeSort Storage.addedBefore).map (·.id) := by
    rw [← List.forall₂_eq_eq_eq, List.forall₂_map_left_iff,
      List.forall₂_map_right_iff]
    exact (hstored.imp fun _ _ hinfo => hinfo.2.id.symm).flip
  refine ⟨stored, ?_, hids ▸ hperm.map _, ?_⟩
  · unfold Storage.infos
    simp [hread]
  · intro info
    constructor
    · intro hinfo
      obtain ⟨row, hmem, -, hshows⟩ := exists_of_forall₂ hstored.flip hinfo
      exact ⟨row, hperm.mem_iff.mp hmem, hshows⟩
    · intro hshown
      obtain ⟨row, hmem, hshows⟩ := hshown
      obtain ⟨other, hother, -, hsame⟩ :=
        exists_of_forall₂ hstored (hperm.mem_iff.mpr hmem)
      exact hshows.unique hsame ▸ hother

/-- The listing shows the rows of storage, in the same order if nothing is
loaded and in another one otherwise. -/
theorem list (h : registry.Coherent) :
    ∃ stored infos, registry.restart.list = .ok stored ∧
      registry.list = .ok infos ∧ infos.Perm stored ∧
      (stored.map (·.id)).Perm (registry.storage.rows.map (·.id)) ∧
      ∀ info, info ∈ stored ↔
        ∃ row ∈ registry.storage.rows, row.Shows info := by
  obtain ⟨stored, hstored, hids, hmem⟩ := h.infos
  have hloaded : ((registry.shelf.datasets.map Dataset.info).map
      (·.id)).Nodup := by
    rw [List.map_map]
    exact h.shelf_nodup
  have hsub : ∀ info ∈ registry.shelf.datasets.map Dataset.info,
      info ∈ stored := by
    intro info hinfo
    obtain ⟨dataset, hdataset, rfl⟩ := List.mem_map.mp hinfo
    exact (hmem _).mpr (h.shelf_stored dataset hdataset)
  refine ⟨stored, _, ?_, ?_,
    loaded_append_perm hloaded (hids.nodup_iff.mpr h.rows_nodup) hsub, hids, hmem⟩
  · simp [Registry.list, hstored, Registry.restart, Shelf.empty]
  · simp [Registry.list, hstored]

/-- The row of a loaded dataset is the one that is found under its id. -/
theorem find?_eq_some (h : registry.Coherent) {row : StoredRow}
    (hrow : row ∈ registry.storage.rows) :
    registry.storage.find? row.id = some row := by
  cases hfind : registry.storage.find? row.id with
  | none =>
    have hnone := List.find?_eq_none.mp hfind row hrow
    simp at hnone
  | some other =>
    have hid : other.id = row.id := by simpa using List.find?_some hfind
    rw [List.inj_on_of_nodup_map h.rows_nodup
      (List.mem_of_find?_eq_some hfind) hrow hid]

end Coherent

/-! ## Integrity -/

/-- In every registry that can be reached, a loaded dataset is under its own
valid id, has records and all of its kind, and has a row with its kind and
their number; no id has two rows; and the listing names the id of every row
once, with the kind and the number of the row, of the dataset that is loaded
under it, and of the listing with nothing loaded. -/
theorem Reachable.integrity (h : registry.Reachable) :
    (∀ id dataset, registry.shelf.get? id = some dataset →
      dataset.id = id ∧ dataset.IsSound ∧
        ∃ row, registry.storage.find? id = some row ∧
          row.Shows dataset.info) ∧
    (registry.storage.rows.map (·.id)).Nodup ∧
    ∃ infos stored, registry.list = .ok infos ∧
      registry.restart.list = .ok stored ∧ infos.Perm stored ∧
      (infos.map (·.id)).Perm (registry.storage.rows.map (·.id)) ∧
      ∀ info ∈ infos,
        (∃ row, registry.storage.find? info.id = some row ∧
          row.Shows info) ∧
        ∀ dataset, registry.shelf.get? info.id = some dataset →
          dataset.info = info := by
  have hcoherent := h.coherent
  have hrow : ∀ info, (∃ row ∈ registry.storage.rows, row.Shows info) →
      ∃ row, registry.storage.find? info.id = some row ∧ row.Shows info := by
    intro info hshown
    obtain ⟨row, hmem, hshows⟩ := hshown
    exact ⟨row, hshows.id ▸ hcoherent.find?_eq_some hmem, hshows⟩
  have hloaded : ∀ id dataset, registry.shelf.get? id = some dataset →
      dataset.id = id ∧ dataset.IsSound ∧
        ∃ row, registry.storage.find? id = some row ∧
          row.Shows dataset.info := by
    intro id dataset hget
    have hmem := List.mem_of_find?_eq_some hget
    have hid : dataset.id = id := by simpa using List.find?_some hget
    subst hid
    exact ⟨rfl, hcoherent.shelf_sound dataset hmem,
      hrow _ (hcoherent.shelf_stored dataset hmem)⟩
  obtain ⟨stored, infos, hstored, hlist, hperm, hids, hmem⟩ := hcoherent.list
  refine ⟨hloaded, hcoherent.rows_nodup, infos, stored, hlist, hstored, hperm,
    (hperm.map _).trans hids, ?_⟩
  intro info hinfo
  have hfound := hrow info ((hmem info).mp (hperm.mem_iff.mp hinfo))
  refine ⟨hfound, fun dataset hget => ?_⟩
  obtain ⟨row, hfind, hshows⟩ := hfound
  obtain ⟨-, -, other, hother, hsame⟩ := hloaded _ dataset hget
  obtain rfl := Option.some.inj (hfind.symm.trans hother)
  exact hsame.unique hshows

/-- A dataset is added before a restart and another one after it. -/
def reopened : Registry :=
  let before := (Registry.empty.add "courses" .sections
    [passedBy (.ofInt 40)]).2
  ((before.serve .restart).2.add "fall" .sections
    [passedBy (.ofInt 41), passedBy (.ofInt 42)]).2

/-- Only the second one is loaded, and both are listed once. -/
theorem integrity_reopened :
    reopened.Reachable ∧ reopened.shelf.ids = ["fall"] ∧
    ∃ infos, reopened.list = .ok infos ∧
      (infos.map (·.id)).Perm ["courses", "fall"] := by
  have hreachable : reopened.Reachable :=
    .added _ _ _ (.served .restart (.added _ _ _ .empty))
  have hrows : reopened.storage.rows.map (·.id) = ["courses", "fall"] := by
    decide +kernel
  obtain ⟨-, -, infos, -, hlist, -, -, hids, -⟩ := Reachable.integrity hreachable
  exact ⟨hreachable, by decide +kernel, infos, hlist, hrows ▸ hids⟩

end Registry

end CampusQuery
