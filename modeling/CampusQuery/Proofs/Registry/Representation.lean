/-
CampusQuery.Proofs.Registry.Representation — registries and catalogues.

`Represents` ties a registry to a catalogue: both the shelf and storage hold
only what the catalogue holds, storage holds all of it, and every record can
be restored. What the registry finds, lists and restores is then what the
catalogue holds, and loading, adding, removing and restarting keep this up.
-/
import Mathlib.Data.List.Nodup
import CampusQuery.Proofs.Registry.Catalogue
import CampusQuery.Proofs.Registry.Durability

namespace CampusQuery

open Outcome

/-! ## Catalogues -/

namespace Catalogue

variable {catalogue : Catalogue} {id : String}

theorem dataset?_eq_some {dataset : Dataset} :
    catalogue.dataset? id = some dataset ↔
      dataset.id = id ∧ catalogue id = some ⟨dataset.kind, dataset.records⟩ := by
  rw [dataset?, Option.map_eq_some_iff]
  constructor
  · rintro ⟨⟨kind, records⟩, hentry, rfl⟩
    exact ⟨rfl, hentry⟩
  · rintro ⟨rfl, hentry⟩
    exact ⟨_, hentry, rfl⟩

theorem dataset?_insert_self (entry : Entry) :
    (catalogue.insert id entry).dataset? id = some (entry.dataset id) := by
  rw [dataset?, insert, if_pos rfl]
  rfl

theorem dataset?_insert_of_ne (entry : Entry) {other : String}
    (h : other ≠ id) :
    (catalogue.insert id entry).dataset? other = catalogue.dataset? other := by
  rw [dataset?, insert, if_neg h]
  rfl

theorem dataset?_erase_self : (catalogue.erase id).dataset? id = none := by
  rw [dataset?, erase, if_pos rfl]
  rfl

theorem dataset?_erase_of_ne {other : String} (h : other ≠ id) :
    (catalogue.erase id).dataset? other = catalogue.dataset? other := by
  rw [dataset?, erase, if_neg h]
  rfl

/-- What is left after an entry is erased was there before under another
id. -/
theorem dataset?_erase_eq_some {other : String} {dataset : Dataset}
    (h : (catalogue.erase id).dataset? other = some dataset) :
    other ≠ id ∧ catalogue.dataset? other = some dataset := by
  have hne : other ≠ id := by
    rintro rfl
    rw [dataset?_erase_self] at h
    cases h
  exact ⟨hne, dataset?_erase_of_ne hne ▸ h⟩

end Catalogue

/-! ## Shelves -/

namespace Shelf

variable {shelf : Shelf} {dataset : Dataset}

/-- A dataset under a new id is put behind the others. -/
theorem keep_eq (h : shelf.get? dataset.id = none) :
    (shelf.keep dataset).datasets = shelf.datasets ++ [dataset] := by
  have hput : ∀ datasets : List Dataset,
      (∀ kept ∈ datasets, kept.id ≠ dataset.id) →
      put dataset datasets = datasets ++ [dataset] := by
    intro datasets
    induction datasets with
    | nil => intro _; rfl
    | cons kept rest ih =>
      intro hne
      rw [List.forall_mem_cons] at hne
      rw [put, if_neg hne.1, ih hne.2, List.cons_append]
  exact hput _ (by simpa [get?] using h)

theorem mem_keep (h : shelf.get? dataset.id = none) {kept : Dataset} :
    kept ∈ (shelf.keep dataset).datasets ↔
      kept ∈ shelf.datasets ∨ kept = dataset := by
  rw [keep_eq h, List.mem_append, List.mem_singleton]

theorem nodup_keep (h : shelf.get? dataset.id = none)
    (hnodup : (shelf.datasets.map (·.id)).Nodup) :
    ((shelf.keep dataset).datasets.map (·.id)).Nodup := by
  have hnew : dataset.id ∉ shelf.datasets.map (·.id) := by
    simpa [get?] using h
  rw [keep_eq h, List.map_append, List.map_singleton,
    List.nodup_append_comm]
  exact List.nodup_cons.mpr ⟨hnew, hnodup⟩

end Shelf

/-! ## The invariant -/

/-- The registry holds the datasets of the catalogue, all of them stored and
some of them loaded. -/
structure Registry.Represents (registry : Registry) (catalogue : Catalogue) :
    Prop where
  shelf_nodup : (registry.shelf.datasets.map (·.id)).Nodup
  shelf_mapped : ∀ dataset ∈ registry.shelf.datasets,
    catalogue.dataset? dataset.id = some dataset
  rows_nodup : (registry.storage.rows.map (·.id)).Nodup
  rows_mapped : ∀ row ∈ registry.storage.rows, ∃ dataset tick,
    row = Storage.rowOf dataset (Timestamp.ofTick tick) ∧
      catalogue.dataset? dataset.id = some dataset
  mapped_stored : ∀ id dataset, catalogue.dataset? id = some dataset →
    ∃ row ∈ registry.storage.rows, row.id = id
  mapped_durable : ∀ id dataset, catalogue.dataset? id = some dataset →
    ∀ record ∈ dataset.records,
      record.kind = dataset.kind ∧ record.IsDurable

namespace Registry

variable {registry : Registry} {catalogue : Catalogue}

theorem represents_empty : Registry.empty.Represents .empty where
  shelf_nodup := List.nodup_nil
  shelf_mapped := by simp [Registry.empty, Shelf.empty]
  rows_nodup := List.nodup_nil
  rows_mapped := by simp [Registry.empty, Storage.empty]
  mapped_stored := by simp [Catalogue.dataset?, Catalogue.empty]
  mapped_durable := by simp [Catalogue.dataset?, Catalogue.empty]

namespace Represents

/-! ## Looking up -/

/-- What is on the shelf is in the catalogue. -/
theorem get?_eq_some (h : registry.Represents catalogue) {id : String}
    {dataset : Dataset} (hget : registry.shelf.get? id = some dataset) :
    catalogue.dataset? id = some dataset := by
  have hmem := List.mem_of_find?_eq_some hget
  have hid : dataset.id = id := by simpa using List.find?_some hget
  exact hid ▸ h.shelf_mapped dataset hmem

/-- Storage has a row for every dataset of the catalogue, and for no other. -/
theorem find?_storage (h : registry.Represents catalogue) (id : String) :
    (catalogue.dataset? id = none ∧ registry.storage.find? id = none) ∨
    ∃ dataset tick, catalogue.dataset? id = some dataset ∧
      registry.storage.find? id =
        some (Storage.rowOf dataset (Timestamp.ofTick tick)) := by
  cases hfind : registry.storage.find? id with
  | none =>
    refine .inl ⟨?_, rfl⟩
    cases hdataset : catalogue.dataset? id with
    | none => rfl
    | some dataset =>
      obtain ⟨row, hrow, hid⟩ := h.mapped_stored id dataset hdataset
      have := List.find?_eq_none.mp hfind row hrow
      simp [hid] at this
  | some row =>
    have hid : row.id = id := by simpa using List.find?_some hfind
    obtain ⟨dataset, tick, rfl, hdataset⟩ :=
      h.rows_mapped row (List.mem_of_find?_eq_some hfind)
    exact .inr ⟨dataset, tick, hid ▸ hdataset, rfl⟩

/-- The registry has the ids of the catalogue. -/
theorem contains_iff (h : registry.Represents catalogue) (id : String) :
    registry.contains id = true ↔ ∃ dataset, catalogue.dataset? id = some dataset := by
  rw [contains, Bool.or_eq_true, Shelf.contains, Storage.contains,
    Option.isSome_iff_exists]
  rcases h.find?_storage id with ⟨hnone, hfind⟩ | ⟨dataset, tick, hsome, hfind⟩
  · simp only [hnone, hfind, Option.isSome_none, Bool.false_eq_true, or_false,
      reduceCtorEq, exists_false, iff_false, not_exists]
    intro dataset hget
    rw [h.get?_eq_some hget] at hnone
    cases hnone
  · simp [hsome, hfind]

/-- What is restored is what the catalogue holds. -/
theorem restore_eq (h : registry.Represents catalogue) (id : String) :
    registry.storage.restore id = .ok (catalogue.dataset? id) := by
  unfold Storage.restore
  rcases h.find?_storage id with ⟨hnone, hfind⟩ | ⟨dataset, tick, hsome, hfind⟩
  · rw [hnone, hfind]
    rfl
  · have hrecords := h.mapped_durable id dataset hsome
    have hrow := (Storage.restoreRow_rowOf_eq_ok
      (Timestamp.isValid_ofTick tick) fun record hrecord =>
        (hrecords record hrecord).1).mpr fun record hrecord =>
          (hrecords record hrecord).2
    rw [hsome, hfind, Option.mapM_some, hrow]
    rfl

/-! ## Loading -/

/-- A dataset of the catalogue may be put on the shelf. -/
theorem keep (h : registry.Represents catalogue) {dataset : Dataset}
    (hmapped : catalogue.dataset? dataset.id = some dataset)
    (hnew : registry.shelf.get? dataset.id = none) :
    Represents ⟨registry.shelf.keep dataset, registry.storage⟩ catalogue where
  shelf_nodup := Shelf.nodup_keep hnew h.shelf_nodup
  shelf_mapped kept hkept := by
    rcases (Shelf.mem_keep hnew).mp hkept with hold | rfl
    · exact h.shelf_mapped kept hold
    · exact hmapped
  rows_nodup := h.rows_nodup
  rows_mapped := h.rows_mapped
  mapped_stored := h.mapped_stored
  mapped_durable := h.mapped_durable

/-- Asking for a dataset gives the one of the catalogue, loaded or not. -/
theorem resolve (h : registry.Represents catalogue) (id : String) :
    (registry.resolve id).1 = .ok (catalogue.dataset? id) ∧
      (registry.resolve id).2.Represents catalogue := by
  unfold Registry.resolve
  cases hget : registry.shelf.get? id with
  | some dataset => exact ⟨congrArg _ (h.get?_eq_some hget).symm, h⟩
  | none =>
    rw [h.restore_eq id]
    cases hmapped : catalogue.dataset? id with
    | none => exact ⟨rfl, h⟩
    | some dataset =>
      obtain ⟨rfl, -⟩ := Catalogue.dataset?_eq_some.mp hmapped
      exact ⟨rfl, h.keep hmapped hget⟩

/-- A restart leaves storage as it is. -/
theorem restart (h : registry.Represents catalogue) :
    registry.restart.Represents catalogue where
  shelf_nodup := List.nodup_nil
  shelf_mapped := by simp [Registry.restart, Shelf.empty]
  rows_nodup := h.rows_nodup
  rows_mapped := h.rows_mapped
  mapped_stored := h.mapped_stored
  mapped_durable := h.mapped_durable

/-! ## Queries -/

/-- A query is answered from the catalogue. -/
theorem query (h : registry.Represents catalogue) (raw : Json) :
    (registry.query raw).1 = catalogue.answer raw ∧
      (registry.query raw).2.Represents catalogue := by
  have hsource : registry.source = fun id => .ok (catalogue.dataset? id) :=
    funext fun id => (h.resolve id).1
  constructor
  · change Query.perform registry.source raw = _
    rw [hsource]
    unfold Query.perform Query.validate Catalogue.answer
    cases Query.boundDataset raw with
    | error e => rfl
    | ok id =>
      simp only [Catalogue.dataset?, bind, Except.bind]
      cases catalogue id with
      | none => rfl
      | some entry =>
        simp only [Option.map_some, Query.settle, Entry.dataset]
        cases Query.read id entry.kind raw <;> rfl
  · change (registry.afterBinding raw).Represents catalogue
    unfold afterBinding
    split
    · exact h
    · exact (h.resolve _).2

/-! ## Listing -/

/-- The entries of all stored datasets list the catalogue. -/
theorem infos (h : registry.Represents catalogue) :
    ∃ stored, registry.storage.infos = .ok stored ∧
      catalogue.Lists stored := by
  have hperm := List.mergeSort_perm registry.storage.rows Storage.addedBefore
  set rows := registry.storage.rows.mergeSort Storage.addedBefore
  have hrow : ∀ row ∈ rows, ∃ info, Storage.rowInfo row = .ok (some info) ∧
      info.id = row.id ∧ ∃ dataset,
        catalogue.dataset? info.id = some dataset ∧ info = dataset.info := by
    intro row hrow
    obtain ⟨dataset, tick, rfl, hmapped⟩ :=
      h.rows_mapped row (hperm.mem_iff.mp hrow)
    exact ⟨dataset.info, Storage.rowInfo_rowOf _ _, rfl, dataset, hmapped, rfl⟩
  obtain ⟨stored, hstored⟩ := exists_forall₂ hrow
  have hids : stored.map (·.id) = rows.map (·.id) := by
    rw [← List.forall₂_eq_eq_eq, List.forall₂_map_left_iff,
      List.forall₂_map_right_iff]
    exact (hstored.imp fun _ _ hinfo => hinfo.2.1).flip
  refine ⟨stored, ?_, ?_, ?_⟩
  · have hread : rows.mapM Storage.rowInfo = .ok (stored.map some) := by
      rw [mapM_eq_ok, List.forall₂_map_right_iff]
      exact hstored.imp fun _ _ hinfo => hinfo.1
    change (rows.mapM Storage.rowInfo >>= _) = _
    rw [hread]
    simp [bind, Except.bind]
  · rw [hids, (hperm.map _).nodup_iff]
    exact h.rows_nodup
  · intro info
    constructor
    · intro hinfo
      obtain ⟨row, -, -, -, hmapped⟩ := exists_of_forall₂ hstored.flip hinfo
      exact hmapped
    · rintro ⟨dataset, hmapped, heq⟩
      obtain ⟨row, hrow, hid⟩ := h.mapped_stored _ _ hmapped
      obtain ⟨other, hother, -, hsame, found, hfound, rfl⟩ :=
        exists_of_forall₂ hstored (hperm.mem_iff.mpr hrow)
      rw [hsame, hid, hmapped, Option.some.injEq] at hfound
      rwa [heq, hfound]

/-- The registry lists what the catalogue holds. -/
theorem list (h : registry.Represents catalogue) :
    ∃ infos, registry.list = .ok infos ∧ catalogue.Lists infos := by
  obtain ⟨stored, hstored, hnodup, hmem⟩ := h.infos
  set loaded := registry.shelf.datasets.map Dataset.info with hloaded
  refine ⟨loaded ++ stored.filter fun info => loaded.all (·.id ≠ info.id),
    ?_, ?_, ?_⟩
  · unfold Registry.list
    rw [hstored]
    rfl
  · rw [List.map_append, List.nodup_append]
    refine ⟨?_, ?_, ?_⟩
    · rw [hloaded, List.map_map]
      exact h.shelf_nodup
    · exact hnodup.sublist (List.filter_sublist.map _)
    · intro id hid other hother
      obtain ⟨info, hinfo, rfl⟩ := List.mem_map.mp hid
      obtain ⟨kept, hkept, rfl⟩ := List.mem_map.mp hother
      have hall := (List.mem_filter.mp hkept).2
      simpa using List.all_eq_true.mp hall info hinfo
  · intro info
    rw [List.mem_append, List.mem_filter, hmem]
    constructor
    · rintro (hon | ⟨hmapped, -⟩)
      · obtain ⟨dataset, hdataset, rfl⟩ := List.mem_map.mp hon
        exact ⟨dataset, h.shelf_mapped dataset hdataset, rfl⟩
      · exact hmapped
    · rintro ⟨dataset, hmapped, heq⟩
      by_cases hon : loaded.all (·.id ≠ info.id)
      · exact .inr ⟨⟨dataset, hmapped, heq⟩, hon⟩
      · simp only [List.all_eq_true, not_forall] at hon
        obtain ⟨other, hother, hsame⟩ := hon
        obtain ⟨kept, hkept, rfl⟩ := List.mem_map.mp hother
        have hid : kept.id = info.id :=
          Classical.not_not.mp fun hne => hsame (decide_eq_true hne)
        have hkeptMapped := h.shelf_mapped kept hkept
        rw [hid, hmapped, Option.some.injEq] at hkeptMapped
        exact .inl (heq ▸ hkeptMapped ▸ hother)

/-! ## Adding -/

/-- A dataset under a new id may be added, if all its records are durable. -/
theorem persist (h : registry.Represents catalogue) {id : String}
    {kind : Kind} {records : List Record}
    (hnew : registry.contains id = false)
    (hrecords : ∀ record ∈ records, record.kind = kind ∧ record.IsDurable) :
    Represents
      ⟨registry.shelf.keep ⟨id, kind, records⟩,
        (registry.storage.persist ⟨id, kind, records⟩).2⟩
      (catalogue.insert id ⟨kind, records⟩) := by
  obtain ⟨hshelf, hstored⟩ := Bool.or_eq_false_iff.mp hnew
  have hget : registry.shelf.get? id = none := by
    simpa [Shelf.contains] using hshelf
  have hrows := @Storage.rows_persist _ ⟨id, kind, records⟩ hstored
  have hrowsNew : ∀ row ∈ registry.storage.rows, row.id ≠ id := by
    simpa [Storage.find?] using
      @Storage.find?_eq_none _ ⟨id, kind, records⟩ hstored
  have hshelfNew : ∀ kept ∈ registry.shelf.datasets, kept.id ≠ id := by
    simpa [Shelf.get?] using hget
  have hself := @Catalogue.dataset?_insert_self catalogue id ⟨kind, records⟩
  have hother : ∀ other : String, other ≠ id →
      (catalogue.insert id ⟨kind, records⟩).dataset? other
        = catalogue.dataset? other :=
    fun _ hne => Catalogue.dataset?_insert_of_ne _ hne
  constructor
  case shelf_nodup => exact Shelf.nodup_keep hget h.shelf_nodup
  case shelf_mapped =>
    intro kept hkept
    rcases (Shelf.mem_keep hget).mp hkept with hold | rfl
    · rw [hother _ (hshelfNew kept hold)]
      exact h.shelf_mapped kept hold
    · exact hself
  case rows_nodup =>
    rw [hrows, List.map_append, List.map_singleton, List.nodup_append_comm]
    refine List.nodup_cons.mpr ⟨?_, h.rows_nodup⟩
    intro hmem
    obtain ⟨row, hrow, hid⟩ := List.mem_map.mp hmem
    exact hrowsNew row hrow hid
  case rows_mapped =>
    intro row hrow
    rw [hrows, List.mem_append, List.mem_singleton] at hrow
    rcases hrow with hold | rfl
    · obtain ⟨dataset, tick, rfl, hmapped⟩ := h.rows_mapped row hold
      have hne : dataset.id ≠ id := hrowsNew _ hold
      exact ⟨dataset, tick, rfl, by rwa [hother _ hne]⟩
    · exact ⟨_, _, rfl, hself⟩
  case mapped_stored =>
    intro other dataset hmapped
    rw [hrows]
    by_cases hsame : other = id
    · exact ⟨_, List.mem_append_right _ List.mem_cons_self, hsame.symm⟩
    · rw [hother _ hsame] at hmapped
      obtain ⟨row, hrow, hid⟩ := h.mapped_stored other dataset hmapped
      exact ⟨row, List.mem_append_left _ hrow, hid⟩
  case mapped_durable =>
    intro other dataset hmapped
    by_cases hsame : other = id
    · rw [hsame, hself, Option.some.injEq] at hmapped
      subst hmapped
      exact hrecords
    · rw [hother _ hsame] at hmapped
      exact h.mapped_durable other dataset hmapped

/-! ## Removing -/

/-- A dataset may be removed. -/
theorem erase (h : registry.Represents catalogue) (id : String) :
    Represents ⟨registry.shelf.release id, (registry.storage.forget id).2⟩
      (catalogue.erase id) := by
  constructor
  case shelf_nodup =>
    exact h.shelf_nodup.sublist (List.filter_sublist.map _)
  case shelf_mapped =>
    intro kept hkept
    obtain ⟨hold, hne⟩ := List.mem_filter.mp hkept
    rw [Catalogue.dataset?_erase_of_ne (by simpa using hne)]
    exact h.shelf_mapped kept hold
  case rows_nodup =>
    exact h.rows_nodup.sublist (List.filter_sublist.map _)
  case rows_mapped =>
    intro row hrow
    obtain ⟨hold, hne⟩ := List.mem_filter.mp hrow
    obtain ⟨dataset, tick, rfl, hdataset⟩ := h.rows_mapped row hold
    have hid : dataset.id ≠ id := of_decide_eq_true hne
    exact ⟨dataset, tick, rfl,
      (Catalogue.dataset?_erase_of_ne hid).trans hdataset⟩
  case mapped_stored =>
    intro other dataset hleft
    obtain ⟨hne, hdataset⟩ := Catalogue.dataset?_erase_eq_some hleft
    obtain ⟨row, hrow, rfl⟩ := h.mapped_stored other dataset hdataset
    exact ⟨row, List.mem_filter.mpr ⟨hrow, by simpa using hne⟩, rfl⟩
  case mapped_durable =>
    intro other dataset hleft
    exact h.mapped_durable other dataset
      (Catalogue.dataset?_erase_eq_some hleft).2

end Represents

end Registry

end CampusQuery
