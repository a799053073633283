/-
CampusQuery.Proofs.Registry.Listing — listings before and after a query.

A query may load its dataset, even one that is then refused (`Registry.Loads`).
The dataset is put behind those that are loaded already, and a listing shows
all loaded datasets first. So the listing keeps its entries but not their
order: the entry of the dataset moves ahead of all that are only stored
(`Registry.Coherent.list_keep`). Nothing moves exactly if nothing is loaded or
no such entry was ahead of it (`Registry.Reachable.list_after_query`).
-/
import CampusQuery.Proofs.Registry.Integrity
import CampusQuery.Proofs.Registry.Restoration

namespace CampusQuery

open Outcome

/-! ## Lists without repeated ids -/

/-- Of entries with different ids, leaving out an id leaves out one entry. -/
theorem filter_id_ne_of_mem {infos : List DatasetInfo}
    (hnodup : (infos.map (·.id)).Nodup) {info : DatasetInfo}
    (hinfo : info ∈ infos) :
    ∃ ahead behind, infos = ahead ++ info :: behind ∧
      infos.filter (·.id ≠ info.id) = ahead ++ behind := by
  obtain ⟨ahead, behind, rfl⟩ := List.append_of_mem hinfo
  refine ⟨ahead, behind, rfl, ?_⟩
  rw [List.map_append, List.map_cons] at hnodup
  have hids := List.nodup_middle.mp hnodup
  rw [List.nodup_cons, ← List.map_append] at hids
  have hkept : (ahead ++ behind).filter (·.id ≠ info.id) = ahead ++ behind := by
    refine List.filter_eq_self.mpr fun other hother => ?_
    have hne : other.id ≠ info.id := fun h =>
      hids.1 (h ▸ List.mem_map_of_mem hother)
    simpa using hne
  rw [List.filter_append] at hkept ⊢
  simpa using hkept

/-- Moving a member ahead changes a list without repetitions unless it was
ahead already. -/
theorem cons_append_eq_append_cons {α : Type} {x : α} {ahead behind : List α}
    (hnodup : (ahead ++ x :: behind).Nodup) :
    x :: (ahead ++ behind) = ahead ++ x :: behind ↔ ahead = [] := by
  cases ahead with
  | nil => simp
  | cons first rest =>
    have hne : x ≠ first := by
      rintro rfl
      simp at hnodup
    simp [hne]

namespace Registry

variable {registry : Registry} {raw : Json} {dataset : Dataset}

/-! ## Loading -/

def Loads (registry : Registry) (raw : Json) (dataset : Dataset) : Prop :=
  ∃ id, Query.boundDataset raw = .ok id ∧ registry.shelf.get? id = none ∧
    registry.storage.restore id = .ok (some dataset)

/-- A dataset that is loaded has not been on the shelf under its id. -/
theorem Loads.get?_eq_none (h : registry.Loads raw dataset) :
    registry.shelf.get? dataset.id = none := by
  obtain ⟨id, -, hnew, hrestore⟩ := h
  obtain ⟨row, -, hid, hrow⟩ := Storage.restore_eq_some.mp hrestore
  cases Storage.restoreRow_eq_ok.mp hrow with
  | intro => exact hid ▸ hnew

/-- A query loads one dataset at most. -/
theorem Loads.unique {other : Dataset} (h : registry.Loads raw dataset)
    (hother : registry.Loads raw other) : other = dataset := by
  obtain ⟨id, hbound, -, hrestore⟩ := h
  obtain ⟨id', hbound', -, hrestore'⟩ := hother
  obtain rfl := Except.ok.inj (hbound.symm.trans hbound')
  exact Option.some.inj (Except.ok.inj (hrestore'.symm.trans hrestore))

theorem Loads.afterBinding_eq (h : registry.Loads raw dataset) :
    registry.afterBinding raw
      = ⟨registry.shelf.keep dataset, registry.storage⟩ := by
  obtain ⟨id, hbound, hnew, hrestore⟩ := h
  simp [afterBinding, resolve, hbound, hnew, hrestore]

/-- The query is answered from the dataset that it loads. -/
theorem Loads.query_fst (h : registry.Loads raw dataset) :
    (registry.query raw).1
      = Query.read dataset.id dataset.kind raw >>= (·.run dataset) := by
  obtain ⟨id, hbound, hnew, hrestore⟩ := h
  have hsource : registry.source id = .ok (some dataset) := by
    simp [source, resolve, hnew, hrestore]
  simp only [query, Query.perform, Query.validate, hbound, hsource,
    Query.settle, bind, Except.bind]
  cases Query.read dataset.id dataset.kind raw <;> rfl

theorem afterBinding_of_not_loads (h : ∀ dataset, ¬registry.Loads raw dataset) :
    registry.afterBinding raw = registry := by
  unfold afterBinding
  cases hbound : Query.boundDataset raw with
  | error e => rfl
  | ok id =>
    simp only [resolve]
    cases hget : registry.shelf.get? id with
    | some dataset => rfl
    | none =>
      cases hrestore : registry.storage.restore id with
      | error e => rfl
      | ok found =>
        cases found with
        | none => rfl
        | some dataset => exact absurd ⟨id, hbound, hget, hrestore⟩ (h dataset)

/-! ## Listings -/

def loaded (registry : Registry) : List DatasetInfo :=
  registry.shelf.datasets.map Dataset.info

/-- A dataset that is put on the shelf moves ahead of what is only stored. -/
theorem Coherent.list_keep (h : registry.Coherent)
    (hnew : registry.shelf.get? dataset.id = none)
    (hstored : ∃ row ∈ registry.storage.rows, row.Shows dataset.info) :
    ∃ ahead behind,
      registry.list
        = .ok (registry.loaded ++ (ahead ++ dataset.info :: behind)) ∧
      Registry.list ⟨registry.shelf.keep dataset, registry.storage⟩
        = .ok (registry.loaded ++ dataset.info :: (ahead ++ behind)) ∧
      ((ahead ++ dataset.info :: behind).map (·.id)).Nodup := by
  obtain ⟨stored, hinfos, hids, hmem⟩ := h.infos
  have hnodup := hids.nodup_iff.mpr h.rows_nodup
  have hne : ∀ kept ∈ registry.shelf.datasets, kept.id ≠ dataset.id := by
    simpa [Shelf.get?] using hnew
  have hunloaded : registry.loaded.all (·.id ≠ dataset.info.id) := by
    rw [loaded, List.all_map, List.all_eq_true]
    exact fun kept hkept => decide_eq_true (hne kept hkept)
  have hthere : dataset.info ∈ stored.filter fun info =>
      registry.loaded.all (·.id ≠ info.id) :=
    List.mem_filter.mpr ⟨(hmem _).mpr hstored, hunloaded⟩
  have hrest : ((stored.filter fun info =>
      registry.loaded.all (·.id ≠ info.id)).map (·.id)).Nodup :=
    hnodup.sublist (List.filter_sublist.map _)
  -- Once the dataset is loaded its entry is left out of the stored ones.
  obtain ⟨ahead, behind, hsplit, hleft⟩ := filter_id_ne_of_mem hrest hthere
  refine ⟨ahead, behind, ?_, ?_, hsplit ▸ hrest⟩
  · rw [← hsplit]
    simp [Registry.list, hinfos, loaded]
  · rw [← hleft, List.filter_filter]
    simp [Registry.list, hinfos, loaded, Shelf.keep_eq hnew,
      Bool.and_comm, eq_comm]

/-- In every registry that can be reached, a query leaves the entries of the
listing as they are. If it loads no dataset then it leaves the whole registry
as it is. If it loads one then the entry of that dataset moves ahead of all that
are only stored, so that the listing and the ids are as before exactly if the
entry was the first of these. -/
theorem Reachable.list_after_query (h : registry.Reachable) (raw : Json) :
    ∃ infos after, registry.list = .ok infos ∧
      (registry.query raw).2.list = .ok after ∧ after.Perm infos ∧
      ((∀ dataset, ¬registry.Loads raw dataset) →
        (registry.query raw).2 = registry) ∧
      ∀ dataset, registry.Loads raw dataset → ∃ ahead behind,
        infos = registry.loaded ++ (ahead ++ dataset.info :: behind) ∧
        after = registry.loaded ++ dataset.info :: (ahead ++ behind) ∧
        (after = infos ↔ ahead = []) ∧
        ((registry.query raw).2.ids = registry.ids ↔ ahead = []) := by
  have hquery : (registry.query raw).2 = registry.afterBinding raw := rfl
  rw [hquery]
  by_cases hloads : ∃ dataset, registry.Loads raw dataset
  · obtain ⟨dataset, hloads⟩ := hloads
    have hnew := hloads.get?_eq_none
    have hafter := h.coherent.afterBinding raw
    rw [hloads.afterBinding_eq] at hafter ⊢
    have hstored := hafter.shelf_stored dataset
      ((Shelf.mem_keep hnew).mpr (.inr rfl))
    obtain ⟨ahead, behind, hlist, hlistAfter, hnodup⟩ :=
      h.coherent.list_keep hnew hstored
    refine ⟨_, _, hlist, hlistAfter, List.perm_middle.symm.append_left _,
      fun hnone => absurd hloads (hnone dataset), fun other hother => ?_⟩
    obtain rfl := hloads.unique hother
    refine ⟨ahead, behind, rfl, rfl, ?_, ?_⟩
    · rw [List.append_cancel_left_eq,
        cons_append_eq_append_cons (.of_map _ hnodup)]
    · rw [List.map_append, List.map_cons] at hnodup
      simp [ids, hlist, hlistAfter, cons_append_eq_append_cons hnodup]
  · have hnone : ∀ dataset, ¬registry.Loads raw dataset :=
      fun dataset hdataset => hloads ⟨dataset, hdataset⟩
    obtain ⟨-, infos, -, hlist, -⟩ := h.coherent.list
    rw [afterBinding_of_not_loads hnone]
    exact ⟨infos, infos, hlist, hlist, .refl _, fun _ => rfl,
      fun dataset hdataset => absurd hdataset (hnone dataset)⟩

def oneSection (id : String) (pass : Numeric.Binary64) : Dataset :=
  ⟨id, .sections, [passedBy pass]⟩

/-- Two datasets after a restart, the one of the courses added first. -/
def twoTerms : Registry :=
  let courses := (Registry.empty.add "courses" .sections
    [passedBy (.ofInt 40)]).2
  (courses.add "fall" .sections [passedBy (.ofInt 41)]).2.restart

/-- A query about the second one, refused for having no filters. -/
def noFilters : Json :=
  .object [("WHERE", .object [("AND", .array [])]),
    ("OPTIONS", .object [("COLUMNS", .array [.string "fall_uuid"])])]

theorem rows_twoTerms : twoTerms.storage.rows =
    [Storage.rowOf (oneSection "courses" (.ofInt 40)) (Timestamp.ofTick 0),
      Storage.rowOf (oneSection "fall" (.ofInt 41)) (Timestamp.ofTick 1)] :=
  rfl

/-- The courses are listed first. -/
theorem list_twoTerms :
    twoTerms.list = .ok [(oneSection "courses" (.ofInt 40)).info,
      (oneSection "fall" (.ofInt 41)).info] := by
  have hsorted : twoTerms.storage.rows.Pairwise
      fun a b => Storage.addedBefore a b := by
    rw [rows_twoTerms, List.pairwise_pair]
    decide +kernel
  have hinfos : twoTerms.storage.infos
      = .ok [(oneSection "courses" (.ofInt 40)).info,
        (oneSection "fall" (.ofInt 41)).info] := by
    rw [Storage.infos, List.mergeSort_of_pairwise hsorted, rows_twoTerms]
    simp [Storage.rowInfo_rowOf, pure, Except.pure, bind, Except.bind]
  rw [Registry.list, hinfos]
  rfl

theorem loads_twoTerms :
    twoTerms.Loads noFilters (oneSection "fall" (.ofInt 41)) := by
  refine ⟨"fall", by decide +kernel, rfl, ?_⟩
  have hrestored : Storage.restoreRow (Storage.rowOf
      (oneSection "fall" (.ofInt 41)) (Timestamp.ofTick 1))
      = .ok (oneSection "fall" (.ofInt 41)) :=
    (Storage.restoreRow_rowOf_eq_ok (Timestamp.isValid_ofTick 1)
      (by simp [oneSection, passedBy, Record.kind])).mpr (by decide +kernel)
  have hfind : twoTerms.storage.find? "fall" = some (Storage.rowOf
      (oneSection "fall" (.ofInt 41)) (Timestamp.ofTick 1)) := by
    rw [Storage.find?, rows_twoTerms]
    rfl
  exact Storage.restore_eq_some.mpr ⟨_, hfind, rfl, hrestored⟩

/-- The refused query loads its dataset, which is listed first from then
on. -/
theorem list_after_query_twoTerms :
    twoTerms.Reachable ∧ twoTerms.ids = .ok ["courses", "fall"] ∧
      (∃ cause, (twoTerms.query noFilters).1 = .error (.invalid cause)) ∧
      (twoTerms.query noFilters).2.ids = .ok ["fall", "courses"] := by
  have hreachable : twoTerms.Reachable :=
    .served .restart (.added _ _ _ (.added _ _ _ .empty))
  obtain ⟨infos, after, hlist, hafter, -, -, hmoved⟩ :=
    Reachable.list_after_query hreachable noFilters
  obtain ⟨ahead, behind, rfl, rfl, -, -⟩ := hmoved _ loads_twoTerms
  have hentries : ahead ++ (oneSection "fall" (.ofInt 41)).info :: behind
      = [(oneSection "courses" (.ofInt 40)).info,
        (oneSection "fall" (.ofInt 41)).info] :=
    Except.ok.inj (hlist.symm.trans list_twoTerms)
  obtain ⟨cause, hrefused⟩ : ∃ cause,
      Query.read "fall" .sections noFilters = .error (.invalid cause) :=
    ⟨_, rfl⟩
  refine ⟨hreachable, ?_, ⟨cause, ?_⟩, ?_⟩
  · rw [ids, list_twoTerms]
    rfl
  · have hread := congrArg (· >>= (·.run (oneSection "fall" (.ofInt 41))))
      hrefused
    exact loads_twoTerms.query_fst.trans hread
  · rw [ids, hafter]
    rcases ahead with _ | ⟨first, _ | ⟨second, rest⟩⟩
    · exact absurd (List.cons.inj hentries).1 (by decide)
    · obtain ⟨rfl, hbehind⟩ := List.cons.inj hentries
      obtain ⟨-, rfl⟩ := List.cons.inj hbehind
      rfl
    · simp at hentries

end Registry

end CampusQuery
