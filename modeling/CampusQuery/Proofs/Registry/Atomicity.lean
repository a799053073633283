/-
CampusQuery.Proofs.Registry.Atomicity — what a failed request leaves behind.

Up to the first change a request that fails leaves the registry as it was.
Nothing is undone, so a later failure shows: a dataset whose row has been
inserted stays added, though adding it is reported as failed
(`Registry.AddedDespite`), and one that cannot be deleted from storage is off
the shelf all the same. These are all cases there are, whichever step fails and
whatever the registry holds (`Registry.unchanged_unless_late`). If no step
fails and no row was altered then nothing is reported as failed so late
(`Registry.Reachable.unchanged_of_error`).
-/
import CampusQuery.Proofs.Registry.Integrity
import CampusQuery.Proofs.Registry.Restoration
import CampusQuery.Registry.Failure

namespace CampusQuery

open Outcome

variable {gate : Gate} {e : Error}

/-! ## With every step let through -/

/-- Storing in steps changes what storing at once does. -/
theorem Storage.persist_of_persistThrough {storage : Storage}
    {dataset : Dataset} {result : Bool × Storage}
    (h : storage.persistThrough gate dataset = .ok result) :
    storage.persist dataset = result := by
  unfold persistThrough at h
  obtain ⟨-, -, h⟩ := bind_eq_ok.mp h
  by_cases hstored : storage.contains dataset.id
  · rw [if_pos hstored, pure_eq_ok] at h
    rw [persist, if_pos hstored, h]
  · rw [if_neg hstored] at h
    obtain ⟨-, -, h⟩ := bind_eq_ok.mp h
    exact pure_eq_ok.mp h

theorem Storage.persistThrough_clear (storage : Storage) (dataset : Dataset) :
    storage.persistThrough .clear dataset = .ok (storage.persist dataset) := by
  by_cases hstored : storage.contains dataset.id <;>
    simp [persistThrough, persist, hstored, Gate.clear, bind, Except.bind,
      pure, Except.pure]

namespace Registry

variable {registry : Registry} {id : String} {kind : Kind}
  {records : List Record} {content : Json}

/-- What is prepared in steps is the dataset of the records. -/
theorem eq_of_prepareThrough {dataset : Dataset}
    (h : registry.prepareThrough gate id kind records = .ok dataset) :
    dataset = ⟨id, kind, records⟩ := by
  unfold prepareThrough at h
  obtain ⟨-, -, h⟩ := bind_eq_ok.mp h
  obtain ⟨taken, -, h⟩ := bind_eq_ok.mp h
  obtain ⟨-, hmade⟩ := ite_refuse_eq_ok.mp h
  exact (Dataset.ofRecords_eq_ok.mp hmade).2.2.2

theorem prepareThrough_clear (registry : Registry) (id : String) (kind : Kind)
    (records : List Record) :
    registry.prepareThrough .clear id kind records
      = registry.prepare id kind records := by
  have hcontains : registry.containsThrough .clear id
      = .ok (registry.contains id) := by
    by_cases hloaded : registry.shelf.contains id <;>
      simp [containsThrough, contains, hloaded, Gate.clear, bind, Except.bind,
        pure, Except.pure]
  simp [prepareThrough, prepare, hcontains, bind, Except.bind]

theorem addThrough_clear (registry : Registry) (id : String) (kind : Kind)
    (records : List Record) :
    registry.addThrough .clear id kind records
      = registry.add id kind records := by
  unfold addThrough add
  rw [prepareThrough_clear]
  cases hprepare : registry.prepare id kind records with
  | error e => rfl
  | ok dataset =>
    obtain ⟨hnew, hmade⟩ := prepare_eq_ok.mp hprepare
    obtain ⟨-, rfl⟩ := Dataset.isSound_of_ofRecords hmade
    have hstorage := (Bool.or_eq_false_iff.mp hnew).2
    simp only [Storage.persistThrough_clear, Storage.persist, hstorage]
    rfl

theorem addJsonThrough_clear (registry : Registry) (id : String) (kind : Kind)
    (content : Json) :
    registry.addJsonThrough .clear id kind content
      = registry.addJson id kind content := by
  unfold addJsonThrough addJson
  cases readContent kind content with
  | error e => rfl
  | ok records => exact addThrough_clear registry id kind records

/-- What is not there is not changed by being taken away. -/
theorem released_of_not_contains (h : registry.contains id = false) :
    (⟨registry.shelf.release id, (registry.storage.forget id).2⟩ : Registry)
      = registry := by
  obtain ⟨hshelf, hstorage⟩ := Bool.or_eq_false_iff.mp h
  have hrows : registry.storage.rows.filter (·.id ≠ id)
      = registry.storage.rows :=
    List.filter_eq_self.mpr
      (by simpa [Storage.contains, Storage.find?] using hstorage)
  have hkept : registry.shelf.release id = registry.shelf :=
    Shelf.release_of_get?_eq_none (by simpa [Shelf.contains] using hshelf)
  rw [hkept, Storage.forget, hrows]

/-- Once both of its steps are let through, removing in steps is removing. -/
theorem removeThrough_eq_remove (hrelease : gate .release = .ok ())
    (hdelete : gate .delete = .ok ()) (registry : Registry) (id : String) :
    registry.removeThrough gate id = registry.remove id := by
  unfold removeThrough remove
  simp only [hrelease, hdelete]
  cases Dataset.checkId id with
  | error e => rfl
  | ok done =>
    cases hthere : registry.contains id with
    | true => exact if_pos hthere
    | false =>
      have hgone := released_of_not_contains hthere
      refine (if_neg (Bool.eq_false_iff.mp hthere)).trans ?_
      exact congrArg (Prod.mk _) hgone

theorem removeThrough_clear (registry : Registry) (id : String) :
    registry.removeThrough .clear id = registry.remove id :=
  removeThrough_eq_remove rfl rfl registry id

/-! ## Failures -/

/-- A dataset has been added although adding it is reported as failed: its row
has been inserted, and then it could not be put on the shelf, or was put there
and the ids could not be listed. -/
inductive AddedDespite (gate : Gate) (registry : Registry)
    (dataset : Dataset) (e : Error) : Registry → Prop
  | notKept :
      gate .keep = .error e →
      AddedDespite gate registry dataset e
        ⟨registry.shelf, (registry.storage.persist dataset).2⟩
  | notListed {after : Registry} :
      after = ⟨registry.shelf.keep dataset,
        (registry.storage.persist dataset).2⟩ →
      gate .list = .error e ∨ after.ids = .error e →
      AddedDespite gate registry dataset e after

theorem addThrough_of_error
    (h : (registry.addThrough gate id kind records).1 = .error e) :
    (registry.addThrough gate id kind records).2 = registry ∨
      registry.AddedDespite gate ⟨id, kind, records⟩ e
        (registry.addThrough gate id kind records).2 := by
  unfold addThrough at h ⊢
  cases hprepare : registry.prepareThrough gate id kind records with
  | error cause => exact .inl rfl
  | ok dataset =>
    obtain rfl := eq_of_prepareThrough hprepare
    simp only [hprepare] at h ⊢
    cases hpersist : registry.storage.persistThrough gate
        ⟨id, kind, records⟩ with
    | error cause => exact .inl rfl
    | ok result =>
      have hstorage := Storage.persist_of_persistThrough hpersist
      obtain ⟨stored, storage⟩ := result
      simp only [hpersist] at h ⊢
      cases stored with
      | true => exact .inl rfl
      | false =>
        -- From here on the row is there.
        have hafter : (registry.storage.persist ⟨id, kind, records⟩).2
            = storage := by rw [hstorage]
        subst hafter
        refine .inr ?_
        cases hkeep : gate .keep with
        | error cause =>
          simp only [hkeep, Except.error.injEq] at h ⊢
          exact .notKept (h ▸ hkeep)
        | ok done =>
          simp only [hkeep] at h ⊢
          refine .notListed rfl ?_
          rcases bind_eq_error.mp h with hlist | ⟨-, -, hids⟩
          · exact .inl hlist
          · exact .inr hids

theorem addJsonThrough_of_error
    (h : (registry.addJsonThrough gate id kind content).1 = .error e) :
    (registry.addJsonThrough gate id kind content).2 = registry ∨
      ∃ records, readContent kind content = .ok records ∧
        registry.AddedDespite gate ⟨id, kind, records⟩ e
          (registry.addJsonThrough gate id kind content).2 := by
  unfold addJsonThrough at h ⊢
  cases hread : readContent kind content with
  | error cause => exact .inl rfl
  | ok records =>
    simp only [hread] at h ⊢
    exact (addThrough_of_error h).imp_right fun hadded => ⟨records, rfl, hadded⟩

/-- Of a removal nothing is reported as failed after the row is deleted. -/
theorem remove_of_error (h : (registry.remove id).1 = .error e) :
    (registry.remove id).2 = registry := by
  unfold remove at h ⊢
  cases hchecked : Dataset.checkId id with
  | error cause => rfl
  | ok done =>
    simp only [hchecked] at h ⊢
    by_cases hthere : registry.contains id
    · simp [hthere] at h
    · rw [if_neg hthere]

theorem removeThrough_of_error
    (h : (registry.removeThrough gate id).1 = .error e) :
    (registry.removeThrough gate id).2 = registry ∨
      gate .delete = .error e ∧ (registry.removeThrough gate id).2
        = ⟨registry.shelf.release id, registry.storage⟩ := by
  cases hrelease : gate .release with
  | error cause =>
    refine .inl ?_
    unfold removeThrough
    cases Dataset.checkId id <;> simp [hrelease, bind, Except.bind]
  | ok done =>
    cases hdelete : gate .delete with
    | ok done =>
      rw [removeThrough_eq_remove hrelease hdelete] at h ⊢
      exact .inl (remove_of_error h)
    | error cause =>
      unfold removeThrough at h ⊢
      cases hchecked : Dataset.checkId id with
      | error fault => exact .inl rfl
      | ok done =>
        simp only [hchecked, hrelease, hdelete, bind, Except.bind,
          Except.error.injEq, and_true] at h ⊢
        exact .inr h

/-! ## Rows that cannot be listed -/

/-- One row that cannot be listed is enough for there to be no listing. -/
theorem list_of_rowInfo_eq_error {row : StoredRow}
    (hrow : row ∈ registry.storage.rows)
    (hinfo : Storage.rowInfo row = .error e) :
    ∃ cause, registry.list = .error cause := by
  cases hlist : registry.list with
  | error cause => exact ⟨cause, rfl⟩
  | ok infos =>
    obtain ⟨stored, hstored, -⟩ := bind_eq_ok.mp hlist
    obtain ⟨entries, hentries, -⟩ := bind_eq_ok.mp hstored
    obtain ⟨entry, -, hentry⟩ := exists_of_forall₂ (mapM_eq_ok.mp hentries)
      (List.mem_mergeSort.mpr hrow)
    rw [hinfo] at hentry
    cases hentry

/-- So every add beside such a row is reported as failed, and done. -/
theorem add_of_rowInfo_eq_error {row : StoredRow} {dataset : Dataset}
    (hprepare : registry.prepare id kind records = .ok dataset)
    (hrow : row ∈ registry.storage.rows)
    (hinfo : Storage.rowInfo row = .error e) :
    ∃ cause, registry.add id kind records = (.error cause,
      ⟨registry.shelf.keep dataset, (registry.storage.persist dataset).2⟩) := by
  obtain ⟨hnew, hmade⟩ := prepare_eq_ok.mp hprepare
  obtain ⟨-, rfl⟩ := Dataset.isSound_of_ofRecords hmade
  have hstored : row ∈ (registry.storage.persist dataset).2.rows := by
    rw [Storage.rows_persist (Bool.or_eq_false_iff.mp hnew).2]
    exact List.mem_append_left _ hrow
  obtain ⟨cause, hlist⟩ := @list_of_rowInfo_eq_error _
    ⟨registry.shelf.keep dataset, (registry.storage.persist dataset).2⟩ _
    hstored hinfo
  refine ⟨cause, ?_⟩
  simp only [add, hprepare, ids, hlist]
  rfl

/-! ## Whichever step fails -/

/-- Whatever the registry holds and whichever step fails, a request that fails
leaves the registry as it was, except that a dataset whose row has been
inserted stays added, and that one whose row cannot be deleted is off the
shelf. -/
theorem unchanged_unless_late (gate : Gate) (registry : Registry)
    (id : String) :
    (∀ kind records e,
      (registry.addThrough gate id kind records).1 = .error e →
      (registry.addThrough gate id kind records).2 = registry ∨
        registry.AddedDespite gate ⟨id, kind, records⟩ e
          (registry.addThrough gate id kind records).2) ∧
    (∀ kind content e,
      (registry.addJsonThrough gate id kind content).1 = .error e →
      (registry.addJsonThrough gate id kind content).2 = registry ∨
        ∃ records, readContent kind content = .ok records ∧
          registry.AddedDespite gate ⟨id, kind, records⟩ e
            (registry.addJsonThrough gate id kind content).2) ∧
    ∀ e, (registry.removeThrough gate id).1 = .error e →
      (registry.removeThrough gate id).2 = registry ∨
        gate .delete = .error e ∧ (registry.removeThrough gate id).2
          = ⟨registry.shelf.release id, registry.storage⟩ :=
  ⟨fun _ _ _ => addThrough_of_error, fun _ _ _ => addJsonThrough_of_error,
    fun _ => removeThrough_of_error⟩

/-- A registry after a restart whose only row has a text for the number of its
records. -/
def miscounted : Registry :=
  altered fun row => { row with count := .text "many" }

/-- A dataset is added to it although adding fails. -/
theorem add_miscounted :
    (∃ e, (miscounted.add "fall" .sections [passedBy (.ofInt 41)]).1
      = .error e) ∧
    (miscounted.add "fall" .sections [passedBy (.ofInt 41)]).2
      ≠ miscounted := by
  have hprepare : miscounted.prepare "fall" .sections [passedBy (.ofInt 41)]
      = .ok ⟨"fall", .sections, [passedBy (.ofInt 41)]⟩ := by
    refine prepare_eq_ok.mpr ⟨by decide +kernel, ?_⟩
    exact Dataset.ofRecords_eq_ok.mpr
      ⟨by decide +kernel, by simp, by simp [passedBy, Record.kind], rfl⟩
  obtain ⟨e, hadd⟩ := add_of_rowInfo_eq_error hprepare List.mem_cons_self rfl
  rw [hadd]
  refine ⟨⟨e, rfl⟩, fun hsame => ?_⟩
  have hids : ["fall"] = [] := congrArg (fun after => after.shelf.ids) hsame
  cases hids

def withCourses : Registry :=
  (Registry.empty.add "courses" .sections [passedBy (.ofInt 40)]).2

def undeletable : Gate
  | .delete => .error (.storage "the table is read-only")
  | _ => .ok ()

/-- A dataset is taken off the shelf although removing it fails. -/
theorem removeThrough_withCourses :
    (withCourses.removeThrough undeletable "courses").2 ≠ withCourses := by
  intro hsame
  have hids := congrArg (fun after => after.shelf.ids) hsame
  revert hids
  decide +kernel

/-- Adding beside a row that cannot be listed fails late, and so does removing
if rows cannot be deleted. -/
theorem unchanged_unless_late_miscounted :
    (∃ e, miscounted.AddedDespite .clear
      ⟨"fall", .sections, [passedBy (.ofInt 41)]⟩ e
      (miscounted.addThrough .clear "fall" .sections
        [passedBy (.ofInt 41)]).2) ∧
    (withCourses.removeThrough undeletable "courses").2
      = ⟨withCourses.shelf.release "courses", withCourses.storage⟩ := by
  obtain ⟨hadd, -, -⟩ := unchanged_unless_late .clear miscounted "fall"
  obtain ⟨-, -, hremove⟩ :=
    unchanged_unless_late undeletable withCourses "courses"
  have hclear := addThrough_clear miscounted "fall" .sections
    [passedBy (.ofInt 41)]
  obtain ⟨⟨e, hfailed⟩, hchanged⟩ := add_miscounted
  rw [← hclear] at hfailed hchanged
  exact ⟨⟨e, (hadd _ _ e hfailed).resolve_left hchanged⟩,
    ((hremove _ rfl).resolve_left removeThrough_withCourses).2⟩

/-- So not every request that fails leaves the registry as it was. -/
theorem changed_of_error :
    ¬(∀ e, (miscounted.add "fall" .sections [passedBy (.ofInt 41)]).1
        = .error e →
      (miscounted.add "fall" .sections [passedBy (.ofInt 41)]).2
        = miscounted) ∧
    ¬∀ e, (withCourses.removeThrough undeletable "courses").1 = .error e →
      (withCourses.removeThrough undeletable "courses").2 = withCourses := by
  obtain ⟨⟨e, hfailed⟩, hchanged⟩ := add_miscounted
  exact ⟨fun h => hchanged (h e hfailed),
    fun h => removeThrough_withCourses (h _ rfl)⟩

/-! ## Registries that can be reached -/

/-- With no step failing it is the listing that fails late. -/
theorem AddedDespite.ids_of_clear {dataset : Dataset} {after : Registry}
    (h : registry.AddedDespite .clear dataset e after) :
    after.ids = .error e := by
  cases h with
  | notKept hkeep => cases hkeep
  | notListed _ hfailed => exact hfailed.resolve_left nofun

/-- A coherent registry can be listed, so there a failed add leaves the
registry as it was. -/
theorem Coherent.add_of_error (h : registry.Coherent)
    (herror : (registry.add id kind records).1 = .error e) :
    (registry.add id kind records).2 = registry := by
  have hcoherent := h.add id kind records
  rw [← addThrough_clear] at herror hcoherent ⊢
  refine (addThrough_of_error herror).resolve_right fun hadded => ?_
  have hids := hadded.ids_of_clear
  obtain ⟨-, infos, -, hlist, -⟩ := hcoherent.list
  simp [ids, hlist, bind, Except.bind, pure, Except.pure] at hids

/-- In a registry that can be reached, a request to add or to remove a dataset
that fails leaves the registry as it was. -/
theorem Reachable.unchanged_of_error (h : registry.Reachable) (id : String) :
    (∀ kind records e, (registry.add id kind records).1 = .error e →
      (registry.add id kind records).2 = registry) ∧
    (∀ kind content e, (registry.addJson id kind content).1 = .error e →
      (registry.addJson id kind content).2 = registry) ∧
    ∀ e, (registry.remove id).1 = .error e →
      (registry.remove id).2 = registry := by
  refine ⟨fun _ _ _ => h.coherent.add_of_error, fun kind content e he => ?_,
    fun _ => remove_of_error⟩
  unfold addJson at he ⊢
  cases hread : readContent kind content with
  | error cause => rfl
  | ok records =>
    simp only [hread] at he ⊢
    exact h.coherent.add_of_error he

end Registry

end CampusQuery
