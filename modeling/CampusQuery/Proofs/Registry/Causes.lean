/-
CampusQuery.Proofs.Registry.Causes — what a registry reports.

What is read from JSON text has no "no number" in it, and records are read
from nothing else. So a program that starts has none in its datasets, and no
request brings one in (`Registry.IsProper.serve`). Then no request breaks down
(`Registry.IsProper.not_breaksDown`). Of all requests only queries ever do
(`Registry.failure?_eq_noOrder`), and only the removal of a dataset that is
nowhere is reported as "not found" (`Registry.isCommon_of_failure`).
-/
import CampusQuery.Proofs.Json.Proper
import CampusQuery.Proofs.Query.Boundary
import CampusQuery.Proofs.Registry.Refinement
import CampusQuery.Proofs.Registry.Restoration

namespace CampusQuery

open Numeric Outcome

/-! ## Records -/

/-- No field is "no number". -/
def Record.IsProper (record : Record) : Prop :=
  ∀ name, record.field name ≠ .ok (.number .nan)

/-- A derived name changes no number. -/
theorem Room.number_mem_withName {r : Room} {name : String} {x : Binary64} :
    (name, .number x) ∈ r.withName.fields ↔ (name, .number x) ∈ r.fields := by
  unfold withName
  split <;> simp [fields]

namespace RecordReader

variable {kind : Kind} {members : List (String × Json)} {record : Record}

theorem isProper_of_recordOf (hmembers : ∀ member ∈ members, member.2.IsProper)
    (h : recordOf kind members = .ok record) : record.IsProper := by
  have hnumber : ∀ name, ¬HasField members name (.number .nan) := by
    rintro name ⟨json, hlookup, hspells⟩
    obtain ⟨n, rfl, hn⟩ := spells_number_iff.mp hspells
    cases hmembers _ (Json.mem_of_lookup hlookup) with
    | number hne => exact hne hn
  intro name hfield
  have hmem := Json.mem_of_lookup (Record.field_eq_ok.mp hfield)
  cases kind with
  | sections =>
    obtain ⟨s, hs, rfl⟩ := map_eq_ok.mp h
    exact hnumber name (sectionOf_eq_ok.mp hs _ hmem)
  | rooms =>
    obtain ⟨r, hr, rfl⟩ := map_eq_ok.mp h
    unfold roomOf at hr
    simp only [bind_eq_ok, number_eq_ok, pure_eq_ok] at hr
    obtain ⟨_, -, _, -, _, -, _, -, _, -, lat, hlat, lon, hlon, seats, hseats,
      _, -, _, -, _, -, rfl⟩ := hr
    have hroom := Room.number_mem_withName.mp hmem
    simp only [Room.fields, List.mem_cons, Prod.mk.injEq, Value.number.injEq,
      reduceCtorEq, and_false, false_or, or_false, List.not_mem_nil] at hroom
    obtain ⟨rfl, rfl⟩ | ⟨rfl, rfl⟩ | ⟨rfl, rfl⟩ := hroom
    · exact hnumber _ hlat
    · exact hnumber _ hlon
    · exact hnumber _ hseats

/-- What is read from proper JSON is proper. -/
theorem isProper_of_read {json : Json} (hjson : json.IsProper)
    (h : read kind json = .ok record) : record.IsProper := by
  cases hjson with
  | object hmembers =>
    obtain ⟨-, -, h⟩ := bind_eq_ok.mp h
    exact isProper_of_recordOf hmembers h
  | array hitems =>
    obtain ⟨-, -, h⟩ := bind_eq_ok.mp h
    obtain ⟨-, -, h⟩ := bind_eq_ok.mp h
    refine isProper_of_recordOf (fun member hmember => ?_) h
    exact hitems _ (List.of_mem_zip hmember).2
  | _ => cases h

theorem isProper_of_forall₂ {items : List Json} {records : List Record}
    (hitems : (Json.array items).IsProper)
    (h : List.Forall₂ (fun item record => read kind item = .ok record) items
      records) : ∀ record ∈ records, record.IsProper := by
  intro record hrecord
  obtain ⟨item, hitem, hread⟩ := exists_of_forall₂ h.flip hrecord
  cases hitems with
  | array hproper => exact isProper_of_read (hproper item hitem) hread

end RecordReader

/-! ## Datasets -/

def Dataset.IsProper (dataset : Dataset) : Prop :=
  ∀ record ∈ dataset.records, record.IsProper

/-- Whatever is in storage, what is restored from it is proper. -/
theorem Storage.isProper_of_restore {storage : Storage} {id : String}
    {dataset : Dataset} (h : storage.restore id = .ok (some dataset)) :
    dataset.IsProper ∧ dataset.id = id := by
  obtain ⟨row, -, hid, hrow⟩ := restore_eq_some.mp h
  cases restoreRow_eq_ok.mp hrow with
  | intro _ _ hitems hrecords =>
    exact ⟨RecordReader.isProper_of_forall₂
      (Json.isProper_of_readBefore? hitems) hrecords, hid⟩

/-! ## Registries -/

def Request.IsProper : Request → Prop
  | .add _ _ content => content.IsProper
  | _ => True

namespace Registry

/-- No loaded dataset has "no number". -/
def IsProper (registry : Registry) : Prop :=
  ∀ dataset ∈ registry.shelf.datasets, dataset.IsProper

theorem isProper_start (storage : Storage) : IsProper ⟨.empty, storage⟩ := by
  simp [IsProper, Shelf.empty]

variable {registry : Registry}

namespace IsProper

theorem keep (h : registry.IsProper) {dataset : Dataset} {storage : Storage}
    (hdataset : dataset.IsProper)
    (hnew : registry.shelf.get? dataset.id = none) :
    IsProper ⟨registry.shelf.keep dataset, storage⟩ := by
  intro kept hkept
  rcases (Shelf.mem_keep hnew).mp hkept with hold | rfl
  · exact h kept hold
  · exact hdataset

theorem add (h : registry.IsProper) (id : String) (kind : Kind)
    {records : List Record} (hrecords : ∀ record ∈ records, record.IsProper) :
    (registry.add id kind records).2.IsProper := by
  unfold Registry.add
  cases hprepare : registry.prepare id kind records with
  | error e => exact h
  | ok dataset =>
    obtain ⟨hnew, hmade⟩ := prepare_eq_ok.mp hprepare
    obtain ⟨-, -, -, rfl⟩ := Dataset.ofRecords_eq_ok.mp hmade
    refine h.keep hrecords ?_
    simpa [Shelf.contains] using (Bool.or_eq_false_iff.mp hnew).1

theorem addJson (h : registry.IsProper) (id : String) (kind : Kind)
    {content : Json} (hcontent : content.IsProper) :
    (registry.addJson id kind content).2.IsProper := by
  unfold Registry.addJson
  cases hread : readContent kind content with
  | error e => exact h
  | ok records =>
    obtain ⟨items, rfl, hrecords⟩ := Catalogue.readContent_eq_ok.mp hread
    exact h.add id kind (RecordReader.isProper_of_forall₂ hcontent
      (hrecords.imp fun _ _ hitem => mapError_eq_ok.mp hitem))

theorem remove (h : registry.IsProper) (id : String) :
    (registry.remove id).2.IsProper := by
  unfold Registry.remove
  split
  · exact h
  · split
    · exact fun kept hkept => h kept (List.mem_filter.mp hkept).1
    · exact h

theorem resolve (h : registry.IsProper) (id : String) :
    (registry.resolve id).2.IsProper ∧
      ∀ dataset, (registry.resolve id).1 = .ok (some dataset) →
        dataset.IsProper := by
  unfold Registry.resolve
  cases hget : registry.shelf.get? id with
  | some kept =>
    refine ⟨h, ?_⟩
    rintro _ ⟨⟩
    exact h _ (List.mem_of_find?_eq_some hget)
  | none =>
    cases hrestore : registry.storage.restore id with
    | error e => exact ⟨h, by simp⟩
    | ok found =>
      cases found with
      | none => exact ⟨h, by simp⟩
      | some restored =>
        obtain ⟨hproper, rfl⟩ := Storage.isProper_of_restore hrestore
        refine ⟨h.keep hproper hget, ?_⟩
        rintro _ ⟨⟩
        exact hproper

theorem afterBinding (h : registry.IsProper) (raw : Json) :
    (registry.afterBinding raw).IsProper := by
  unfold Registry.afterBinding
  cases Query.boundDataset raw with
  | error e => exact h
  | ok id => exact (h.resolve id).1

/-- No request brings "no number" in. -/
theorem serve (h : registry.IsProper) {request : Request}
    (hrequest : request.IsProper) : (registry.serve request).2.IsProper := by
  cases request with
  | add id kind content => exact h.addJson id kind hrequest
  | remove id => exact h.remove id
  | list => exact h
  | resolve id => exact (h.resolve id).1
  | query raw => exact h.afterBinding raw
  | restart => exact isProper_start registry.storage

end IsProper

end Registry

/-! ## Causes -/

theorem Cell.storage_of_readInteger {cell : Cell} {e : Error}
    (h : cell.readInteger = .error e) : ∃ cause, e = .storage cause := by
  cases cell <;> simp_all [readInteger, misread, eq_comm]

/-- Neither is anything missing nor did the request break down. -/
def Error.IsCommon : Error → Prop
  | .notFound _ => False
  | .noOrder => False
  | _ => True

def Outcome.failure? {α : Type} : Outcome α → Option Error
  | .ok _ => none
  | .error e => some e

theorem Outcome.failure?_eq_some {α : Type} {x : Outcome α} {e : Error} :
    failure? x = some e ↔ x = .error e := by
  cases x <;> simp [failure?]

def Answer.failure? : Answer → Option Error
  | .added outcome => Outcome.failure? outcome
  | .removed outcome => Outcome.failure? outcome
  | .listed outcome => Outcome.failure? outcome
  | .resolved outcome => Outcome.failure? outcome
  | .found outcome => Outcome.failure? outcome
  | .restarted => none

namespace Registry

variable {registry : Registry} {request : Request} {e : Error}

theorem isCommon_of_onlyRefuses {α : Type} {x : Outcome α}
    (h : OnlyRefuses x) (hx : x = .error e) : e.IsCommon := by
  obtain ⟨cause, rfl⟩ := h e hx
  trivial

/-- A listing fails only by a cell that cannot be read. -/
theorem isCommon_of_list (h : registry.list = .error e) : e.IsCommon := by
  have hinfo : ∀ {row : StoredRow} {e : Error},
      Storage.rowInfo row = .error e → e.IsCommon := by
    intro row e h
    rcases bind_eq_error.mp h with hname | ⟨name, -, h⟩
    · obtain ⟨cause, rfl⟩ := Cell.storage_of_readText hname
      trivial
    · rcases bind_eq_error.mp h with hcount | ⟨count, -, h⟩
      · obtain ⟨cause, rfl⟩ := Cell.storage_of_readInteger hcount
        trivial
      · cases h
  rcases bind_eq_error.mp h with hstored | ⟨stored, -, h⟩
  · rcases bind_eq_error.mp hstored with hentries | ⟨entries, -, h⟩
    · obtain ⟨_, row, _, -, -, hrow⟩ := mapM_eq_error.mp hentries
      exact hinfo hrow
    · cases h
  · cases h

theorem isCommon_of_addJson {id : String} {kind : Kind} {content : Json}
    (h : (registry.addJson id kind content).1 = .error e) : e.IsCommon := by
  unfold addJson at h
  cases hread : readContent kind content with
  | error cause =>
    rw [hread] at h
    obtain rfl := Except.error.inj h
    exact isCommon_of_onlyRefuses (onlyRefuses_readContent _ _) hread
  | ok records =>
    rw [hread] at h
    dsimp only at h
    unfold add at h
    cases hprepare : registry.prepare id kind records with
    | error cause =>
      rw [hprepare] at h
      obtain rfl := Except.error.inj h
      exact isCommon_of_onlyRefuses (onlyRefuses_prepare _ _ _ _) hprepare
    | ok dataset =>
      -- The dataset is in by then; what can still fail is the listing.
      rw [hprepare] at h
      exact isCommon_of_list (map_eq_error.mp h)

theorem isCommon_of_resolve {id : String}
    (h : (registry.resolve id).1 = .error e) : e.IsCommon := by
  unfold resolve at h
  split at h
  · cases h
  · split at h
    · rename_i cause hrestore
      cases h
      unfold Storage.restore at hrestore
      cases hfind : registry.storage.find? id with
      | none =>
        rw [hfind] at hrestore
        cases hrestore
      | some row =>
        rw [hfind] at hrestore
        cases Storage.fault_of_restoreRow (map_eq_error.mp hrestore) <;> trivial
    · cases h
    · cases h

theorem isCommon_of_query {raw : Json} (horder : e ≠ .noOrder)
    (hquery : (registry.query raw).1 = .error e) : e.IsCommon := by
  have hends := Query.ends_perform registry.source raw
  rw [show Query.perform registry.source raw = .error e from hquery] at hends
  cases hends with
  | refused cause => trivial
  | tooLarge _ => trivial
  | noOrder => exact absurd rfl horder

/-- The removal of a dataset that is nowhere, under a valid id. -/
def Misses (registry : Registry) (request : Request) : Prop :=
  ∃ id, request = .remove id ∧ Dataset.isValidId id ∧
    registry.shelf.get? id = none ∧ registry.storage.find? id = none

theorem misses_remove {id : String} (hid : Dataset.isValidId id) :
    registry.Misses (.remove id) ↔ registry.contains id = false := by
  simp [Misses, contains, Shelf.contains, Storage.contains, hid]

/-- What is nowhere is reported as "not found". -/
theorem failure_of_misses (h : registry.Misses request) :
    ∃ text, (registry.serve request).1.failure? = some (.notFound text) := by
  obtain ⟨id, rfl, hid, -⟩ := id h
  have hnot := (misses_remove hid).mp h
  exact ⟨s!"Dataset '{id}' not found", by
    simp [serve, answerOf, remove, Dataset.checkId, hid, hnot,
      Answer.failure?, Outcome.failure?]⟩

theorem isCommon_of_remove {id : String} (h : ¬registry.Misses (.remove id))
    (he : (registry.remove id).1 = .error e) : e.IsCommon := by
  unfold remove at he
  cases hchecked : Dataset.checkId id with
  | error cause =>
    rw [hchecked] at he
    obtain rfl := Except.error.inj he
    exact isCommon_of_onlyRefuses (onlyRefuses_checkId id) hchecked
  | ok done =>
    have hid := Dataset.checkId_eq_ok.mp hchecked
    have hthere : registry.contains id = true := by
      rwa [misses_remove hid, Bool.not_eq_false] at h
    rw [hchecked] at he
    simp [hthere] at he

/-- Nothing else is. -/
theorem isCommon_of_failure (hthere : ¬registry.Misses request)
    (horder : e ≠ .noOrder)
    (he : (registry.serve request).1.failure? = some e) : e.IsCommon := by
  cases request with
  | add id kind content =>
    exact isCommon_of_addJson (failure?_eq_some.mp he)
  | remove id => exact isCommon_of_remove hthere (failure?_eq_some.mp he)
  | list => exact isCommon_of_list (failure?_eq_some.mp he)
  | resolve id => exact isCommon_of_resolve (failure?_eq_some.mp he)
  | query raw => exact isCommon_of_query horder (failure?_eq_some.mp he)
  | restart => cases he

/-! ## Breaking down -/

def BreaksDown (registry : Registry) (request : Request) : Prop :=
  ∃ raw, request = .query raw ∧ Query.BreaksDown registry.source raw

/-- No other request ends without an order. -/
theorem failure?_eq_noOrder :
    (registry.serve request).1.failure? = some .noOrder ↔
      registry.BreaksDown request := by
  constructor
  · intro h
    cases request with
    | add id kind content =>
      exact (isCommon_of_addJson (failure?_eq_some.mp h)).elim
    | remove id =>
      have hthere : ¬registry.Misses (.remove id) := by
        intro hmisses
        obtain ⟨text, htext⟩ := failure_of_misses hmisses
        rw [htext] at h
        cases h
      exact (isCommon_of_remove hthere (failure?_eq_some.mp h)).elim
    | list => exact (isCommon_of_list (failure?_eq_some.mp h)).elim
    | resolve id => exact (isCommon_of_resolve (failure?_eq_some.mp h)).elim
    | query raw =>
      exact ⟨raw, rfl, Query.perform_eq_noOrder.mp (failure?_eq_some.mp h)⟩
    | restart => cases h
  · rintro ⟨raw, rfl, hbreaks⟩
    exact failure?_eq_some.mpr (Query.perform_eq_noOrder.mpr hbreaks)

/-- A query breaks down only over "no number" in the dataset that it is
about. -/
theorem IsProper.not_breaksDown (h : registry.IsProper) :
    ¬registry.BreaksDown request := by
  rintro ⟨raw, -, hbreaks⟩
  have hends := Query.ends_perform registry.source raw
  rw [Query.perform_eq_noOrder.mpr hbreaks] at hends
  cases hends with
  | noOrder _ hsource _ _ hrecord hfield =>
    exact (h.resolve _).2 _ hsource _ hrecord _ hfield

end Registry

end CampusQuery
