/-
CampusQuery.Proofs.Registry.Refinement — a registry answers like a catalogue.

A registry that represents a catalogue answers each request as the catalogue
says and then represents the catalogue after it (`Represents.serve`), so by
induction all requests of a run are answered that way. Whether a dataset is
loaded or only stored, and how often the program has started, cannot be told
from the answers. All this needs numbers that read back: a dataset with
another number comes back changed (`explains_iff`).
-/
import CampusQuery.Proofs.Registry.Representation

namespace CampusQuery

open Outcome

namespace Catalogue

/-! ## Contents -/

theorem readContent_eq_ok {kind : Kind} {content : Json}
    {records : List Record} :
    Registry.readContent kind content = .ok records ↔
      Holds kind content records := by
  unfold Registry.readContent Holds
  cases content <;> simp [Json.items?, mapM_eq_ok]

/-- Records that are decoded are of their kind, and none of them is a room
without a name. -/
theorem Holds.named {kind : Kind} {content : Json} {records : List Record}
    (h : Holds kind content records) {record : Record}
    (hrecord : record ∈ records) :
    record.kind = kind ∧ ("name", .text "") ∉ record.fields := by
  obtain ⟨items, -, hitems⟩ := h
  obtain ⟨item, -, hitem⟩ := exists_of_forall₂ hitems.flip hrecord
  exact RecordReader.named_of_read (mapError_eq_ok.mp hitem)

/-- Only one list of records can be decoded from a content. -/
theorem Holds.unique {kind : Kind} {content : Json}
    {records others : List Record} (h : Holds kind content records)
    (hother : Holds kind content others) : records = others :=
  Except.ok.inj ((readContent_eq_ok.mpr h).symm.trans
    (readContent_eq_ok.mpr hother))

/-! ## Steps -/

variable {catalogue after : Catalogue} {answer : Answer} {id : String}

/-- What can be added is added. -/
theorem Step.of_admits {kind : Kind} {content : Json}
    {records : List Record}
    (h : catalogue.Step (.add id kind content) answer after)
    (hadmits : catalogue.Admits id kind content records) :
    ∃ ids, answer = .added (.ok ids) ∧
      after = catalogue.insert id ⟨kind, records⟩ := by
  cases h with
  | added hothers hlists =>
    obtain rfl := hadmits.1.unique hothers.1
    exact ⟨_, rfl, rfl⟩
  | refused hnone => exact absurd ⟨records, hadmits⟩ hnone

theorem Step.of_resolve (h : catalogue.Step (.resolve id) answer after) :
    answer = .resolved (.ok (catalogue.dataset? id)) := by
  cases h
  rfl

theorem Step.of_restart (h : catalogue.Step .restart answer after) :
    after = catalogue := by
  cases h
  rfl

end Catalogue

/-- The numbers of all records that the request would add read back. -/
def Request.IsDurable : Request → Prop
  | .add _ kind content => ∀ records, Catalogue.Holds kind content records →
      ∀ record ∈ records, ∀ name x, (name, .number x) ∈ record.fields →
        Json.ReadsBack x
  | _ => True

namespace Registry

variable {registry : Registry} {catalogue : Catalogue}

/-! ## Requests -/

theorem onlyRefuses_readContent (kind : Kind) (content : Json) :
    OnlyRefuses (readContent kind content) := by
  unfold readContent
  split
  · simp
  · exact onlyRefuses_mapM
      (fun _ => onlyRefuses_mapError fun _ => ⟨_, rfl⟩) _

@[simp] theorem onlyRefuses_checkId (id : String) :
    OnlyRefuses (Dataset.checkId id) := by
  unfold Dataset.checkId
  split <;> simp

theorem onlyRefuses_prepare (registry : Registry) (id : String) (kind : Kind)
    (records : List Record) :
    OnlyRefuses (registry.prepare id kind records) := by
  unfold prepare Dataset.ofRecords
  simp only [onlyRefuses_bind, onlyRefuses_checkId, true_and]
  intro _ _
  split
  · simp
  · simp only [onlyRefuses_bind, onlyRefuses_checkId, true_and]
    intro _ _
    split
    · simp
    · split <;> simp

/-- A dataset can be added if the catalogue admits its records. -/
theorem Represents.admits_iff (h : registry.Represents catalogue)
    {id : String} {kind : Kind} {content : Json} {records : List Record} :
    catalogue.Admits id kind content records ↔
      readContent kind content = .ok records ∧
        registry.prepare id kind records = .ok ⟨id, kind, records⟩ := by
  have hcontains : registry.contains id = false ↔ catalogue id = none := by
    rw [← Bool.not_eq_true, h.contains_iff, not_exists]
    cases hentry : catalogue id <;>
      simp [Catalogue.dataset?, hentry]
  rw [Catalogue.Admits, Catalogue.readContent_eq_ok, prepare_eq_ok,
    Dataset.ofRecords_eq_ok, hcontains]
  constructor
  · rintro ⟨hholds, hne, hid, hnew⟩
    exact ⟨hholds, hnew, hid, hne, fun _ hrecord => (hholds.named hrecord).1,
      rfl⟩
  · rintro ⟨hholds, hnew, hid, hne, -, -⟩
    exact ⟨hholds, hne, hid, hnew⟩

/-- Records that are read are added. -/
theorem addJson_eq_add (registry : Registry) (id : String) {kind : Kind}
    {content : Json} {records : List Record}
    (h : readContent kind content = .ok records) :
    registry.addJson id kind content = registry.add id kind records := by
  unfold addJson
  rw [h]

/-- Content that is not read, or records that no dataset is made of, are
refused. -/
theorem Represents.addJson_refused (h : registry.Represents catalogue)
    {id : String} {kind : Kind} {content : Json} {cause : Invalid}
    (hrefused : registry.addJson id kind content
      = (.error (.invalid cause), registry))
    (hnone : ∀ records, readContent kind content = .ok records →
      registry.prepare id kind records ≠ .ok ⟨id, kind, records⟩) :
    ∃ after, catalogue.Step (.add id kind content)
        (.added (registry.addJson id kind content).1) after ∧
      (registry.addJson id kind content).2.Represents after := by
  rw [hrefused]
  refine ⟨catalogue, .refused ?_, h⟩
  rintro ⟨records, hadmits⟩
  obtain ⟨hread, hprepare⟩ := h.admits_iff.mp hadmits
  exact hnone records hread hprepare

/-- Adding a dataset is answered as the catalogue says. -/
theorem Represents.addJson (h : registry.Represents catalogue) (id : String)
    (kind : Kind) (content : Json)
    (hdurable : Dataset.isValidId id →
      Request.IsDurable (.add id kind content)) :
    ∃ after, catalogue.Step (.add id kind content)
        (.added (registry.addJson id kind content).1) after ∧
      (registry.addJson id kind content).2.Represents after := by
  cases hread : readContent kind content with
  | error e =>
    obtain ⟨cause, rfl⟩ := onlyRefuses_readContent kind content e hread
    have heq : registry.addJson id kind content
        = (.error (.invalid cause), registry) := by
      unfold Registry.addJson
      rw [hread]
    refine h.addJson_refused heq ?_
    intro records hsame
    rw [hread] at hsame
    cases hsame
  | ok records =>
    have hadd := addJson_eq_add registry id hread
    cases hprepare : registry.prepare id kind records with
    | error e =>
      obtain ⟨cause, rfl⟩ := onlyRefuses_prepare registry id kind records e
        hprepare
      have heq : registry.addJson id kind content
          = (.error (.invalid cause), registry) := by
        rw [hadd, Registry.add, hprepare]
      refine h.addJson_refused heq ?_
      intro others hsame hmade
      obtain rfl : records = others := Except.ok.inj (hread.symm.trans hsame)
      rw [hprepare] at hmade
      cases hmade
    | ok dataset =>
      obtain ⟨hnew, hmade⟩ := prepare_eq_ok.mp hprepare
      obtain ⟨hid, -, -, rfl⟩ := Dataset.ofRecords_eq_ok.mp hmade
      have hholds := Catalogue.readContent_eq_ok.mp hread
      have hafter := h.persist hnew fun record hrecord =>
        ⟨(hholds.named hrecord).1,
          hdurable hid records hholds record hrecord,
          (hholds.named hrecord).2⟩
      obtain ⟨infos, hlist, hinfos⟩ := hafter.list
      rw [hadd, Registry.add, hprepare]
      refine ⟨_, ?_, hafter⟩
      dsimp only
      rw [ids, hlist]
      exact .added (h.admits_iff.mpr ⟨hread, hprepare⟩) hinfos

/-- Removing a dataset is answered as the catalogue says. -/
theorem Represents.remove (h : registry.Represents catalogue) (id : String) :
    ∃ after, catalogue.Step (.remove id) (.removed (registry.remove id).1)
        after ∧ (registry.remove id).2.Represents after := by
  have hcontains := h.contains_iff id
  by_cases hid : Dataset.isValidId id
  · have hcheck : Dataset.checkId id = .ok () :=
      Dataset.checkId_eq_ok.mpr hid
    cases hentry : catalogue id with
    | none =>
      have hnew : registry.contains id = false := by
        rw [← Bool.not_eq_true, hcontains]
        simp [Catalogue.dataset?, hentry]
      rw [Registry.remove, hcheck, hnew]
      exact ⟨catalogue, .notFound hid hentry, h⟩
    | some entry =>
      have hold : registry.contains id = true := by
        rw [hcontains]
        exact ⟨entry.dataset id, Catalogue.dataset?_eq_some.mpr ⟨rfl, hentry⟩⟩
      rw [Registry.remove, hcheck, hold]
      exact ⟨_, .removed hentry, h.erase id⟩
  · have hcheck : Dataset.checkId id
        = refuse (.dataset (.invalidId id)) := if_neg hid
    rw [Registry.remove, hcheck]
    exact ⟨catalogue, .invalidId hid, h⟩

/-- A request is answered as the catalogue says. -/
theorem Represents.serve (h : registry.Represents catalogue)
    {request : Request} (hdurable : ∀ id kind content,
      request = .add id kind content → Dataset.isValidId id →
        request.IsDurable) :
    ∃ after, catalogue.Step request (registry.serve request).1 after ∧
      (registry.serve request).2.Represents after := by
  cases request with
  | add id kind content =>
    obtain ⟨after, hstep, hafter⟩ := h.addJson id kind content
      (hdurable id kind content rfl)
    exact ⟨after, hstep, hafter⟩
  | remove id =>
    obtain ⟨after, hstep, hafter⟩ := h.remove id
    exact ⟨after, hstep, hafter⟩
  | list =>
    obtain ⟨infos, hlist, hinfos⟩ := h.list
    refine ⟨catalogue, ?_, h⟩
    change catalogue.Step _ (.listed registry.list) _
    rw [hlist]
    exact .listed hinfos
  | resolve id =>
    obtain ⟨hdataset, hafter⟩ := h.resolve id
    refine ⟨catalogue, ?_, hafter⟩
    change catalogue.Step _ (.resolved (registry.resolve id).1) _
    rw [hdataset]
    exact .resolved
  | query raw =>
    obtain ⟨hanswer, hafter⟩ := h.query raw
    refine ⟨catalogue, ?_, hafter⟩
    change catalogue.Step _ (.found (registry.query raw).1) _
    rw [hanswer]
    exact .found
  | restart => exact ⟨catalogue, .restarted, h.restart⟩

/-! ## Runs -/

/-- A run is answered as the catalogue says. -/
theorem Represents.answers (h : registry.Represents catalogue)
    {requests : List Request}
    (hdurable : ∀ id kind content, .add id kind content ∈ requests →
      Dataset.isValidId id → Request.IsDurable (.add id kind content)) :
    catalogue.Explains requests (registry.answers requests) := by
  induction requests generalizing registry catalogue with
  | nil => exact .nil
  | cons request rest ih =>
    obtain ⟨after, hstep, hafter⟩ := h.serve fun id kind content heq hid =>
      heq ▸ hdurable id kind content (heq ▸ List.mem_cons_self) hid
    refine .cons hstep (ih hafter ?_)
    intro id kind content hmem hid
    exact hdurable id kind content (List.mem_cons_of_mem _ hmem) hid

/-- A dataset that comes back after a restart as the catalogue says is
durable. -/
theorem durable_of_explains {id : String} {kind : Kind} {content : Json}
    (hid : Dataset.isValidId id)
    (h : Catalogue.Explains .empty
      [.add id kind content, .restart, .resolve id]
      (Registry.empty.answers
        [.add id kind content, .restart, .resolve id])) :
    Request.IsDurable (.add id kind content) := by
  intro records hholds record hrecord
  have hadmits : Catalogue.empty.Admits id kind content records :=
    ⟨hholds, List.ne_nil_of_mem hrecord, hid, rfl⟩
  have hadd := addJson_eq_add .empty id
    (Catalogue.readContent_eq_ok.mpr hholds)
  simp only [Registry.answers, Registry.serve, answerOf, hadd] at h
  cases h with
  | cons hadded h =>
    cases h with
    | cons hrestarted h =>
      cases h with
      | cons hresolved _ =>
        obtain ⟨ids, hids, rfl⟩ := hadded.of_admits hadmits
        obtain rfl := hrestarted.of_restart
        have hsame := Answer.resolved.inj hresolved.of_resolve
        have hback := resolve_after_restart
          (Prod.ext (Answer.added.inj hids) rfl)
        rw [Catalogue.dataset?, Catalogue.insert, if_pos rfl] at hsame
        exact (hback.mp hsame record hrecord).numbers

/-- Take any requests, with restarts and resolutions among them. All runs
that are made of them are answered by a catalogue exactly if all records that
they add read back. -/
theorem explains_iff (allowed : Request → Prop) (hrestart : allowed .restart)
    (hresolve : ∀ id, allowed (.resolve id)) :
    (∀ requests : List Request, (∀ request ∈ requests, allowed request) →
      Catalogue.Explains .empty requests (Registry.empty.answers requests)) ↔
    ∀ id kind content, allowed (.add id kind content) →
      Dataset.isValidId id → Request.IsDurable (.add id kind content) := by
  constructor
  · intro hall id kind content hallowed hid
    refine durable_of_explains hid (hall _ ?_)
    simp only [List.forall_mem_cons]
    exact ⟨hallowed, hrestart, hresolve id, by simp⟩
  · intro hdurable requests hallowed
    refine represents_empty.answers ?_
    intro id kind content hmem hid
    exact hdurable id kind content (hallowed _ hmem) hid

def contentPassedBy (pass : Int) : Json :=
  .array [.object
    [("uuid", .string "1"), ("id", .string "310"),
     ("title", .string "sw eng"), ("instructor", .string "smith"),
     ("dept", .string "cpsc"), ("year", .number (.integer 2015)),
     ("avg", .number (.integer 80)), ("pass", .number (.integer pass)),
     ("fail", .number (.integer 0)), ("audit", .number (.integer 0))]]

/-- Runs that add only numbers that read back are all answered by a
catalogue; runs of any requests are not. -/
theorem explains_iff_contentPassedBy :
    (∀ requests : List Request, (∀ request ∈ requests, request.IsDurable) →
      Catalogue.Explains .empty requests (Registry.empty.answers requests)) ∧
    Request.IsDurable (.add "courses" .sections (contentPassedBy 40)) ∧
    ¬∀ requests : List Request,
      Catalogue.Explains .empty requests
        (Registry.empty.answers requests) := by
  have hholds : ∀ pass, Catalogue.Holds .sections (contentPassedBy pass)
      [passedBy (.ofInt pass)] := fun pass =>
    Catalogue.readContent_eq_ok.mp rfl
  refine ⟨?_, ?_, ?_⟩
  · refine (explains_iff Request.IsDurable trivial fun _ => trivial).mpr ?_
    intro id kind content hdurable _
    exact hdurable
  · intro records hrecords record hrecord
    obtain rfl := (hholds 40).unique hrecords
    have hread : (passedBy (.ofInt 40)).IsDurable := by decide +kernel
    rw [List.mem_singleton] at hrecord
    exact hrecord ▸ hread.numbers
  · intro hall
    have hdurable := (explains_iff (fun _ => True) trivial
      fun _ => trivial).mp (fun requests _ => hall requests) "courses"
      .sections (contentPassedBy 100000000000000048) trivial (by decide)
    have hpass : ∀ pass,
        ("pass", Value.number pass) ∈ (passedBy pass).fields := fun pass => by
      simp [passedBy, Record.fields, Section.fields]
    exact absurd (hdurable _ (hholds _) _ List.mem_cons_self _ _ (hpass _))
      (by decide +kernel)

end Registry

end CampusQuery
