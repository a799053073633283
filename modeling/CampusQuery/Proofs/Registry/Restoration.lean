/-
CampusQuery.Proofs.Registry.Restoration — what is restored from a stored row.

The cells of a stored row may hold anything. `StoredRow.Holds` says which
dataset a row holds, and `StoredRow.Fault` what is wrong with a row that holds
none, with the error that it is reported by. A row is restored exactly if it
holds a dataset (`restoreRow_eq_ok`), and reported by its fault otherwise
(`fault_of_restoreRow`). A row with a fault counts for its own id only: its
dataset is never loaded and queries about it are refused, all others are
answered as if another row stood in its place, and it can be removed
(`Registry.resolve_unloaded`).
-/
import CampusQuery.Proofs.Query.Binding
import CampusQuery.Proofs.Registry.Durability

namespace CampusQuery

open Outcome

/-! ## Cells -/

namespace Cell

variable {cell : Cell} {e : Error}

theorem readText_eq_ok {value : String} :
    cell.readText = .ok value ↔ cell = .text value := by
  cases cell <;> simp [readText, misread]

theorem readTime_eq_ok :
    cell.readTime = .ok () ↔
      ∃ time, cell = .text time ∧ Timestamp.isValid time := by
  unfold readTime
  simp only [bind_eq_ok, readText_eq_ok]
  refine exists_congr fun time => and_congr_right fun _ => ?_
  by_cases h : Timestamp.isValid time <;> simp [h]

/-- A cell that cannot be read is a failure of storage. -/
theorem storage_of_readText (h : cell.readText = .error e) :
    ∃ cause, e = .storage cause := by
  cases cell <;> simp_all [readText, misread, eq_comm]

theorem storage_of_readTime (h : cell.readTime = .error e) :
    ∃ cause, e = .storage cause := by
  unfold readTime at h
  rcases bind_eq_error.mp h with htext | ⟨time, -, htime⟩
  · exact storage_of_readText htext
  · by_cases hvalid : Timestamp.isValid time
    · simp [hvalid, pure, Except.pure] at htime
    · simp only [hvalid, Bool.false_eq_true, if_false, Except.error.injEq]
        at htime
      exact ⟨_, htime.symm⟩

end Cell

/-! ## Rows -/

namespace StoredRow

/-- The cells that are read to restore a dataset can be read; they hold the
name of a kind, a checksum and the text of records. -/
structure Reads (row : StoredRow) (name sum text : String) : Prop where
  kind : row.kind = .text name
  addedAt : ∃ time, row.addedAt = .text time ∧ Timestamp.isValid time
  checksum : row.checksum = .text sum
  records : row.records = .text text

/-- The row holds the dataset: its cells can be read, the kind is known, the
checksum is that of the text, and the text is a list of JSON values that the
records are decoded from. -/
inductive Holds (row : StoredRow) : Dataset → Prop
  | intro {name text : String} {kind : Kind} {items : List Json}
      {records : List Record} :
      row.Reads name (Digest.ofText text) text →
      Kind.ofName? name = some kind →
      Json.read? Json.defaultMaxDepth text = some (.array items) →
      List.Forall₂ (fun item record => RecordReader.read kind item = .ok record)
        items records →
      Holds row ⟨row.id, kind, records⟩

/-- What is wrong with a row, and the error that it is reported by. The cells
are read before anything is made of them, and of several faults the first one
counts. -/
inductive Fault (row : StoredRow) : Error → Prop
  | unreadable {cause : String} :
      (∀ name sum text, ¬row.Reads name sum text) →
      Fault row (.storage cause)
  | unknownKind {name sum text : String} :
      row.Reads name sum text → Kind.ofName? name = none →
      Fault row (.corrupted (.unknownKind row.id name))
  | checksum {name sum text : String} {kind : Kind} :
      row.Reads name sum text → Kind.ofName? name = some kind →
      Digest.ofText text ≠ sum →
      Fault row (.corrupted (.checksum row.id))
  | noList {name text cause : String} {kind : Kind} :
      row.Reads name (Digest.ofText text) text →
      Kind.ofName? name = some kind →
      (∀ items, Json.read? Json.defaultMaxDepth text ≠ some (.array items)) →
      Fault row (.storage cause)
  | record {name text : String} {kind : Kind} {before after : List Json}
      {item : Json} {fault : RecordFault} :
      row.Reads name (Digest.ofText text) text →
      Kind.ofName? name = some kind →
      Json.read? Json.defaultMaxDepth text
        = some (.array (before ++ item :: after)) →
      (∀ other ∈ before, ∃ record,
        RecordReader.read kind other = .ok record) →
      RecordReader.read kind item = .error fault →
      Fault row (.corrupted (.record row.id kind fault))

end StoredRow

namespace Storage

variable {row : StoredRow} {name sum text : String}

/-- Cells that can be read are judged in order: the kind, the checksum, the
records. -/
theorem restoreRow_of_reads (h : row.Reads name sum text) :
    restoreRow row = match Kind.ofName? name with
      | none => .error (.corrupted (.unknownKind row.id name))
      | some kind =>
        if Digest.ofText text ≠ sum then
          .error (.corrupted (.checksum row.id))
        else (fun records => ⟨row.id, kind, records⟩) <$>
          readRecords row.id kind text := by
  have hname := Cell.readText_eq_ok.mpr h.kind
  have htime := Cell.readTime_eq_ok.mpr h.addedAt
  have hsum := Cell.readText_eq_ok.mpr h.checksum
  have htext := Cell.readText_eq_ok.mpr h.records
  simp only [restoreRow, hname, htime, hsum, htext, bind, Except.bind]
  cases Kind.ofName? name with
  | none => rfl
  | some kind =>
    by_cases hsame : Digest.ofText text = sum
    · simp only [hsame, ne_eq, not_true_eq_false, if_false]
      cases readRecords row.id kind text <;> rfl
    · simp [hsame]

/-- A row with a cell that cannot be read is a failure of storage. -/
theorem storage_of_not_reads (h : ∀ name sum text, ¬row.Reads name sum text) :
    ∃ cause, restoreRow row = .error (.storage cause) := by
  cases hname : row.kind.readText with
  | error e =>
    obtain ⟨cause, rfl⟩ := Cell.storage_of_readText hname
    exact ⟨cause, by simp [restoreRow, hname, bind, Except.bind]⟩
  | ok name =>
    cases htime : row.addedAt.readTime with
    | error e =>
      obtain ⟨cause, rfl⟩ := Cell.storage_of_readTime htime
      exact ⟨cause, by simp [restoreRow, hname, htime, bind, Except.bind]⟩
    | ok done =>
      cases hsum : row.checksum.readText with
      | error e =>
        obtain ⟨cause, rfl⟩ := Cell.storage_of_readText hsum
        exact ⟨cause,
          by simp [restoreRow, hname, htime, hsum, bind, Except.bind]⟩
      | ok sum =>
        cases htext : row.records.readText with
        | error e =>
          obtain ⟨cause, rfl⟩ := Cell.storage_of_readText htext
          exact ⟨cause, by
            simp [restoreRow, hname, htime, hsum, htext, bind, Except.bind]⟩
        | ok text =>
          refine absurd ?_ (h name sum text)
          exact ⟨Cell.readText_eq_ok.mp hname, Cell.readTime_eq_ok.mp htime,
            Cell.readText_eq_ok.mp hsum, Cell.readText_eq_ok.mp htext⟩

/-! ### Records -/

theorem read?_items_eq_some {items : List Json} :
    (Json.read? Json.defaultMaxDepth text).bind Json.items? = some items ↔
      Json.read? Json.defaultMaxDepth text = some (.array items) := by
  simp [Option.bind_eq_some_iff, Query.items?_eq_some]

theorem readRecords_eq_ok {id : String} {kind : Kind} {records : List Record} :
    readRecords id kind text = .ok records ↔
      ∃ items, Json.read? Json.defaultMaxDepth text = some (.array items) ∧
        List.Forall₂ (fun item record =>
          RecordReader.read kind item = .ok record) items records := by
  simp only [← read?_items_eq_some, readRecords]
  cases (Json.read? Json.defaultMaxDepth text).bind Json.items? with
  | none => simp
  | some items => simp [mapM_eq_ok, mapError_eq_ok]

/-- The text is no list, or there is a first value in it that no record is
decoded from. -/
theorem readRecords_eq_error {id : String} {kind : Kind} {e : Error}
    (h : readRecords id kind text = .error e) :
    ((∃ cause, e = .storage cause) ∧
      ∀ items, Json.read? Json.defaultMaxDepth text ≠ some (.array items)) ∨
    ∃ before item after fault,
      Json.read? Json.defaultMaxDepth text
        = some (.array (before ++ item :: after)) ∧
      (∀ other ∈ before, ∃ record,
        RecordReader.read kind other = .ok record) ∧
      RecordReader.read kind item = .error fault ∧
      e = .corrupted (.record id kind fault) := by
  simp only [← read?_items_eq_some, ne_eq]
  unfold readRecords at h
  cases hread : (Json.read? Json.defaultMaxDepth text).bind Json.items? with
  | none =>
    rw [hread] at h
    exact .inl ⟨⟨_, (Except.error.inj h).symm⟩, by simp⟩
  | some items =>
    rw [hread] at h
    obtain ⟨before, item, after, rfl, hbefore, hitem⟩ := mapM_eq_error.mp h
    obtain ⟨fault, hfault, rfl⟩ := mapError_eq_error.mp hitem
    simp only [mapError_eq_ok] at hbefore
    exact .inr ⟨before, item, after, fault, rfl, hbefore, hfault, rfl⟩

/-! ### Restoring -/

/-- A row is restored exactly if it holds a dataset, as that dataset. -/
theorem restoreRow_eq_ok {dataset : Dataset} :
    restoreRow row = .ok dataset ↔ row.Holds dataset := by
  constructor
  · intro h
    by_cases hreads : ∃ name sum text, row.Reads name sum text
    · obtain ⟨name, sum, text, hreads⟩ := hreads
      rw [restoreRow_of_reads hreads] at h
      cases hkind : Kind.ofName? name with
      | none => simp [hkind] at h
      | some kind =>
        simp only [hkind] at h
        by_cases hsum : Digest.ofText text = sum
        · subst hsum
          simp only [ne_eq, not_true_eq_false, if_false, map_eq_ok,
            readRecords_eq_ok] at h
          obtain ⟨records, ⟨items, hitems, hrecords⟩, rfl⟩ := h
          exact .intro hreads hkind hitems hrecords
        · simp [hsum] at h
    · have hnone : ∀ name sum text, ¬row.Reads name sum text :=
        fun name sum text hread => hreads ⟨name, sum, text, hread⟩
      obtain ⟨cause, hcause⟩ := storage_of_not_reads hnone
      rw [hcause] at h
      cases h
  · intro h
    cases h with
    | intro hreads hkind hitems hrecords =>
      rw [restoreRow_of_reads hreads, hkind]
      simp only [ne_eq, not_true_eq_false, if_false, map_eq_ok,
        readRecords_eq_ok]
      exact ⟨_, ⟨_, hitems, hrecords⟩, rfl⟩

/-- A row that is not restored has a fault, and is reported by it. -/
theorem fault_of_restoreRow {e : Error} (h : restoreRow row = .error e) :
    row.Fault e := by
  by_cases hreads : ∃ name sum text, row.Reads name sum text
  · obtain ⟨name, sum, text, hreads⟩ := hreads
    rw [restoreRow_of_reads hreads] at h
    cases hkind : Kind.ofName? name with
    | none =>
      simp only [hkind, Except.error.injEq] at h
      exact h ▸ .unknownKind hreads hkind
    | some kind =>
      simp only [hkind] at h
      by_cases hsum : Digest.ofText text = sum
      · subst hsum
        simp only [ne_eq, not_true_eq_false, if_false, map_eq_error] at h
        rcases readRecords_eq_error h with ⟨⟨cause, rfl⟩, hnone⟩ |
          ⟨before, item, after, fault, hread, hbefore, hitem, rfl⟩
        · exact .noList hreads hkind hnone
        · exact .record hreads hkind hread hbefore hitem
      · simp only [hsum, ne_eq, not_false_eq_true, if_true,
          Except.error.injEq] at h
        exact h ▸ .checksum hreads hkind hsum
  · have hnone : ∀ name sum text, ¬row.Reads name sum text :=
      fun name sum text hread => hreads ⟨name, sum, text, hread⟩
    obtain ⟨cause, hcause⟩ := storage_of_not_reads hnone
    rw [hcause] at h
    exact Except.error.inj h ▸ .unreadable hnone

end Storage

/-! ## Requests about one id -/

/-- What is not on the shelf is not taken off it. -/
theorem Shelf.release_of_get?_eq_none {shelf : Shelf} {id : String}
    (h : shelf.get? id = none) : shelf.release id = shelf := by
  have hkept : shelf.datasets.filter (·.id ≠ id) = shelf.datasets :=
    List.filter_eq_self.mpr (by simpa [get?] using h)
  rw [release, hkept]

namespace Query

/-- The answer to a query depends on the dataset that it is bound to only. -/
theorem perform_congr {source other : Source} {raw : Json}
    (h : ∀ id, boundDataset raw = .ok id → source id = other id) :
    perform source raw = perform other raw := by
  unfold perform validate
  cases hbound : boundDataset raw with
  | error e => rfl
  | ok id => simp [bind, Except.bind, h id hbound]

/-- A query is refused with what its source reports. -/
theorem perform_of_error {source : Source} {raw : Json} {id : String}
    {e : Error} (hbound : boundDataset raw = .ok id)
    (h : source id = .error e) :
    perform source raw = .error (.invalid (.reported e.message)) := by
  simp [perform, validate, hbound, h, settle, refuse, bind, Except.bind]

end Query

namespace Registry

variable {registry other : Registry} {id : String}

/-- The row of an id decides what is restored for it. -/
theorem resolve_congr (hshelf : registry.shelf.get? id = other.shelf.get? id)
    (hrow : registry.storage.find? id = other.storage.find? id) :
    (registry.resolve id).1 = (other.resolve id).1 := by
  unfold resolve Storage.restore
  rw [hshelf, hrow]
  cases other.shelf.get? id with
  | some dataset => rfl
  | none =>
    cases Option.mapM Storage.restoreRow (other.storage.find? id) with
    | error e => rfl
    | ok found => cases found <;> rfl

/-- Tables that differ in the row of one id only have the same rows for all
others. -/
theorem find?_of_filter_eq {storage table : Storage}
    (h : storage.rows.filter (·.id ≠ id) = table.rows.filter (·.id ≠ id))
    {key : String} (hkey : key ≠ id) :
    storage.find? key = table.find? key := by
  have hfind : ∀ storage : Storage, storage.find? key
      = (storage.rows.filter (·.id ≠ id)).find? (·.id = key) := by
    intro storage
    rw [List.find?_filter, Storage.find?]
    refine congrArg (List.find? · storage.rows) (funext fun row => ?_)
    by_cases hrow : row.id = key <;> simp [hrow, hkey]
  rw [hfind storage, hfind table, h]

/-- If restoring fails, nothing is loaded. -/
theorem resolve_of_error {e : Error} (h : (registry.resolve id).1 = .error e) :
    registry.resolve id = (.error e, registry) := by
  unfold resolve at h ⊢
  cases hget : registry.shelf.get? id with
  | some dataset => simp [hget] at h
  | none =>
    cases hrestore : registry.storage.restore id with
    | error fault => simpa [hget, hrestore] using h
    | ok found => cases found <;> simp [hget, hrestore] at h

/-- A query that is bound to such a dataset is refused. -/
theorem query_of_error {raw : Json} {e : Error}
    (hbound : Query.boundDataset raw = .ok id)
    (h : (registry.resolve id).1 = .error e) :
    registry.query raw
      = (.error (.invalid (.reported e.message)), registry) := by
  have hanswer : Query.perform registry.source raw
      = .error (.invalid (.reported e.message)) :=
    Query.perform_of_error hbound h
  have hafter : registry.afterBinding raw = registry := by
    simp [afterBinding, hbound, resolve_of_error h]
  rw [query, hanswer, hafter]

/-- Queries that are not about an id are answered as with another row for it. -/
theorem query_congr {raw : Json} (hbound : Query.boundDataset raw ≠ .ok id)
    (hshelf : other.shelf = registry.shelf)
    (hrows : other.storage.rows.filter (·.id ≠ id)
      = registry.storage.rows.filter (·.id ≠ id)) :
    (registry.query raw).1 = (other.query raw).1 := by
  refine Query.perform_congr fun key hkey => ?_
  have hne : key ≠ id := fun h => hbound (h ▸ hkey)
  exact resolve_congr (by rw [hshelf]) (find?_of_filter_eq hrows hne).symm

/-- A dataset that is only stored can be removed, whatever its row holds. -/
theorem remove_of_row {row : StoredRow} (hid : Dataset.isValidId id)
    (hnew : registry.shelf.get? id = none)
    (hrow : registry.storage.find? id = some row) :
    registry.remove id
      = (.ok id, ⟨registry.shelf, (registry.storage.forget id).2⟩) := by
  have hstored : registry.contains id := by
    simp [contains, Storage.contains, hrow]
  have hcheck : Dataset.checkId id = .ok () := Dataset.checkId_eq_ok.mpr hid
  simp [remove, hcheck, hstored, Shelf.release_of_get?_eq_none hnew]

/-- A dataset that is not loaded is restored from its row, if that holds one.
If not, the registry stays as it is, with the fault of the row for an answer:
queries about the id are refused, all others are answered as with any other
row for it, and a valid id can be removed. -/
theorem resolve_unloaded (hnew : registry.shelf.get? id = none) :
    (registry.storage.find? id = none →
      registry.resolve id = (.ok none, registry)) ∧
    ∀ row, registry.storage.find? id = some row →
      (∀ found, (registry.resolve id).1 = .ok found ↔
        ∃ dataset, row.Holds dataset ∧ some dataset = found) ∧
      ∀ e, (registry.resolve id).1 = .error e →
        row.Fault e ∧ (registry.resolve id).2 = registry ∧
        (∀ raw, Query.boundDataset raw = .ok id → registry.query raw
          = (.error (.invalid (.reported e.message)), registry)) ∧
        (∀ (raw : Json) (other : Registry),
          Query.boundDataset raw ≠ .ok id → other.shelf = registry.shelf →
          other.storage.rows.filter (·.id ≠ id)
            = registry.storage.rows.filter (·.id ≠ id) →
          (registry.query raw).1 = (other.query raw).1) ∧
        (Dataset.isValidId id →
          registry.remove id = (.ok id,
            ⟨registry.shelf, (registry.storage.forget id).2⟩) ∧
          (registry.storage.forget id).2.find? id = none) := by
  refine ⟨fun hnone => ?_, fun row hrow => ⟨fun found => ?_, fun e he => ?_⟩⟩
  · unfold resolve Storage.restore
    rw [hnew, hnone]
    rfl
  · rw [resolve_fst_of_row hnew hrow, map_eq_ok]
    simp only [Storage.restoreRow_eq_ok]
  · have hfault : Storage.restoreRow row = .error e := by
      rwa [resolve_fst_of_row hnew hrow, map_eq_error] at he
    refine ⟨Storage.fault_of_restoreRow hfault, ?_, ?_, ?_, ?_⟩
    · rw [resolve_of_error he]
    · exact fun raw hbound => query_of_error hbound he
    · exact fun raw other => query_congr
    · refine fun hid => ⟨remove_of_row hid hnew hrow, ?_⟩
      simp [Storage.forget, Storage.find?]

/-- A registry after a restart, whose only row has been altered. -/
def altered (change : StoredRow → StoredRow) : Registry :=
  ⟨.empty, ⟨[change (Storage.rowOf
    ⟨"courses", .sections, [passedBy (.ofInt 40)]⟩ (Timestamp.ofTick 0))], 1⟩⟩

/-- The row says that it holds floors. -/
def filedUnderFloors : Registry :=
  altered fun row => { row with kind := .text "floors" }

/-- It is not restored, queries about it are refused, and it can be
removed. -/
theorem resolve_unloaded_floors :
    (filedUnderFloors.resolve "courses").1
      = .error (.corrupted (.unknownKind "courses" "floors")) ∧
    (∃ cause, filedUnderFloors.query Query.titles
      = (.error (.invalid cause), filedUnderFloors)) ∧
    (filedUnderFloors.remove "courses").1 = .ok "courses" := by
  have hfault : (filedUnderFloors.resolve "courses").1
      = .error (.corrupted (.unknownKind "courses" "floors")) := by
    decide +kernel
  have hnew : filedUnderFloors.shelf.get? "courses" = none := rfl
  obtain ⟨-, hrows⟩ := resolve_unloaded hnew
  obtain ⟨-, hfaults⟩ := hrows _ rfl
  obtain ⟨-, -, hquery, -, hremove⟩ := hfaults _ hfault
  refine ⟨hfault, ⟨_, hquery Query.titles (by decide +kernel)⟩, ?_⟩
  rw [(hremove (by decide +kernel)).1]

/-- The row says that it holds floors, and never to have been added. -/
def filedUnderFloorsNever : Registry :=
  altered fun row =>
    { row with kind := .text "floors", addedAt := .text "never" }

def sealedInBytes : Registry :=
  altered fun row => { row with checksum := .bytes [] }

/-- Rows of an unknown kind or with a wrong checksum are not always reported
as corrupted: a cell that cannot be read comes before both. -/
theorem resolve_unreadable :
    (∃ row name, filedUnderFloorsNever.storage.find? "courses" = some row ∧
      row.kind = .text name ∧ Kind.ofName? name = none ∧
      ∃ cause, (filedUnderFloorsNever.resolve "courses").1
        = .error (.storage cause)) ∧
    ∃ row text, sealedInBytes.storage.find? "courses" = some row ∧
      row.records = .text text ∧ row.checksum ≠ .text (Digest.ofText text) ∧
      ∃ cause, (sealedInBytes.resolve "courses").1
        = .error (.storage cause) := by
  refine ⟨⟨_, "floors", rfl, rfl, by decide +kernel, _, rfl⟩, ?_⟩
  exact ⟨_, _, rfl, rfl, nofun, _, rfl⟩

end Registry

end CampusQuery
