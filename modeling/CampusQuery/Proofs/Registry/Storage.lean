/-
CampusQuery.Proofs.Registry.Storage — restoring what was stored.

The row of a dataset holds a known kind, a time and the right checksum, so
only the text of the records decides what is restored. It is the dataset
itself exactly if all its records are durable: `restoreRow_rowOf`.
-/
import CampusQuery.Proofs.Record.Json
import CampusQuery.Proofs.Registry.Timestamp
import CampusQuery.Registry.Storage

namespace CampusQuery

open Outcome

theorem Kind.ofName?_name (kind : Kind) : Kind.ofName? kind.name = some kind := by
  cases kind <;> decide +kernel

namespace Storage

/-! ## Records -/

theorem rereadItems_eq_some {items read : List Json} :
    Json.rereadItems items = some read ↔
      List.Forall₂ (fun item value => item.reread = some value) items read := by
  induction items generalizing read with
  | nil =>
    rw [Json.rereadItems, Option.some.injEq, List.forall₂_nil_left_iff]
    exact eq_comm
  | cons item items ih =>
    rw [Json.rereadItems, List.forall₂_cons_left_iff]
    simp only [Option.bind_eq_some_iff, Option.map_eq_some_iff, ih]
    constructor
    · rintro ⟨value, hvalue, rest, hrest, rfl⟩
      exact ⟨value, rest, hvalue, hrest, rfl⟩
    · rintro ⟨value, rest, hvalue, hrest, rfl⟩
      exact ⟨value, hvalue, rest, hrest, rfl⟩

/-- A record is written as an object without further ones inside. -/
theorem depth_toJson (record : Record) : record.toJson.depth = 1 := by
  cases record <;> rfl

theorem depth_records_le (records : List Record) :
    (Json.array (records.map Record.toJson)).depth ≤ 2 := by
  rw [Json.depth]
  induction records with
  | nil => decide
  | cons record records ih =>
    rw [List.map_cons, Json.depthOfItems, depth_toJson]
    omega

/-- The stored text of records is read item by item. -/
theorem read?_recordsText (dataset : Dataset) :
    (Json.read? Json.defaultMaxDepth (recordsText dataset)).bind Json.items? =
      Json.rereadItems (dataset.records.map Record.toJson) := by
  have hdepth := Nat.le_trans (depth_records_le dataset.records)
    (by decide : 2 ≤ Json.defaultMaxDepth)
  rw [recordsText, Json.read?, Json.readBefore?_text (by simp) hdepth,
    Json.reread]
  cases Json.rereadItems (dataset.records.map Record.toJson) <;> rfl

/-- The stored records of a dataset are read as they were exactly if all of
them are durable. -/
theorem readRecords_recordsText {dataset : Dataset}
    (hkind : ∀ record ∈ dataset.records, record.kind = dataset.kind)
    (id : String) :
    readRecords id dataset.kind (recordsText dataset) = .ok dataset.records ↔
      ∀ record ∈ dataset.records, record.IsDurable := by
  have hread : readRecords id dataset.kind (recordsText dataset)
      = .ok dataset.records ↔ ∃ items,
        List.Forall₂ (fun record item =>
          record.toJson.reread = some item ∧
            RecordReader.read dataset.kind item = .ok record)
          dataset.records items := by
    unfold readRecords
    rw [read?_recordsText]
    constructor
    · intro h
      split at h
      · cases h
      · rename_i items hitems
        rw [rereadItems_eq_some, List.forall₂_map_left_iff] at hitems
        simp only [mapM_eq_ok, mapError_eq_ok] at h
        exact ⟨items, forall₂_and hitems h.flip⟩
    · rintro ⟨items, hboth⟩
      have hitems : Json.rereadItems (dataset.records.map Record.toJson)
          = some items := by
        rw [rereadItems_eq_some, List.forall₂_map_left_iff]
        exact hboth.imp fun _ _ h => h.1
      rw [hitems]
      simp only [mapM_eq_ok, mapError_eq_ok]
      exact (hboth.imp fun _ _ h => h.2).flip
  rw [hread]
  constructor
  · rintro ⟨items, hboth⟩ record hrecord
    obtain ⟨item, -, hitem⟩ := exists_of_forall₂ hboth hrecord
    exact record.read_reread_iff.mp ⟨item, hkind record hrecord ▸ hitem⟩
  · intro hdurable
    refine exists_forall₂ fun record hrecord => ?_
    rw [← hkind record hrecord]
    exact record.read_reread_iff.mpr (hdurable record hrecord)

/-! ## Rows -/

/-- Only the text of the records decides what a stored row gives back. -/
theorem restoreRow_rowOf (dataset : Dataset) {time : String}
    (htime : Timestamp.isValid time) :
    restoreRow (rowOf dataset time) =
      (fun records => ⟨dataset.id, dataset.kind, records⟩) <$>
        readRecords dataset.id dataset.kind (recordsText dataset) := by
  have hreadTime : (Cell.text time).readTime = .ok () := by
    unfold Cell.readTime
    exact bind_eq_ok.mpr ⟨time, rfl, by rw [if_pos htime]; rfl⟩
  simp only [restoreRow, rowOf, Cell.readText, hreadTime, bind, Except.bind,
    Kind.ofName?_name, ne_eq, not_true_eq_false, if_false]
  cases readRecords dataset.id dataset.kind (recordsText dataset) <;> rfl

/-- A stored dataset is restored as it was exactly if all its records are
durable. -/
theorem restoreRow_rowOf_eq_ok {dataset : Dataset} {time : String}
    (htime : Timestamp.isValid time)
    (hkind : ∀ record ∈ dataset.records, record.kind = dataset.kind) :
    restoreRow (rowOf dataset time) = .ok dataset ↔
      ∀ record ∈ dataset.records, record.IsDurable := by
  rw [restoreRow_rowOf dataset htime,
    ← readRecords_recordsText hkind dataset.id, map_eq_ok]
  constructor
  · rintro ⟨records, hrecords, hsame⟩
    rw [hrecords, ← congrArg Dataset.records hsame]
  · intro hrecords
    exact ⟨dataset.records, hrecords, rfl⟩

/-- A stored dataset is listed with its kind and the number of its
records. -/
theorem rowInfo_rowOf (dataset : Dataset) (time : String) :
    rowInfo (rowOf dataset time) = .ok (some dataset.info) := by
  have hcount : countOf dataset.records.length = dataset.records.length := by
    rw [countOf, if_neg (by omega), Int.toNat_natCast]
  simp only [rowInfo, rowOf, Cell.readText, Cell.readInteger, bind,
    Except.bind, Kind.ofName?_name, hcount]
  rfl

end Storage

end CampusQuery
