/-
CampusQuery.Proofs.Record.Json — records that survive being written.

A record is read from an object if every field of the record is spelled by
the member of its name. What a written record is read as is the record
itself exactly if all its numbers read back and it is no room without a
name: `read_reread_iff`.
-/
import CampusQuery.Proofs.Json.Members
import CampusQuery.Proofs.Json.RoundTrip
import CampusQuery.Proofs.Outcome
import CampusQuery.Record.Json

namespace CampusQuery

open Outcome

/-! ## Fields -/

/-- The JSON value spells the value of a field. -/
inductive Spells : Json → Value → Prop
  | text (value : String) : Spells (.string value) (.text value)
  | number (n : JsonNumber) : Spells (.number n) (.number n.toBinary64)

/-- The member of that name spells the value. -/
def HasField (members : List (String × Json)) (name : String)
    (value : Value) : Prop :=
  ∃ json, members.lookup name = some json ∧ Spells json value

theorem spells_text_iff {json : Json} {text : String} :
    Spells json (.text text) ↔ json = .string text := by
  constructor
  · rintro ⟨⟩
    rfl
  · rintro rfl
    exact .text text

theorem spells_number_iff {json : Json} {x : Numeric.Binary64} :
    Spells json (.number x) ↔ ∃ n, json = .number n ∧ n.toBinary64 = x := by
  constructor
  · rintro ⟨⟩
    exact ⟨_, rfl, rfl⟩
  · rintro ⟨n, rfl, rfl⟩
    exact .number n

def Value.type : Value → FieldType
  | text _ => .text
  | number _ => .numeric

/-- Every field of a record stands in the layout of its kind. -/
theorem Record.layout_lookup (record : Record) {name : String}
    {value : Value} (h : (name, value) ∈ record.fields) :
    record.kind.layout.lookup name = some value.type := by
  have hall : ∀ field ∈ record.fields,
      record.kind.layout.lookup field.1 = some field.2.type := by
    cases record <;>
      simp [fields, kind, Section.fields, Room.fields, Kind.layout,
        Value.type, List.lookup_cons]
  exact hall _ h

theorem Record.nodup_fields (record : Record) :
    (record.fields.map Prod.fst).Nodup := by
  cases record <;> simp [fields, Section.fields, Room.fields]

theorem Room.name_mem_fields (r : Room) (name : String) :
    ("name", .text name) ∈ (Record.ofRoom r).fields ↔ name = r.name := by
  simp [Record.fields, Room.fields]

/-- A room that is read has a name. -/
theorem Room.withName_name_ne (r : Room) : r.withName.name ≠ "" := by
  unfold withName
  split
  · have hderived : (derivedName r.shortname r.number).toList ≠ [] := by
      change (r.shortname ++ "_" ++ r.number).toList ≠ []
      simp
    intro hempty
    exact hderived (congrArg String.toList hempty)
  · assumption

namespace RecordReader

variable {members : List (String × Json)} {name : String}

theorem text_eq_ok {value : String} :
    text members name = .ok value ↔ HasField members name (.text value) := by
  unfold RecordReader.text HasField
  simp only [spells_text_iff, exists_eq_right]
  cases members.lookup name with
  | none => simp
  | some json => cases json <;> simp

theorem number_eq_ok {x : Numeric.Binary64} :
    number members name = .ok x ↔ HasField members name (.number x) := by
  unfold number HasField
  simp only [spells_number_iff]
  cases members.lookup name with
  | none => simp
  | some json => cases json <;> simp

theorem optionalText_eq_ok {text value : String}
    (h : HasField members name (.text text)) :
    optionalText members name = .ok value ↔ text = value := by
  obtain ⟨json, hlookup, hjson⟩ := h
  obtain rfl := spells_text_iff.mp hjson
  simp [optionalText, RecordReader.text, hlookup]

/-! ## Reading -/

/-- A section is read if every field of it is spelled. -/
theorem sectionOf_eq_ok {s : Section} :
    sectionOf members = .ok s ↔
      ∀ field ∈ s.fields, HasField members field.1 field.2 := by
  unfold sectionOf
  simp only [bind_eq_ok, text_eq_ok, number_eq_ok, pure_eq_ok,
    Section.fields, List.forall_mem_cons]
  constructor
  · rintro ⟨_, h1, _, h2, _, h3, _, h4, _, h5, _, h6, _, h7, _, h8, _, h9,
      _, h10, rfl⟩
    exact ⟨h1, h2, h3, h4, h5, h6, h7, h8, h9, h10, by simp⟩
  · rintro ⟨h1, h2, h3, h4, h5, h6, h7, h8, h9, h10, -⟩
    exact ⟨_, h1, _, h2, _, h3, _, h4, _, h5, _, h6, _, h7, _, h8, _, h9,
      _, h10, rfl⟩

/-- A room that has its name written is read if every field of it is
spelled; it must have a name, since another one would be derived. -/
theorem roomOf_eq_ok {r : Room}
    (hname : HasField members "name" (.text r.name)) :
    roomOf members = .ok r ↔
      (∀ field ∈ r.fields, HasField members field.1 field.2) ∧
        r.name ≠ "" := by
  unfold roomOf
  simp only [bind_eq_ok, text_eq_ok, number_eq_ok, optionalText_eq_ok hname,
    pure_eq_ok, Room.fields, List.forall_mem_cons]
  constructor
  · rintro ⟨_, h1, _, h2, _, h3, _, rfl, _, h5, _, h6, _, h7, _, h8, _, h9,
      _, h10, _, h11, hr⟩
    have hne : r.name ≠ "" := hr ▸ Room.withName_name_ne _
    rw [Room.withName, if_neg hne] at hr
    cases r
    simp only [Room.mk.injEq, true_and] at hr
    obtain ⟨rfl, rfl, rfl, rfl, rfl, rfl, rfl, rfl, rfl, rfl⟩ := hr
    exact ⟨⟨h1, h2, h3, hname, h5, h6, h7, h8, h9, h10, h11, by simp⟩, hne⟩
  · rintro ⟨⟨h1, h2, h3, -, h5, h6, h7, h8, h9, h10, h11, -⟩, hne⟩
    exact ⟨_, h1, _, h2, _, h3, _, rfl, _, h5, _, h6, _, h7, _, h8, _, h9,
      _, h10, _, h11, by rw [Room.withName, if_neg hne]⟩

/-- Members that spell fields of a record are of the right types. -/
theorem checkMembers_eq_ok {record : Record}
    (h : ∀ member ∈ members, ∃ value,
      (member.1, value) ∈ record.fields ∧ Spells member.2 value) :
    checkMembers record.kind members = .ok () := by
  refine forM_eq_ok.mpr fun ⟨name, json⟩ hmember => ?_
  obtain ⟨value, hfield, hspells⟩ := h _ hmember
  simp only [record.layout_lookup hfield]
  cases hspells <;> rfl

/-- A record that has its name written, if it is a room, is read if every
field of it is spelled. -/
theorem recordOf_eq_ok {record : Record}
    (hname : ∀ text, ("name", .text text) ∈ record.fields →
      HasField members "name" (.text text)) :
    recordOf record.kind members = .ok record ↔
      (∀ field ∈ record.fields, HasField members field.1 field.2) ∧
        ("name", .text "") ∉ record.fields := by
  cases record with
  | ofSection s =>
    have hnone : ("name", Value.text "") ∉ (Record.ofSection s).fields := by
      simp [Record.fields, Section.fields]
    simp only [Record.kind, recordOf, map_eq_ok, Record.ofSection.injEq,
      exists_eq_right, sectionOf_eq_ok]
    exact (and_iff_left hnone).symm
  | ofRoom r =>
    have hspelled := hname r.name (by simp [Record.fields, Room.fields])
    have hempty := (Room.name_mem_fields r "").not.trans ne_comm
    simp only [Record.kind, recordOf, map_eq_ok, Record.ofRoom.injEq,
      exists_eq_right, roomOf_eq_ok hspelled, hempty]
    rfl

/-- A record that is read is of the kind it is read as, and no room without
a name. -/
theorem named_of_recordOf {kind : Kind} {record : Record}
    (h : recordOf kind members = .ok record) :
    record.kind = kind ∧ ("name", .text "") ∉ record.fields := by
  cases kind with
  | sections =>
    obtain ⟨s, -, rfl⟩ := map_eq_ok.mp h
    exact ⟨rfl, by simp [Record.fields, Section.fields]⟩
  | rooms =>
    obtain ⟨r, hr, rfl⟩ := map_eq_ok.mp h
    refine ⟨rfl, ?_⟩
    unfold roomOf at hr
    simp only [bind_eq_ok, pure_eq_ok] at hr
    obtain ⟨_, -, _, -, _, -, _, -, _, -, _, -, _, -, _, -, _, -, _, -, _, -,
      rfl⟩ := hr
    exact fun hmem =>
      Room.withName_name_ne _ ((Room.name_mem_fields _ _).mp hmem).symm

theorem named_of_read {kind : Kind} {json : Json} {record : Record}
    (h : read kind json = .ok record) :
    record.kind = kind ∧ ("name", .text "") ∉ record.fields := by
  unfold read at h
  split at h
  · obtain ⟨-, -, hrecord⟩ := bind_eq_ok.mp h
    exact named_of_recordOf hrecord
  · obtain ⟨-, -, h⟩ := bind_eq_ok.mp h
    obtain ⟨-, -, hrecord⟩ := bind_eq_ok.mp h
    exact named_of_recordOf hrecord
  · cases h

end RecordReader

/-! ## Writing and reading -/

/-- The record comes back as it is when it is written and read. -/
structure Record.IsDurable (record : Record) : Prop where
  numbers : ∀ name x, (name, .number x) ∈ record.fields → Json.ReadsBack x
  named : ("name", .text "") ∉ record.fields

/-- Whether the number of a field reads back, if it has one. -/
def Record.readsBack : String × Value → Bool
  | (_, .number x) => decide (Json.ReadsBack x)
  | (_, .text _) => true

instance (record : Record) : Decidable record.IsDurable :=
  decidable_of_iff
    (record.fields.all Record.readsBack ∧ ("name", .text "") ∉ record.fields) <| by
    rw [List.all_eq_true]
    constructor
    · rintro ⟨hnumbers, hnamed⟩
      exact ⟨fun name x hmem => of_decide_eq_true (hnumbers _ hmem), hnamed⟩
    · rintro ⟨hnumbers, hnamed⟩
      refine ⟨?_, hnamed⟩
      rintro ⟨name, value⟩ hmem
      cases value with
      | text text => rfl
      | number x => exact decide_eq_true (hnumbers name x hmem)

def ReadAs (field : String × Value) (member : String × Json) : Prop :=
  member.1 = field.1 ∧
    (Record.fieldJson field.2).reread = some member.2

theorem rereadMembers_eq_some {fields : List (String × Value)}
    {read : List (String × Json)} :
    Json.rereadMembers
        (fields.map fun field => (field.1, Record.fieldJson field.2))
          = some read ↔
      List.Forall₂ ReadAs fields read := by
  induction fields generalizing read with
  | nil =>
    rw [List.map_nil, Json.rereadMembers, Option.some.injEq,
      List.forall₂_nil_left_iff]
    exact eq_comm
  | cons field fields ih =>
    rw [List.map_cons, Json.rereadMembers, List.forall₂_cons_left_iff]
    simp only [Option.bind_eq_some_iff, Option.map_eq_some_iff, ih]
    constructor
    · rintro ⟨json, hjson, rest, hrest, rfl⟩
      exact ⟨(field.1, json), rest, ⟨rfl, hjson⟩, hrest, rfl⟩
    · rintro ⟨⟨_, json⟩, rest, ⟨rfl, hjson⟩, hrest, rfl⟩
      exact ⟨json, hjson, rest, hrest, rfl⟩

theorem map_fst_of_readAs {fields : List (String × Value)}
    {read : List (String × Json)} (h : List.Forall₂ ReadAs fields read) :
    read.map Prod.fst = fields.map Prod.fst := by
  induction h with
  | nil => rfl
  | cons hfield _ ih => rw [List.map_cons, List.map_cons, hfield.1, ih]

namespace Record

/-- The members of the object that a written record is read as. -/
theorem sorted_perm {record : Record} {read : List (String × Json)}
    (h : List.Forall₂ ReadAs record.fields read) :
    (Json.sortMembers read).Perm read :=
  Json.sortMembers_perm (map_fst_of_readAs h ▸ record.nodup_fields)

/-- What a field of a written record is read as. -/
theorem hasField_iff {record : Record} {read : List (String × Json)}
    (h : List.Forall₂ ReadAs record.fields read) {name : String}
    {value other : Value} (hfield : (name, value) ∈ record.fields) :
    HasField (Json.sortMembers read) name other ↔
      ∃ json, (fieldJson value).reread = some json ∧ Spells json other := by
  obtain ⟨⟨key, json⟩, hmem, hkey, hjson⟩ := exists_of_forall₂ h hfield
  obtain rfl : key = name := hkey
  have hnodup : (read.map Prod.fst).Nodup :=
    map_fst_of_readAs h ▸ record.nodup_fields
  have hlookup : (Json.sortMembers read).lookup key = some json := by
    rw [Json.lookup_of_perm hnodup (sorted_perm h)]
    exact Json.lookup_of_mem hnodup hmem
  simp only [HasField, hlookup, hjson]

/-- A text comes back as it is. -/
theorem spells_reread_text (text : String) :
    ∃ json, (fieldJson (.text text)).reread = some json ∧
      Spells json (.text text) :=
  ⟨.string text, rfl, .text text⟩

/-- A number comes back as it is exactly if its literal reads back. -/
theorem spells_reread_number_iff {x : Numeric.Binary64} :
    (∃ json, (fieldJson (.number x)).reread = some json ∧
      Spells json (.number x)) ↔ Json.ReadsBack x := by
  have hliteral : ∀ lexeme : List Char,
      (∃ json, (Json.readNumber? lexeme).map Json.number = some json ∧
        Spells json (.number x)) ↔
      (Json.readNumber? lexeme).map JsonNumber.toBinary64 = some x := by
    intro lexeme
    simp only [spells_number_iff, Option.map_eq_some_iff]
    constructor
    · rintro ⟨_, ⟨n, hn, rfl⟩, m, hm, rfl⟩
      cases hm
      exact ⟨n, hn, rfl⟩
    · rintro ⟨n, hn, rfl⟩
      exact ⟨_, ⟨n, hn, rfl⟩, n, rfl, rfl⟩
  have hnull : (∃ json, some Json.null = some json ∧
      Spells json (.number x)) ↔
      (Json.readNumber? "null".toList).map JsonNumber.toBinary64 = some x := by
    have hread : Json.readNumber? "null".toList = none := by decide
    rw [hread]
    simp [spells_number_iff]
  cases x with
  | nan => exact hnull
  | signed negative magnitude =>
    unfold Json.ReadsBack
    rw [fieldJson, Json.reread, Json.rereadNumber, Json.numberChars]
    split
    · exact hliteral _
    · exact hnull

/-- Reading what was written of a record gives the record exactly if it is
durable. -/
theorem read_reread_iff (record : Record) :
    (∃ json, record.toJson.reread = some json ∧
      RecordReader.read record.kind json = .ok record) ↔
    record.IsDurable := by
  have hwritten : ∀ json, record.toJson.reread = some json ↔
      ∃ read, List.Forall₂ ReadAs record.fields read ∧
        json = .object (Json.sortMembers read) := by
    intro json
    rw [toJson, Json.reread, Option.map_eq_some_iff]
    simp only [← rereadMembers_eq_some]
    exact exists_congr fun read => and_congr_right fun _ => eq_comm
  have hread : ∀ read, List.Forall₂ ReadAs record.fields read →
      (RecordReader.recordOf record.kind (Json.sortMembers read)
          = .ok record ↔
        (∀ field ∈ record.fields,
          HasField (Json.sortMembers read) field.1 field.2) ∧
        ("name", .text "") ∉ record.fields) := fun read h =>
    RecordReader.recordOf_eq_ok fun text hfield =>
      (hasField_iff h hfield).mpr (spells_reread_text text)
  constructor
  · rintro ⟨json, hjson, hok⟩
    obtain ⟨read, hreadAs, rfl⟩ := (hwritten json).mp hjson
    obtain ⟨_, -, hrecord⟩ := bind_eq_ok.mp hok
    obtain ⟨hfields, hnamed⟩ := (hread read hreadAs).mp hrecord
    refine ⟨fun name x hfield => ?_, hnamed⟩
    exact spells_reread_number_iff.mp
      ((hasField_iff hreadAs hfield).mp (hfields _ hfield))
  · rintro ⟨hnumbers, hnamed⟩
    have hspelled : ∀ field ∈ record.fields, ∃ member,
        ReadAs field member ∧ Spells member.2 field.2 := by
      rintro ⟨name, value⟩ hfield
      have hvalue : ∃ json, (fieldJson value).reread = some json ∧
          Spells json value := by
        cases value with
        | text text => exact spells_reread_text text
        | number x =>
          exact spells_reread_number_iff.mpr (hnumbers name x hfield)
      obtain ⟨json, hjson, hspells⟩ := hvalue
      exact ⟨(name, json), ⟨rfl, hjson⟩, hspells⟩
    obtain ⟨read, hboth⟩ := exists_forall₂ hspelled
    have hreadAs : List.Forall₂ ReadAs record.fields read :=
      hboth.imp fun _ _ h => h.1
    refine ⟨_, (hwritten _).mpr ⟨read, hreadAs, rfl⟩, ?_⟩
    refine bind_eq_ok.mpr ⟨(), RecordReader.checkMembers_eq_ok ?_,
      (hread read hreadAs).mpr ⟨?_, hnamed⟩⟩
    · intro member hmember
      obtain ⟨field, hfield, ⟨hname, -⟩, hspells⟩ := exists_of_forall₂
        hboth.flip ((sorted_perm hreadAs).mem_iff.mp hmember)
      exact ⟨field.2, hname ▸ hfield, hspells⟩
    · intro field hfield
      obtain ⟨member, -, ⟨-, hjson⟩, hspells⟩ :=
        exists_of_forall₂ hboth hfield
      exact (hasField_iff hreadAs hfield).mpr ⟨member.2, hjson, hspells⟩

end Record

end CampusQuery
