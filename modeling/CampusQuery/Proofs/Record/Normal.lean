/-
CampusQuery.Proofs.Record.Normal — records in the form that reading gives them.

A record can be described in many ways: by an object or by a list of values,
with whole numbers or others, a room with or without its name. Reading brings
all of them into one form, in which a record has finite numbers
(`exists_number_of_read`) and every room a name. A record of this form is read
from what is written of it (`read_toJson`), and from the text of that exactly
if its numbers read back (`read?_text_toJson_iff`).
-/
import CampusQuery.Proofs.Numeric.Magnitude
import CampusQuery.Proofs.Registry.Storage

namespace CampusQuery

open Numeric Outcome

/-! ## Numbers of JSON values -/

/-- The number is one that JSON values hold: a whole number of 64 bits, or a
finite one. -/
def JsonNumber.IsValid : JsonNumber → Prop
  | integer n => Json.isWordSized n
  | real x => x.isFinite

instance : (n : JsonNumber) → Decidable n.IsValid
  | .integer n => inferInstanceAs (Decidable (Json.isWordSized n = true))
  | .real x => inferInstanceAs (Decidable (x.isFinite = true))

/-- Whole numbers of 64 bits are not rounded to infinity. -/
theorem JsonNumber.IsValid.isFinite {n : JsonNumber} (h : n.IsValid) :
    n.toBinary64.isFinite := by
  cases n with
  | real x => exact h
  | integer n =>
    simp only [IsValid, Json.isWordSized, Bool.and_eq_true,
      decide_eq_true_eq] at h
    have hsize : n.natAbs < twoTo 64 := by
      have hword : twoTo 64 = 2 * twoTo 63 := by decide
      omega
    have hbound : twoTo 64 * unitsPerOne ≤ twoTo 2097 := by decide +kernel
    refine Magnitude.isFinite_nearest ?_
    rw [Nat.div_one]
    exact Nat.lt_of_lt_of_le
      (Nat.mul_lt_mul_of_pos_right hsize unitsPerOne_pos) hbound

namespace Json

inductive HasNumber (n : JsonNumber) : Json → Prop
  | here : HasNumber n (.number n)
  | item {item : Json} {items : List Json} :
      item ∈ items → HasNumber n item → HasNumber n (.array items)
  | member {member : String × Json} {members : List (String × Json)} :
      member ∈ members → HasNumber n member.2 → HasNumber n (.object members)

end Json

/-! ## Reading -/

/-- Only the name of a room is derived. -/
theorem Room.withName_eq (r : Room) :
    r.withName = { r with name := r.withName.name } := by
  unfold withName
  split <;> rfl

namespace RecordReader

variable {kind : Kind} {members : List (String × Json)} {record : Record}
  {name : String} {x : Binary64}

/-- The numbers of a record are those of the members that it is read from. -/
theorem hasField_of_recordOf (h : recordOf kind members = .ok record)
    (hfield : (name, .number x) ∈ record.fields) :
    HasField members name (.number x) := by
  cases kind with
  | sections =>
    obtain ⟨s, hs, rfl⟩ := map_eq_ok.mp h
    exact sectionOf_eq_ok.mp hs _ hfield
  | rooms =>
    obtain ⟨r, hr, rfl⟩ := map_eq_ok.mp h
    unfold roomOf at hr
    simp only [bind_eq_ok, pure_eq_ok, number_eq_ok] at hr
    obtain ⟨_, -, _, -, _, -, _, -, _, -, lat, hlat, lon, hlon, seats, hseats,
      _, -, _, -, _, -, rfl⟩ := hr
    rw [Room.withName_eq] at hfield
    simp only [Record.fields, Room.fields, List.mem_cons, Prod.mk.injEq,
      Value.number.injEq, reduceCtorEq, and_false, false_or, List.not_mem_nil,
      or_false] at hfield
    rcases hfield with ⟨rfl, rfl⟩ | ⟨rfl, rfl⟩ | ⟨rfl, rfl⟩
    · exact hlat
    · exact hlon
    · exact hseats

/-- A field that is spelled as a number has a member that is one. -/
theorem exists_member_of_hasField (h : HasField members name (.number x)) :
    ∃ n, (name, Json.number n) ∈ members ∧ n.toBinary64 = x := by
  obtain ⟨json, hlookup, hspells⟩ := h
  obtain ⟨n, rfl, hn⟩ := spells_number_iff.mp hspells
  exact ⟨n, Json.mem_of_lookup hlookup, hn⟩

/-- Every number of a record stands in the value that it is read from. -/
theorem exists_number_of_read {value : Json} (h : read kind value = .ok record)
    (hfield : (name, .number x) ∈ record.fields) :
    ∃ n, value.HasNumber n ∧ n.toBinary64 = x := by
  unfold read at h
  split at h
  · obtain ⟨-, -, hrecord⟩ := bind_eq_ok.mp h
    obtain ⟨n, hmember, hn⟩ :=
      exists_member_of_hasField (hasField_of_recordOf hrecord hfield)
    exact ⟨n, .member hmember .here, hn⟩
  · obtain ⟨-, -, h⟩ := bind_eq_ok.mp h
    obtain ⟨-, -, hrecord⟩ := bind_eq_ok.mp h
    obtain ⟨n, hmember, hn⟩ :=
      exists_member_of_hasField (hasField_of_recordOf hrecord hfield)
    exact ⟨n, .item (List.of_mem_zip hmember).2 .here, hn⟩
  · cases h

end RecordReader

/-! ## Writing and reading -/

namespace Record

/-- A field of a record is spelled by what is written of it. -/
theorem spells_fieldJson (value : Value) : Spells (fieldJson value) value := by
  cases value with
  | text text => exact .text text
  | number x => exact .number (.real x)

/-- A record is read from the object that is written of it, unless that is a
room without a name. -/
theorem read_toJson {record : Record}
    (hnamed : ("name", .text "") ∉ record.fields) :
    RecordReader.read record.kind record.toJson = .ok record := by
  let members : List (String × Json) :=
    record.fields.map fun field => (field.1, fieldJson field.2)
  have hnames : members.map Prod.fst = record.fields.map Prod.fst := by
    simp [members, Function.comp_def]
  have hspelled : ∀ field ∈ record.fields,
      HasField members field.1 field.2 := by
    intro field hfield
    have hmember : (field.1, fieldJson field.2) ∈ members :=
      List.mem_map.mpr ⟨field, hfield, rfl⟩
    exact ⟨fieldJson field.2,
      Json.lookup_of_mem (hnames ▸ record.nodup_fields) hmember,
      spells_fieldJson field.2⟩
  have hchecked : RecordReader.checkMembers record.kind members = .ok () := by
    refine RecordReader.checkMembers_eq_ok fun member hmember => ?_
    obtain ⟨field, hfield, rfl⟩ := List.mem_map.mp hmember
    exact ⟨field.2, hfield, spells_fieldJson field.2⟩
  refine bind_eq_ok.mpr ⟨(), hchecked, ?_⟩
  exact (RecordReader.recordOf_eq_ok fun text htext => hspelled _ htext).mpr
    ⟨hspelled, hnamed⟩

/-- A record is read from the text that is written of it exactly if it is
durable. -/
theorem read?_text_toJson_iff (record : Record) :
    (∃ json, Json.read? Json.defaultMaxDepth record.toJson.text = some json ∧
      RecordReader.read record.kind json = .ok record) ↔
    record.IsDurable := by
  have hdepth : record.toJson.depth ≤ Json.defaultMaxDepth := by
    rw [Storage.depth_toJson]
    decide
  have hobject : ∀ n, record.toJson ≠ .number n := fun _ h => nomatch h
  rw [Json.read?, Json.readBefore?_text hobject hdepth]
  exact record.read_reread_iff

end Record

/-! ## Rooms without a name -/

namespace Room

/-- The members that describe a room all but its name. -/
def unnamed (fullname shortname number address : String)
    (lat lon seats : JsonNumber) (type furniture href : String) :
    List (String × Json) :=
  [("fullname", .string fullname), ("shortname", .string shortname),
    ("number", .string number), ("address", .string address),
    ("lat", .number lat), ("lon", .number lon), ("seats", .number seats),
    ("type", .string type), ("furniture", .string furniture),
    ("href", .string href)]

variable {fullname shortname number address type furniture href : String}
  {lat lon seats : JsonNumber} {members : List (String × Json)}

/-- A room that is described without a name, in any order of its members, gets
the derived one. -/
theorem read_unnamed
    (h : members.Perm (unnamed fullname shortname number address lat lon seats
      type furniture href)) :
    RecordReader.read .rooms (.object members) = .ok (.ofRoom
      (.named fullname shortname number address lat.toBinary64 lon.toBinary64
        seats.toBinary64 type furniture href)) := by
  have hkeys : ((unnamed fullname shortname number address lat lon seats type
      furniture href).map Prod.fst).Nodup := by simp [unnamed]
  have hlookup : ∀ name, members.lookup name = (unnamed fullname shortname
      number address lat lon seats type furniture href).lookup name :=
    Json.lookup_of_perm hkeys h
  have hchecked : RecordReader.checkMembers .rooms members = .ok () := by
    refine forM_eq_ok.mpr fun member hmember => ?_
    have hmem := h.mem_iff.mp hmember
    simp only [unnamed, List.mem_cons, List.not_mem_nil, or_false] at hmem
    rcases hmem with rfl | rfl | rfl | rfl | rfl | rfl | rfl | rfl | rfl | rfl <;>
      rfl
  refine bind_eq_ok.mpr ⟨(), hchecked, map_eq_ok.mpr ⟨_, ?_, rfl⟩⟩
  simp only [RecordReader.roomOf, RecordReader.text, RecordReader.number,
    RecordReader.optionalText, hlookup]
  rfl

end Room

namespace Record

/-- Every number of the record is read from its own literal. -/
def NumbersReadBack (record : Record) : Prop :=
  ∀ name x, (name, .number x) ∈ record.fields → Json.ReadsBack x

/-- Of a record that was read only the numbers can keep it from being
durable. -/
theorem isDurable_iff {kind : Kind} {value : Json} {record : Record}
    (h : RecordReader.read kind value = .ok record) :
    record.IsDurable ↔ record.NumbersReadBack :=
  ⟨fun hdurable => hdurable.numbers,
    fun hnumbers => ⟨hnumbers, (RecordReader.named_of_read h).2⟩⟩

/-- Reading brings a record into a form that lasts. A record that is read from
a JSON value is of the kind it is read as, its numbers are finite and a room has
a name; it is read again from the object that is written of it, and also from
the text of that, alone or among others in storage, exactly if its numbers read
back. A room that is described without a name is the one that is made with a
derived name. -/
theorem ofJson_settles :
    (∀ kind value record, (∀ n, value.HasNumber n → n.IsValid) →
      Record.ofJson kind value = .ok record →
        record.kind = kind ∧
        (∀ name x, (name, .number x) ∈ record.fields → x.isFinite) ∧
        (∀ room, record = .ofRoom room → room.name ≠ "") ∧
        Record.ofJson kind record.toJson = .ok record ∧
        ((∃ json,
          Json.read? Json.defaultMaxDepth record.toJson.text = some json ∧
            Record.ofJson kind json = .ok record) ↔ record.NumbersReadBack)) ∧
    (∀ id kind records, (∀ record ∈ records, ∃ value,
        Record.ofJson kind value = .ok record) →
      (Storage.readRecords id kind (Storage.recordsText ⟨id, kind, records⟩)
          = .ok records ↔ ∀ record ∈ records, record.NumbersReadBack)) ∧
    ∀ fullname shortname number address lat lon seats type furniture href
      members, members.Perm (Room.unnamed fullname shortname number address lat
        lon seats type furniture href) →
      Record.ofJson .rooms (.object members) = .ok (.ofRoom
        (.named fullname shortname number address lat.toBinary64 lon.toBinary64
          seats.toBinary64 type furniture href)) := by
  simp only [Record.ofJson, mapError_eq_ok]
  refine ⟨?_, ?_, ?_⟩
  · intro kind value record hvalid hread
    obtain ⟨rfl, hnamed⟩ := RecordReader.named_of_read hread
    refine ⟨rfl, ?_, ?_, read_toJson hnamed,
      (read?_text_toJson_iff record).trans (isDurable_iff hread)⟩
    · intro name x hfield
      obtain ⟨n, hn, rfl⟩ := RecordReader.exists_number_of_read hread hfield
      exact (hvalid n hn).isFinite
    · rintro room rfl hempty
      exact hnamed ((Room.name_mem_fields room "").mpr hempty.symm)
  · intro id kind records hread
    have hkind : ∀ record ∈ records, record.kind = kind := by
      intro record hrecord
      obtain ⟨value, hvalue⟩ := hread record hrecord
      exact (RecordReader.named_of_read hvalue).1
    refine (Storage.readRecords_recordsText hkind id).trans ?_
    refine forall₂_congr fun record hrecord => ?_
    obtain ⟨value, hvalue⟩ := hread record hrecord
    exact isDurable_iff hvalue
  · intro _ _ _ _ _ _ _ _ _ _ members h
    exact Room.read_unnamed h

/-- A room that is given as a list of values, with an empty name and whole
numbers among them, comes back from its text under the derived name; so it does
when it is described without a name. -/
theorem ofJson_settles_hall :
    let hall : Record := .ofRoom (.named "Hall" "HALL" "1" "1 Main Mall"
      (.ofRatio false 197 4) (.ofInt (-123)) (.ofInt 150) "Tiered" "Fixed"
      "hall.htm")
    let listed : Json := .array [.string "Hall", .string "HALL", .string "1",
      .string "", .string "1 Main Mall", .number (.real (.ofRatio false 197 4)),
      .number (.integer (-123)), .number (.integer 150), .string "Tiered",
      .string "Fixed", .string "hall.htm"]
    (∀ n, listed.HasNumber n → n.IsValid) ∧
    Record.ofJson .rooms listed = .ok hall ∧
    (∀ name x, (name, .number x) ∈ hall.fields → x.isFinite) ∧
    Record.ofJson .rooms hall.toJson = .ok hall ∧
    hall.NumbersReadBack ∧
    (∃ json, Json.read? Json.defaultMaxDepth hall.toJson.text = some json ∧
      Record.ofJson .rooms json = .ok hall) ∧
    Storage.readRecords "campus" .rooms
      (Storage.recordsText ⟨"campus", .rooms, [hall]⟩) = .ok [hall] ∧
    Record.ofJson .rooms (.object (Room.unnamed "Hall" "HALL" "1" "1 Main Mall"
      (.real (.ofRatio false 197 4)) (.integer (-123)) (.integer 150) "Tiered"
      "Fixed" "hall.htm").reverse) = .ok hall := by
  intro hall listed
  obtain ⟨hsettles, hstored, hunnamed⟩ := ofJson_settles
  have hvalid : ∀ n, listed.HasNumber n → n.IsValid := by
    intro n hn
    dsimp only [listed] at hn
    cases hn with
    | item hitem hn =>
      simp only [List.mem_cons, List.not_mem_nil, or_false] at hitem
      rcases hitem with rfl | rfl | rfl | rfl | rfl | rfl | rfl | rfl | rfl |
        rfl | rfl <;> cases hn <;> decide +kernel
  have hread : Record.ofJson .rooms listed = .ok hall := rfl
  have hdurable : hall.IsDurable := by decide +kernel
  have hnumbers : hall.NumbersReadBack := hdurable.numbers
  obtain ⟨-, hfinite, -, hagain, htext⟩ :=
    hsettles .rooms listed hall hvalid hread
  refine ⟨hvalid, hread, hfinite, hagain, hnumbers, htext.mpr hnumbers,
    (hstored "campus" .rooms [hall] ?_).mpr ?_,
    hunnamed _ _ _ _ _ _ _ _ _ _ _ (List.reverse_perm _)⟩
  · exact List.forall_mem_singleton.mpr ⟨listed, hread⟩
  · exact List.forall_mem_singleton.mpr hnumbers

end Record

end CampusQuery
