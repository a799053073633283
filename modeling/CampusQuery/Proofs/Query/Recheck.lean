/-
CampusQuery.Proofs.Query.Recheck — looking fields up and checking them later.

A field is looked up while a query is read, and checked once more when the
query is complete. A reference that came out of some look-up passes the check
exactly if the dataset in scope has the field with the type that was found
(`FieldRef.check_eq_ok_iff`); by induction on the tree a condition passes
exactly if everything that occurs in it suits the dataset (`check_eq_ok_iff`).
What is read on a dataset always does, whatever its id is, so the check at the
end of reading decides nothing: `read_eq_readOnce`.
-/
import CampusQuery.Proofs.Query.Acceptance

namespace CampusQuery.Query

open Outcome

/-! ## Fields -/

/-- The reference came out of a look-up, of any key in any dataset. -/
def FieldRef.IsFound (ref : FieldRef) : Prop :=
  ∃ key dataset kind, parse key dataset kind = .ok ref

/-- The dataset in scope is the one that the reference is bound to, and has the
field with the type that was recorded. -/
def Scope.Has (scope : Scope) (ref : FieldRef) : Prop :=
  ref.dataset = scope.dataset ∧ ref.field ∈ scope.kind.fieldsOf ref.type

namespace FieldRef

variable {scope : Scope} {ref : FieldRef}

/-- The column of a field that was found is cut into its dataset and its
name. -/
theorem IsFound.splitKey? (h : ref.IsFound) :
    splitKey? ref.column = some (ref.dataset, ref.field) := by
  obtain ⟨key, dataset, kind, hparse⟩ := h
  have hid := @Scope.underscore_not_mem_of_field ⟨dataset, kind⟩ _ _ hparse
  obtain ⟨hdataset, hfield, -⟩ :=
    (@Scope.field_eq_ok ⟨dataset, kind⟩ _ _ hid).mp hparse
  exact splitKey?_eq_some.mpr
    ⟨hdataset ▸ hid, Kind.underscore_not_mem hfield, rfl⟩

/-- A field that was found passes the later check if and only if it is one of
the dataset in scope, of the same type. -/
theorem check_eq_ok_iff (h : ref.IsFound) :
    ref.check scope.dataset scope.kind = .ok () ↔ scope.Has ref := by
  have hcut := h.splitKey?
  constructor
  · intro hcheck
    obtain ⟨again, hagain, htype⟩ := bind_eq_ok.mp hcheck
    have hid := @Scope.underscore_not_mem_of_field scope _ _ hagain
    obtain ⟨hdataset, hfield, hcolumn⟩ := (Scope.field_eq_ok hid).mp hagain
    have hagainCut : splitKey? ref.column = some (again.dataset, again.field) :=
      splitKey?_eq_some.mpr
        ⟨hdataset ▸ hid, Kind.underscore_not_mem hfield, hcolumn⟩
    rw [hcut, Option.some.injEq, Prod.mk.injEq] at hagainCut
    obtain ⟨hsameDataset, hsameField⟩ := hagainCut
    have hsame : again.type = ref.type := by
      by_contra hne
      rw [if_neg hne] at htype
      exact refuse_ne_ok htype
    exact ⟨hsameDataset.trans hdataset, hsameField ▸ hsame ▸ hfield⟩
  · rintro ⟨hdataset, hfield⟩
    have hid : '_' ∉ scope.dataset.toList :=
      hdataset ▸ (splitKey?_eq_some.mp hcut).1
    exact Scope.check_of_names hid ⟨hdataset, hfield, rfl⟩

end FieldRef

/-! ## Conditions -/

namespace Predicate

/-- The condition is another one or stands somewhere in it. -/
inductive Occurs (part : Predicate) : Predicate → Prop
  | here : Occurs part part
  | all {whole : Predicate} {parts : List Predicate} :
      whole ∈ parts → Occurs part whole → Occurs part (.all parts)
  | any {whole : Predicate} {parts : List Predicate} :
      whole ∈ parts → Occurs part whole → Occurs part (.any parts)
  | negation {whole : Predicate} :
      Occurs part whole → Occurs part (.negation whole)

/-- What a condition needs of the dataset in scope, its parts apart: a field
that can be compared or matched, or some parts to combine. -/
def Suits (scope : Scope) : Predicate → Prop
  | compare _ field _ => scope.Has field ∧ field.type = .numeric
  | accepts field _ => scope.Has field ∧ field.type = .text
  | all parts | any parts => parts ≠ []
  | negation _ => True

/-- Everything that occurs in the condition suits the dataset in scope. -/
def SuitsThroughout (scope : Scope) (predicate : Predicate) : Prop :=
  ∀ part : Predicate, part.Occurs predicate → part.Suits scope

variable {scope : Scope}

theorem suitsThroughout_compare {op : Comparison} {field : FieldRef}
    {bound : Numeric.Binary64} :
    (compare op field bound).SuitsThroughout scope ↔
      scope.Has field ∧ field.type = .numeric := by
  constructor
  · exact fun h => h _ .here
  · rintro h part ⟨⟩
    exact h

theorem suitsThroughout_accepts {field : FieldRef} {pattern : Pattern} :
    (accepts field pattern).SuitsThroughout scope ↔
      scope.Has field ∧ field.type = .text := by
  constructor
  · exact fun h => h _ .here
  · rintro h part ⟨⟩
    exact h

theorem suitsThroughout_all {parts : List Predicate} :
    (all parts).SuitsThroughout scope ↔
      parts ≠ [] ∧ ∀ whole ∈ parts, whole.SuitsThroughout scope := by
  constructor
  · exact fun h => ⟨h _ .here, fun whole hwhole part hpart =>
      h part (.all hwhole hpart)⟩
  · rintro ⟨hne, hparts⟩ part hoccurs
    cases hoccurs with
    | here => exact hne
    | all hwhole hpart => exact hparts _ hwhole part hpart

theorem suitsThroughout_any {parts : List Predicate} :
    (any parts).SuitsThroughout scope ↔
      parts ≠ [] ∧ ∀ whole ∈ parts, whole.SuitsThroughout scope := by
  constructor
  · exact fun h => ⟨h _ .here, fun whole hwhole part hpart =>
      h part (.any hwhole hpart)⟩
  · rintro ⟨hne, hparts⟩ part hoccurs
    cases hoccurs with
    | here => exact hne
    | any hwhole hpart => exact hparts _ hwhole part hpart

theorem suitsThroughout_negation {whole : Predicate} :
    (negation whole).SuitsThroughout scope ↔ whole.SuitsThroughout scope := by
  constructor
  · exact fun h part hpart => h part (.negation hpart)
  · intro h part hoccurs
    cases hoccurs with
    | here => trivial
    | negation hpart => exact h part hpart

theorem checkField_eq_ok_iff {field : FieldRef} {needed : FieldType}
    {fault : String → FieldFault} (h : field.IsFound) :
    checkField field needed fault scope.dataset scope.kind = .ok () ↔
      scope.Has field ∧ field.type = needed := by
  rw [checkField, bind_unit_eq_ok, FieldRef.check_eq_ok_iff h]
  refine and_congr_right fun _ => ?_
  by_cases htype : field.type = needed <;> simp [htype]

mutual

/-- A condition on fields that were found passes the check if and only if it
suits the dataset in scope throughout. -/
theorem check_eq_ok_iff : ∀ predicate : Predicate,
    (∀ ref ∈ predicate.fields, ref.IsFound) →
      (predicate.check scope.dataset scope.kind = .ok () ↔
        predicate.SuitsThroughout scope)
  | compare _ field _, hfound => by
    rw [check, suitsThroughout_compare]
    exact checkField_eq_ok_iff (hfound field (by simp [fields]))
  | accepts field _, hfound => by
    rw [check, suitsThroughout_accepts]
    exact checkField_eq_ok_iff (hfound field (by simp [fields]))
  | all parts, hfound => by
    rw [check, ite_refuse_eq_ok, List.isEmpty_iff, suitsThroughout_all]
    exact and_congr_right fun _ => checkEach_eq_ok_iff parts hfound
  | any parts, hfound => by
    rw [check, ite_refuse_eq_ok, List.isEmpty_iff, suitsThroughout_any]
    exact and_congr_right fun _ => checkEach_eq_ok_iff parts hfound
  | negation whole, hfound => by
    rw [check, suitsThroughout_negation]
    exact check_eq_ok_iff whole hfound

theorem checkEach_eq_ok_iff : ∀ parts : List Predicate,
    (∀ ref ∈ fieldsOfEach parts, ref.IsFound) →
      (checkEach parts scope.dataset scope.kind = .ok () ↔
        ∀ part ∈ parts, part.SuitsThroughout scope)
  | [], _ => by simp [checkEach]
  | part :: rest, hfound => by
    rw [fieldsOfEach, List.forall_mem_append] at hfound
    rw [checkEach, bind_unit_eq_ok, List.forall_mem_cons,
      check_eq_ok_iff part hfound.1, checkEach_eq_ok_iff rest hfound.2]

end

mutual

/-- The dataset in scope has all fields of a condition that suits it. -/
theorem SuitsThroughout.has : ∀ {predicate : Predicate},
    predicate.SuitsThroughout scope → ∀ ref ∈ predicate.fields, scope.Has ref
  | compare _ _ _, h => by
    simpa [fields] using (suitsThroughout_compare.mp h).1
  | accepts _ _, h => by
    simpa [fields] using (suitsThroughout_accepts.mp h).1
  | all _, h => hasEach (suitsThroughout_all.mp h).2
  | any _, h => hasEach (suitsThroughout_any.mp h).2
  | negation _, h => (suitsThroughout_negation.mp h).has

theorem hasEach : ∀ {parts : List Predicate},
    (∀ part ∈ parts, part.SuitsThroughout scope) →
      ∀ ref ∈ fieldsOfEach parts, scope.Has ref
  | [], _ => by simp [fieldsOfEach]
  | part :: rest, h => by
    rw [List.forall_mem_cons] at h
    rw [fieldsOfEach, List.forall_mem_append]
    exact ⟨h.1.has, hasEach h.2⟩

end

/-- A condition that suits a dataset has a truth value for every record of its
kind. -/
theorem SuitsThroughout.exists_holds {predicate : Predicate} {record : Record}
    (h : predicate.SuitsThroughout scope) (hkind : record.kind = scope.kind) :
    ∃ truth, predicate.holds record = .ok truth := by
  refine ⟨_, holds_eq_ok.mpr ⟨fun ref href => ?_, rfl⟩⟩
  obtain ⟨-, hfield⟩ := h.has ref href
  obtain ⟨value, hvalue, -⟩ := record.exists_field (hkind ▸ hfield)
  exact ⟨value, hvalue⟩

end Predicate

/-! ## Groupings -/

def Grouping.fields (grouping : Grouping) : List FieldRef :=
  grouping.keys ++ grouping.aggregates.map (·.source)

/-- There are keys, and every field suits the dataset in scope. -/
structure Grouping.Suits (scope : Scope) (grouping : Grouping) : Prop where
  keyed : grouping.keys ≠ []
  keys : ∀ key ∈ grouping.keys, scope.Has key
  sources : ∀ aggregate ∈ grouping.aggregates,
    scope.Has aggregate.source ∧ aggregate.op.accepts aggregate.source.type

theorem Grouping.check_eq_ok_iff {scope : Scope} {grouping : Grouping}
    (hfound : ∀ ref ∈ grouping.fields, ref.IsFound) :
    grouping.check scope.dataset scope.kind = .ok () ↔
      grouping.Suits scope := by
  rw [fields, List.forall_mem_append, List.forall_mem_map] at hfound
  obtain ⟨hkeys, hsources⟩ := hfound
  have hkey : ∀ key ∈ grouping.keys,
      (key.check scope.dataset scope.kind = .ok () ↔ scope.Has key) :=
    fun key hkey => FieldRef.check_eq_ok_iff (hkeys key hkey)
  have haggregate : ∀ aggregate ∈ grouping.aggregates,
      (aggregate.check scope.dataset scope.kind = .ok () ↔
        scope.Has aggregate.source ∧
          aggregate.op.accepts aggregate.source.type) := by
    intro aggregate hmem
    rw [Aggregate.check, bind_unit_eq_ok, Scope.checkType_eq_ok,
      FieldRef.check_eq_ok_iff (hsources aggregate hmem)]
  rw [check, ite_refuse_eq_ok, List.isEmpty_iff, bind_unit_eq_ok, forM_eq_ok,
    forM_eq_ok, forall₂_congr hkey, forall₂_congr haggregate]
  constructor
  · rintro ⟨hkeyed, hhas, haccepted⟩
    exact ⟨hkeyed, hhas, haccepted⟩
  · intro h
    exact ⟨h.keyed, h.keys, h.sources⟩

/-! ## What is read -/

namespace Scope

variable {scope : Scope}

theorem exists_field_of_parseText {key : String} {ref : FieldRef}
    (h : FieldRef.parseText key scope.dataset scope.kind = .ok ref) :
    ∃ found, scope.field key = .ok found := by
  obtain ⟨found, hfound, -⟩ := bind_eq_ok.mp h
  exact ⟨found, hfound⟩

theorem exists_field_of_parseNumeric {key : String} {ref : FieldRef}
    (h : FieldRef.parseNumeric key scope.dataset scope.kind = .ok ref) :
    ∃ found, scope.field key = .ok found := by
  obtain ⟨found, hfound, -⟩ := bind_eq_ok.mp h
  exact ⟨found, hfound⟩

/-- Reading the parts of AND and OR reads one of them. -/
theorem exists_read_of_readParts {read : String → Json → Outcome Predicate}
    {word : FilterWord} {body : Json} {parts : List Predicate}
    (h : readParts read word body = .ok parts) :
    ∃ key value part, read key value = .ok part := by
  obtain ⟨items, -, h⟩ := bind_eq_ok.mp h
  cases items with
  | nil => exact absurd h malformed_ne_ok
  | cons item rest =>
    rw [List.isEmpty_cons, if_neg Bool.false_ne_true, mapM_eq_ok] at h
    obtain ⟨part, -, hpart⟩ := exists_of_forall₂ h List.mem_cons_self
    obtain ⟨⟨key, value⟩, -, hread⟩ := bind_eq_ok.mp hpart
    exact ⟨key, value, part, hread⟩

/-- Reading a filter finds at least one field. -/
theorem exists_field_of_readFilter : ∀ (levels : Nat) (word : String)
    (body : Json) (predicate : Predicate),
    scope.readFilter levels word body = .ok predicate →
      ∃ key ref, scope.field key = .ok ref
  | 0, _, _, _, h => absurd h malformed_ne_ok
  | levels + 1, word, body, predicate, h => by
    have hread := exists_field_of_readFilter levels
    unfold readFilter at h
    split at h
    · obtain ⟨_, hparts, -⟩ := map_eq_ok.mp h
      obtain ⟨key, value, part, hpart⟩ := exists_read_of_readParts hparts
      exact hread key value part hpart
    · obtain ⟨_, hparts, -⟩ := map_eq_ok.mp h
      obtain ⟨key, value, part, hpart⟩ := exists_read_of_readParts hparts
      exact hread key value part hpart
    · obtain ⟨⟨key, value⟩, -, h⟩ := bind_eq_ok.mp h
      obtain ⟨part, hpart, -⟩ := bind_eq_ok.mp h
      exact hread key value part hpart
    · obtain ⟨⟨key, value⟩, -, h⟩ := bind_eq_ok.mp h
      obtain ⟨_, -, h⟩ := bind_eq_ok.mp h
      obtain ⟨_, hfield, -⟩ := bind_eq_ok.mp h
      exact ⟨key, exists_field_of_parseText hfield⟩
    · obtain ⟨⟨key, value⟩, -, h⟩ := bind_eq_ok.mp h
      obtain ⟨_, -, h⟩ := bind_eq_ok.mp h
      obtain ⟨_, hfield, -⟩ := bind_eq_ok.mp h
      exact ⟨key, exists_field_of_parseNumeric hfield⟩
    · exact absurd h malformed_ne_ok

/-- Conditions that are read pass the check, whatever the id of the dataset
is. -/
theorem check_of_readConditions {value : Json} {predicate : Predicate}
    (h : scope.readConditions value = .ok (some predicate)) :
    predicate.check scope.dataset scope.kind = .ok () := by
  have hfield : ∃ key ref, scope.field key = .ok ref := by
    obtain ⟨members, -, h⟩ := bind_eq_ok.mp h
    split at h
    · cases pure_eq_ok.mp h
    · obtain ⟨⟨key, body⟩, -, h⟩ := bind_eq_ok.mp h
      obtain ⟨part, hpart, -⟩ := bind_eq_ok.mp h
      exact exists_field_of_readFilter _ key body part hpart
  obtain ⟨key, ref, href⟩ := hfield
  have hid := underscore_not_mem_of_field href
  exact check_of_areConditions hid ((readConditions_eq_ok hid).mp h) predicate rfl

/-- A grouping that is read passes the check, whatever the id of the dataset
is. -/
theorem check_of_readGrouping {value : Json} {grouping : Grouping}
    (h : scope.readGrouping value = .ok grouping) :
    grouping.check scope.dataset scope.kind = .ok () := by
  obtain ⟨key, ref, href⟩ := exists_field_of_readGrouping h
  have hid := underscore_not_mem_of_field href
  exact check_of_isGrouping hid ((readGrouping_eq_ok hid).mp h)

end Scope

/-- Reads a query without the check of all fields at the end. -/
def readOnce (dataset : String) (kind : Kind) (raw : Json) :
    Outcome CampusQuery.Query := do
  let scope : Scope := ⟨dataset, kind⟩
  let members ← readMembers .query raw
  checkClauses members
  let conditions ← required (.missingClause .conditions)
    (members.lookup "WHERE")
  let predicate ← scope.readConditions conditions
  let options ← required (.missingClause .options)
    (members.lookup "OPTIONS")
  let (columns, order) ← readOptions options
  let grouping ← (members.lookup "TRANSFORMATIONS").mapM scope.readGrouping
  checkColumns scope grouping columns
  let options ← Options.ofParts columns order
  return { dataset, predicate, options, grouping }

theorem read_eq_readOnce (dataset : String) (kind : Kind) (raw : Json) :
    Query.read dataset kind raw = readOnce dataset kind raw := by
  unfold Query.read readOnce
  refine bind_congr_of_ok fun members _ => ?_
  refine bind_congr_of_ok fun _ _ => ?_
  refine bind_congr_of_ok fun conditions _ => ?_
  refine bind_congr_of_ok fun predicate hpredicate => ?_
  refine bind_congr_of_ok fun shown _ => ?_
  refine bind_congr_of_ok fun ⟨columns, order⟩ _ => ?_
  refine bind_congr_of_ok fun grouping hgrouping => ?_
  refine bind_congr_of_ok fun _ _ => ?_
  refine bind_congr_of_ok fun options _ => ?_
  have hconditions :
      (predicate.forM fun part => part.check dataset kind) = .ok () := by
    refine option_forM_eq_ok.mpr fun part hpart => ?_
    subst hpart
    exact Scope.check_of_readConditions hpredicate
  have htransformations :
      (grouping.forM fun found => found.check dataset kind) = .ok () := by
    refine option_forM_eq_ok.mpr fun found hfound => ?_
    subst hfound
    cases hlookup : members.lookup "TRANSFORMATIONS" with
    | none =>
      rw [hlookup] at hgrouping
      cases pure_eq_ok.mp hgrouping
    | some value =>
      rw [hlookup] at hgrouping
      obtain ⟨_, hread, heq⟩ := bind_eq_ok.mp hgrouping
      cases pure_eq_ok.mp heq
      exact @Scope.check_of_readGrouping ⟨dataset, kind⟩ _ _ hread
  rw [hconditions, htransformations]
  rfl

/-- The check of fields agrees with looking them up. Conditions and groupings on
fields that were found somewhere pass it if and only if they suit the dataset
in scope, and a condition that passes can be evaluated on every record of the
kind. What is read on a dataset passes, so reading without the check gives the
same queries and the same refusals. -/
theorem check_agrees (scope : Scope) :
    (∀ predicate : Predicate, (∀ ref ∈ predicate.fields, ref.IsFound) →
      (predicate.check scope.dataset scope.kind = .ok () ↔
        predicate.SuitsThroughout scope) ∧
      (predicate.check scope.dataset scope.kind = .ok () →
        ∀ record : Record, record.kind = scope.kind →
          ∃ truth, predicate.holds record = .ok truth)) ∧
    (∀ grouping : Grouping, (∀ ref ∈ grouping.fields, ref.IsFound) →
      (grouping.check scope.dataset scope.kind = .ok () ↔
        grouping.Suits scope)) ∧
    (∀ value predicate, scope.readConditions value = .ok (some predicate) →
      predicate.check scope.dataset scope.kind = .ok ()) ∧
    (∀ value grouping, scope.readGrouping value = .ok grouping →
      grouping.check scope.dataset scope.kind = .ok ()) ∧
    ∀ raw, Query.read scope.dataset scope.kind raw
      = readOnce scope.dataset scope.kind raw := by
  refine ⟨fun predicate hfound => ?_, fun _ => Grouping.check_eq_ok_iff,
    fun _ _ => Scope.check_of_readConditions,
    fun _ _ => Scope.check_of_readGrouping, read_eq_readOnce _ _⟩
  have hiff : predicate.check scope.dataset scope.kind = .ok () ↔
      predicate.SuitsThroughout scope := Predicate.check_eq_ok_iff predicate hfound
  exact ⟨hiff, fun hcheck record => (hiff.mp hcheck).exists_holds⟩

def largeElsewhere : Predicate :=
  .all [.compare .greater ⟨"campus", "seats", .numeric⟩ (.ofInt 100),
    .negation (.accepts ⟨"campus", "name", .text⟩ (.split "DMP*"))]

/-- Large rooms, or good courses of another dataset. -/
def largeOrGood : Predicate :=
  .any [largeElsewhere,
    .compare .greater ⟨"courses", "avg", .numeric⟩ (.ofInt 90)]

def perBuilding : Grouping :=
  ⟨[⟨"campus", "shortname", .text⟩],
    [⟨"most", .max, ⟨"campus", "seats", .numeric⟩⟩]⟩

/-- Conditions and a grouping as they are read suit the dataset, and a room can
be tested; with a comparison from another dataset beside them the conditions do
not pass. -/
theorem check_agrees_largeElsewhere :
    let campus : Scope := ⟨"campus", .rooms⟩
    let conditions : Json := .object [("AND", .array
      [.object [("GT", .object [("campus_seats", .number (.integer 100))])],
        .object [("NOT", .object
          [("IS", .object [("campus_name", .string "DMP*")])])]])]
    let transformations : Json := .object
      [("GROUP", .array [.string "campus_shortname"]),
        ("APPLY", .array
          [.object [("most", .object [("MAX", .string "campus_seats")])]])]
    let hall : Room := .named "Hall" "HALL" "1" "1 Main Mall" (.ofInt 49)
      (.ofInt (-123)) (.ofInt 150) "Tiered" "Fixed" "hall.htm"
    (∀ ref ∈ largeOrGood.fields, ref.IsFound) ∧
    campus.readConditions conditions = .ok (some largeElsewhere) ∧
    campus.readGrouping transformations = .ok perBuilding ∧
    largeElsewhere.SuitsThroughout campus ∧
    ¬largeOrGood.SuitsThroughout campus ∧
    perBuilding.Suits campus ∧
    ∃ truth, largeElsewhere.holds (.ofRoom hall) = .ok truth := by
  intro campus conditions transformations hall
  obtain ⟨hpredicate, hgrouping, hread, hreadGrouping, -⟩ := check_agrees campus
  have hseats : FieldRef.IsFound ⟨"campus", "seats", .numeric⟩ :=
    ⟨"campus_seats", "campus", .rooms, rfl⟩
  have hname : FieldRef.IsFound ⟨"campus", "name", .text⟩ :=
    ⟨"campus_name", "campus", .rooms, rfl⟩
  have hshortname : FieldRef.IsFound ⟨"campus", "shortname", .text⟩ :=
    ⟨"campus_shortname", "campus", .rooms, rfl⟩
  have havg : FieldRef.IsFound ⟨"courses", "avg", .numeric⟩ :=
    ⟨"courses_avg", "courses", .sections, rfl⟩
  have hlarge : ∀ ref ∈ largeElsewhere.fields, ref.IsFound := by
    simp [largeElsewhere, Predicate.fields, Predicate.fieldsOfEach, hseats,
      hname]
  have hmixed : ∀ ref ∈ largeOrGood.fields, ref.IsFound := by
    simp [largeOrGood, largeElsewhere, Predicate.fields,
      Predicate.fieldsOfEach, hseats, hname, havg]
  have hkeys : ∀ ref ∈ perBuilding.fields, ref.IsFound := by
    simp [perBuilding, Grouping.fields, hshortname, hseats]
  have hconditions :
      campus.readConditions conditions = .ok (some largeElsewhere) := rfl
  have htransformations :
      campus.readGrouping transformations = .ok perBuilding := rfl
  have hpasses := hread conditions largeElsewhere hconditions
  obtain ⟨hsuits, hholds⟩ := hpredicate largeElsewhere hlarge
  refine ⟨hmixed, hconditions, htransformations, hsuits.mp hpasses, ?_,
    (hgrouping perBuilding hkeys).mp
      (hreadGrouping transformations perBuilding htransformations),
    hholds hpasses (.ofRoom hall) rfl⟩
  intro h
  have hrefused : largeOrGood.check "campus" .rooms
      = refuse (.field (.foreign "courses_avg" "courses" "campus")) := rfl
  have hcheck := (hpredicate largeOrGood hmixed).1.mpr h
  exact refuse_ne_ok (hrefused.symm.trans hcheck)

end CampusQuery.Query
