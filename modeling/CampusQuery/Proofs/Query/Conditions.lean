/-
CampusQuery.Proofs.Query.Conditions — reading conditions follows the grammar.

`readFilter` goes down a filter with a number of levels to spend and fails
when it has none left. `readFilter_eq_ok` shows, by induction on the levels,
that it reads exactly the filters of the grammar whose nesting stays below
that number. `IsFilter.check` shows that what it has read passes the later
check of all fields.
-/
import CampusQuery.Proofs.Query.Grammar
import CampusQuery.Proofs.Query.Keyword

namespace CampusQuery.Query

open Outcome

/-! ## Shapes -/

@[simp] theorem malformed_ne_ok {α : Type} {fault : QueryFault} {a : α} :
    (malformed fault : Outcome α) ≠ .ok a := refuse_ne_ok

theorem required_eq_ok {α : Type} {fault : QueryFault} {found : Option α}
    {value : α} : required fault found = .ok value ↔ found = some value := by
  cases found <;> simp [required]

theorem items?_eq_some {value : Json} {items : List Json} :
    value.items? = some items ↔ value = .array items := by
  cases value <;> simp [Json.items?]

theorem members?_eq_some {value : Json} {members : List (String × Json)} :
    value.members? = some members ↔ value = .object members := by
  cases value <;> simp [Json.members?]

theorem text?_eq_some {value : Json} {text : String} :
    value.text? = some text ↔ value = .string text := by
  cases value <;> simp [Json.text?]

theorem float?_eq_some {value : Json} {x : Numeric.Binary64} :
    value.float? = some x ↔ ∃ n, value = .number n ∧ n.toBinary64 = x := by
  cases value <;> simp [Json.float?]

theorem readMembers_eq_ok {part : QueryPart} {value : Json}
    {members : List (String × Json)} :
    readMembers part value = .ok members ↔ value = .object members := by
  rw [readMembers, required_eq_ok, members?_eq_some]

theorem onlyMember_eq_ok {part : QueryPart} {members : List (String × Json)}
    {member : String × Json} :
    onlyMember part members = .ok member ↔ members = [member] := by
  unfold onlyMember
  split
  · simp
  · rename_i hmembers
    simpa using fun e => hmembers member e

theorem readEntry_eq_ok {part : QueryPart} {value : Json}
    {member : String × Json} :
    readEntry part value = .ok member ↔ value = .object [member] := by
  rw [readEntry, bind_eq_ok]
  constructor
  · rintro ⟨members, hmembers, honly⟩
    rw [readMembers_eq_ok.mp hmembers, onlyMember_eq_ok.mp honly]
  · rintro rfl
    exact ⟨[member], readMembers_eq_ok.mpr rfl, onlyMember_eq_ok.mpr rfl⟩

theorem forall₂_string {values : List Json} {texts : List String} :
    List.Forall₂ (fun value text => value = .string text) values texts ↔
      values = texts.map .string := by
  rw [← List.forall₂_eq_eq_eq, List.forall₂_map_right_iff]

theorem readTexts_eq_ok {part : QueryPart} {value : Json}
    {texts : List String} :
    readTexts part value = .ok texts ↔ IsTexts value texts := by
  rw [readTexts, bind_eq_ok, IsTexts]
  simp only [required_eq_ok, items?_eq_some]
  constructor
  · rintro ⟨items, rfl, h⟩
    cases items with
    | nil => exact absurd h malformed_ne_ok
    | cons item rest =>
      rw [List.isEmpty_cons, if_neg Bool.false_ne_true, mapM_eq_ok] at h
      simp only [required_eq_ok, text?_eq_some, forall₂_string] at h
      rw [h]
      refine ⟨?_, rfl⟩
      rintro rfl
      cases h
  · rintro ⟨hne, rfl⟩
    refine ⟨_, rfl, ?_⟩
    rw [if_neg (by simpa using hne), mapM_eq_ok]
    simp only [required_eq_ok, text?_eq_some, forall₂_string]

/-! ## Filters -/

/-- A filter is an object with one member. -/
theorem IsFilter.single {scope : Scope} {value : Json} {predicate : Predicate}
    (h : IsFilter scope value predicate) :
    ∃ key body, value = .object [(key, body)] := by
  cases h <;> exact ⟨_, _, rfl⟩

/-- Filters stand one by one for the conditions. -/
theorem areFilters_iff {scope : Scope} {items : List Json}
    {parts : List Predicate} :
    AreFilters scope items parts ↔
      List.Forall₂ (IsFilter scope) items parts := by
  constructor
  · intro h
    induction items generalizing parts with
    | nil => cases h; exact .nil
    | cons item items ih =>
      cases h with
      | cons hitem hitems => exact .cons hitem (ih hitems)
  · intro h
    induction h with
    | nil => exact .nil
    | cons hitem _ ih => exact .cons hitem ih

theorem Predicate.nestingOf_lt {parts : List Predicate} {bound : Nat} :
    nestingOf parts < bound ↔
      0 < bound ∧ ∀ part ∈ parts, part.nesting < bound := by
  induction parts with
  | nil => simp [nestingOf]
  | cons part rest ih =>
    rw [nestingOf, Nat.max_lt, ih, List.forall_mem_cons]
    exact and_left_comm

/-- The conditions of a list of filters are nested below a bound if each of
them is. -/
theorem nestingOf_lt_of_filters {scope : Scope} {items : List Json}
    {parts : List Predicate} {bound : Nat} (hne : items ≠ [])
    (h : AreFilters scope items parts) :
    Predicate.nestingOf parts < bound ↔
      ∀ part ∈ parts, part.nesting < bound := by
  rw [Predicate.nestingOf_lt]
  cases h with
  | nil => exact absurd rfl hne
  | cons =>
    rw [List.forall_mem_cons]
    constructor
    · exact And.right
    · intro h
      exact ⟨Nat.zero_lt_of_lt h.1, h⟩

/-- A property of the second members of pairs is one of the second list. -/
theorem forall₂_and_right {α β : Type} {r : α → β → Prop} {p : β → Prop}
    {xs : List α} {ys : List β} :
    List.Forall₂ (fun x y => r x y ∧ p y) xs ys ↔
      List.Forall₂ r xs ys ∧ ∀ y ∈ ys, p y := by
  constructor
  · intro h
    induction h with
    | nil => exact ⟨.nil, by simp⟩
    | cons hxy _ ih =>
      exact ⟨.cons hxy.1 ih.1, List.forall_mem_cons.mpr ⟨hxy.2, ih.2⟩⟩
  · rintro ⟨h, hp⟩
    induction h with
    | nil => exact .nil
    | cons hxy _ ih =>
      rw [List.forall_mem_cons] at hp
      exact .cons ⟨hxy, hp.1⟩ (ih hp.2)

/-- A member read on its own is read as an object with only that member. -/
theorem readEntry_bind_eq_ok {part : QueryPart} {value : Json}
    {read : String → Json → Outcome Predicate} {predicate : Predicate} :
    (readEntry part value >>= fun member => read member.1 member.2)
        = .ok predicate ↔
      ∃ key body, value = .object [(key, body)] ∧
        read key body = .ok predicate := by
  rw [bind_eq_ok]
  simp only [readEntry_eq_ok]
  constructor
  · rintro ⟨⟨key, body⟩, rfl, h⟩
    exact ⟨key, body, rfl, h⟩
  · rintro ⟨key, body, rfl, h⟩
    exact ⟨(key, body), rfl, h⟩

namespace Scope

variable {scope : Scope}

/-- Reading the parts of AND and OR, given that reading a member follows the
grammar below some bound. -/
theorem readParts_eq_ok {read : String → Json → Outcome Predicate}
    {word : FilterWord} {body : Json} {parts : List Predicate} {bound : Nat}
    (hread : ∀ key body part, read key body = .ok part ↔
      IsFilter scope (.object [(key, body)]) part ∧ part.nesting < bound) :
    readParts read word body = .ok parts ↔
      ∃ items, body = .array items ∧ items ≠ [] ∧
        AreFilters scope items parts ∧
        Predicate.nestingOf parts < bound := by
  have hitem : ∀ item part,
      (readEntry (.filter word) item >>= fun member =>
        read member.1 member.2) = .ok part ↔
      IsFilter scope item part ∧ part.nesting < bound := by
    intro item part
    rw [readEntry_bind_eq_ok]
    constructor
    · rintro ⟨key, value, rfl, h⟩
      exact (hread key value part).mp h
    · rintro ⟨hfilter, hlt⟩
      obtain ⟨key, value, rfl⟩ := hfilter.single
      exact ⟨key, value, rfl, (hread key value part).mpr ⟨hfilter, hlt⟩⟩
  rw [readParts, bind_eq_ok]
  simp only [required_eq_ok, items?_eq_some]
  constructor
  · rintro ⟨items, rfl, h⟩
    by_cases hempty : items.isEmpty
    · rw [if_pos hempty] at h
      exact absurd h malformed_ne_ok
    · rw [if_neg hempty, mapM_eq_ok] at h
      simp only [hitem, forall₂_and_right, ← areFilters_iff] at h
      have hne : items ≠ [] := by simpa using hempty
      exact ⟨items, rfl, hne, h.1, (nestingOf_lt_of_filters hne h.1).mpr h.2⟩
  · rintro ⟨items, rfl, hne, hitems, hlt⟩
    refine ⟨items, rfl, ?_⟩
    rw [if_neg (by simpa using hne), mapM_eq_ok]
    simp only [hitem, forall₂_and_right, ← areFilters_iff]
    exact ⟨hitems, (nestingOf_lt_of_filters hne hitems).mp hlt⟩

/-! ## Leaves -/

theorem readPattern_eq_ok (hid : '_' ∉ scope.dataset.toList) {body : Json}
    {predicate : Predicate} :
    scope.readPattern body = .ok predicate ↔
      ∃ key raw field, body = .object [(key, .string raw)] ∧
        scope.Names key field ∧ field.type = .text ∧
        WildcardsAtEnds raw ∧ predicate = .accepts field (.split raw) := by
  rw [readPattern, bind_eq_ok]
  simp only [bind_eq_ok, readEntry_eq_ok, required_eq_ok, text?_eq_some,
    parseText_eq_ok hid, Pattern.parse_eq_ok, pure_eq_ok]
  constructor
  · rintro ⟨⟨key, value⟩, rfl, raw, rfl, field, ⟨hnames, htype⟩, _,
      ⟨hraw, rfl⟩, rfl⟩
    exact ⟨key, raw, field, rfl, hnames, htype, hraw, rfl⟩
  · rintro ⟨key, raw, field, rfl, hnames, htype, hraw, rfl⟩
    exact ⟨(key, .string raw), rfl, raw, rfl, field, ⟨hnames, htype⟩, _,
      ⟨hraw, rfl⟩, rfl⟩

theorem readComparison_eq_ok (hid : '_' ∉ scope.dataset.toList)
    {op : Comparison} {body : Json} {predicate : Predicate} :
    scope.readComparison op body = .ok predicate ↔
      ∃ key bound field, body = .object [(key, .number bound)] ∧
        scope.Names key field ∧ field.type = .numeric ∧
        predicate = .compare op field bound.toBinary64 := by
  rw [readComparison, bind_eq_ok]
  simp only [bind_eq_ok, readEntry_eq_ok, required_eq_ok, float?_eq_some,
    parseNumeric_eq_ok hid, pure_eq_ok]
  constructor
  · rintro ⟨⟨key, value⟩, rfl, _, ⟨bound, rfl, rfl⟩, field,
      ⟨hnames, htype⟩, rfl⟩
    exact ⟨key, bound, field, rfl, hnames, htype, rfl⟩
  · rintro ⟨key, bound, field, rfl, hnames, htype, rfl⟩
    exact ⟨(key, .number bound), rfl, _, ⟨bound, rfl, rfl⟩, field,
      ⟨hnames, htype⟩, rfl⟩

/-! ## Levels -/

/-- A filter is read with the levels that its nesting needs, and not with
fewer. -/
theorem readFilter_eq_ok (hid : '_' ∉ scope.dataset.toList) :
    ∀ (levels : Nat) (key : String) (body : Json) (predicate : Predicate),
      scope.readFilter levels key body = .ok predicate ↔
        IsFilter scope (.object [(key, body)]) predicate ∧
          predicate.nesting < levels
  | 0, key, body, predicate => by simp [readFilter]
  | levels + 1, key, body, predicate => by
    have hread := readFilter_eq_ok hid levels
    constructor
    · intro h
      unfold readFilter at h
      split at h
      case h_1 hword =>
        obtain rfl := FilterWord.ofName?_eq_some.mp hword
        obtain ⟨parts, hparts, rfl⟩ := map_eq_ok.mp h
        obtain ⟨items, rfl, hne, hitems, hlt⟩ :=
          (readParts_eq_ok hread).mp hparts
        exact ⟨.conjunction hne hitems, Nat.succ_lt_succ hlt⟩
      case h_2 hword =>
        obtain rfl := FilterWord.ofName?_eq_some.mp hword
        obtain ⟨parts, hparts, rfl⟩ := map_eq_ok.mp h
        obtain ⟨items, rfl, hne, hitems, hlt⟩ :=
          (readParts_eq_ok hread).mp hparts
        exact ⟨.disjunction hne hitems, Nat.succ_lt_succ hlt⟩
      case h_3 hword =>
        obtain rfl := FilterWord.ofName?_eq_some.mp hword
        obtain ⟨⟨key, value⟩, hentry, hrest⟩ := bind_eq_ok.mp h
        obtain ⟨part, hpart, heq⟩ := bind_eq_ok.mp hrest
        obtain rfl := readEntry_eq_ok.mp hentry
        obtain rfl := pure_eq_ok.mp heq
        obtain ⟨hfilter, hlt⟩ := (hread key value part).mp hpart
        exact ⟨.negation hfilter, Nat.succ_lt_succ hlt⟩
      case h_4 hword =>
        obtain rfl := FilterWord.ofName?_eq_some.mp hword
        obtain ⟨key, raw, field, rfl, hnames, htype, hraw, rfl⟩ :=
          (readPattern_eq_ok hid).mp h
        exact ⟨.pattern hnames htype hraw, Nat.succ_pos _⟩
      case h_5 op hword =>
        obtain rfl := FilterWord.ofName?_eq_some.mp hword
        obtain ⟨key, bound, field, rfl, hnames, htype, rfl⟩ :=
          (readComparison_eq_ok hid).mp h
        exact ⟨.comparison hnames htype, Nat.succ_pos _⟩
      case h_6 => exact absurd h malformed_ne_ok
    · rintro ⟨hfilter, hlt⟩
      cases hfilter with
      | conjunction hne hitems =>
        exact map_eq_ok.mpr ⟨_, (readParts_eq_ok hread).mpr
          ⟨_, rfl, hne, hitems, Nat.lt_of_succ_lt_succ hlt⟩, rfl⟩
      | disjunction hne hitems =>
        exact map_eq_ok.mpr ⟨_, (readParts_eq_ok hread).mpr
          ⟨_, rfl, hne, hitems, Nat.lt_of_succ_lt_succ hlt⟩, rfl⟩
      | @negation item part hpart =>
        obtain ⟨key, value, rfl⟩ := hpart.single
        have hinner := (hread key value part).mpr
          ⟨hpart, Nat.lt_of_succ_lt_succ hlt⟩
        exact bind_eq_ok.mpr ⟨_, readEntry_eq_ok.mpr rfl,
          bind_eq_ok.mpr ⟨part, hinner, rfl⟩⟩
      | pattern hnames htype hraw =>
        exact (readPattern_eq_ok hid).mpr
          ⟨_, _, _, rfl, hnames, htype, hraw, rfl⟩
      | @comparison op =>
        rename_i hnames htype
        have hword : FilterWord.ofName? op.name = some (.comparison op) :=
          FilterWord.ofName?_eq_some.mpr rfl
        unfold readFilter
        rw [hword]
        exact (readComparison_eq_ok hid).mpr ⟨_, _, _, rfl, hnames, htype, rfl⟩

/-- Conditions are read if they follow the grammar. -/
theorem readConditions_eq_ok (hid : '_' ∉ scope.dataset.toList) {value : Json}
    {predicate : Option Predicate} :
    scope.readConditions value = .ok predicate ↔
      AreConditions scope value predicate := by
  rw [readConditions, bind_eq_ok]
  simp only [readMembers_eq_ok]
  constructor
  · rintro ⟨members, rfl, h⟩
    cases members with
    | nil =>
      obtain rfl := pure_eq_ok.mp h
      exact .none
    | cons member rest =>
      rw [List.isEmpty_cons, if_neg Bool.false_ne_true] at h
      obtain ⟨⟨key, body⟩, honly, h⟩ := bind_eq_ok.mp h
      obtain ⟨part, hpart, h⟩ := bind_eq_ok.mp h
      obtain rfl := pure_eq_ok.mp h
      rw [onlyMember_eq_ok.mp honly]
      obtain ⟨hfilter, hlt⟩ := (readFilter_eq_ok hid _ _ _ _).mp hpart
      exact .some hfilter (Nat.le_of_lt_succ hlt)
  · intro h
    cases h with
    | none => exact ⟨[], rfl, rfl⟩
    | @some value part hfilter hle =>
      obtain ⟨key, body, rfl⟩ := hfilter.single
      have hread := (readFilter_eq_ok hid (maxNesting + 1) key body part).mpr
        ⟨hfilter, Nat.lt_succ_of_le hle⟩
      exact ⟨[(key, body)], rfl, bind_eq_ok.mpr
        ⟨(key, body), rfl, bind_eq_ok.mpr ⟨part, hread, rfl⟩⟩⟩

end Scope

/-! ## The check of all fields -/

variable {scope : Scope}

theorem checkField_of_names (hid : '_' ∉ scope.dataset.toList) {key : String}
    {field : FieldRef} {type : FieldType} (fault : String → FieldFault)
    (h : scope.Names key field) (htype : field.type = type) :
    Predicate.checkField field type fault scope.dataset scope.kind
      = .ok () := by
  rw [Predicate.checkField, bind_eq_ok]
  exact ⟨(), Scope.check_of_names hid h, by rw [if_pos htype]; rfl⟩

mutual

/-- What a filter describes passes the check. -/
theorem IsFilter.check (hid : '_' ∉ scope.dataset.toList) {value : Json}
    {predicate : Predicate} :
    IsFilter scope value predicate →
      predicate.check scope.dataset scope.kind = .ok ()
  | .conjunction hne hitems => by
    cases hitems with
    | nil => exact absurd rfl hne
    | cons hitem hrest => exact AreFilters.checkEach hid (.cons hitem hrest)
  | .disjunction hne hitems => by
    cases hitems with
    | nil => exact absurd rfl hne
    | cons hitem hrest => exact AreFilters.checkEach hid (.cons hitem hrest)
  | .negation hitem => hitem.check hid
  | .pattern hnames htype _ => checkField_of_names hid _ hnames htype
  | .comparison hnames htype => checkField_of_names hid _ hnames htype

theorem AreFilters.checkEach (hid : '_' ∉ scope.dataset.toList)
    {items : List Json} {parts : List Predicate} :
    AreFilters scope items parts →
      Predicate.checkEach parts scope.dataset scope.kind = .ok ()
  | .nil => rfl
  | .cons hitem hrest =>
    bind_eq_ok.mpr ⟨(), hitem.check hid, hrest.checkEach hid⟩

end

end CampusQuery.Query
