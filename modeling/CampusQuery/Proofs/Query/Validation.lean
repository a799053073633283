/-
CampusQuery.Proofs.Query.Validation — reading queries follows the grammar.

The clauses of a query are read one after the other, and checks that need
more than one of them come at the end; `read_eq_ok` shows that what passes
all this is exactly what `Describes` relates, and `read_iff_describes` adds
that everything else is refused.
-/
import CampusQuery.Dataset
import CampusQuery.Proofs.Json.Members
import CampusQuery.Proofs.Query.Conditions
import CampusQuery.Proofs.Query.Refusal

namespace CampusQuery.Query

open Outcome

/-! ## Members -/

/-- An object has exactly some members if it has as many and each of them is
found. -/
theorem hasMembers_iff {value : Json} {expected : List (String × Json)}
    (hkeys : (expected.map Prod.fst).Nodup) :
    HasMembers value expected ↔
      ∃ found, value = .object found ∧ found.length = expected.length ∧
        ∀ member ∈ expected, found.lookup member.1 = some member.2 := by
  simp only [HasMembers, Json.perm_iff_lookup hkeys]

/-! ## Options -/

theorem checkOrder_eq_ok {columns : List String} {order : SortOrder} :
    Options.checkOrder columns order = .ok () ↔
      order.keys ≠ [] ∧ ∀ key ∈ order.keys, key ∈ columns := by
  rw [Options.checkOrder, ite_refuse_eq_ok, List.isEmpty_iff]
  refine and_congr_right fun _ => ?_
  cases hfind : order.keys.find? (· ∉ columns) with
  | none => simpa using hfind
  | some key =>
    have hmem := List.mem_of_find?_eq_some hfind
    have hnot := List.find?_some hfind
    constructor
    · intro h
      exact absurd h refuse_ne_ok
    · intro h
      exact absurd (h key hmem) (by simpa using hnot)

theorem readSortKeys_eq_ok {members : List (String × Json)}
    {order : SortOrder} :
    readSortKeys members = .ok order ↔
      ∃ texts direction keys,
        HasMembers (.object members)
          [("dir", .string direction.name), ("keys", texts)] ∧
        IsTexts texts keys ∧ order = .multiple direction keys := by
  unfold readSortKeys
  have hkeys : ∀ dir texts : Json,
      ([("dir", dir), ("keys", texts)].map Prod.fst).Nodup := by simp
  simp only [hasMembers_iff (hkeys _ _), Json.object.injEq,
    exists_eq_left', List.length_cons, List.length_nil, List.forall_mem_cons]
  by_cases hlength : members.length = 2
  · rw [if_neg (by simpa using hlength)]
    simp only [bind_eq_ok, required_eq_ok, readTexts_eq_ok, pure_eq_ok,
      Option.bind_eq_some_iff, text?_eq_some, Direction.ofName?_eq_some]
    constructor
    · rintro ⟨direction, ⟨word, ⟨_, hdir, rfl⟩, rfl⟩, texts, hkeys, keys,
        htexts, rfl⟩
      exact ⟨texts, direction, keys,
        ⟨hlength, hdir, hkeys, by simp⟩, htexts, rfl⟩
    · rintro ⟨texts, direction, keys, ⟨-, hdir, hkeys, -⟩, htexts, rfl⟩
      exact ⟨direction, ⟨_, ⟨_, hdir, rfl⟩, rfl⟩, texts, hkeys, keys,
        htexts, rfl⟩
  · rw [if_pos (by simpa using hlength)]
    simp [hlength]

/-- A sort order is read and passes its check if it follows the grammar. -/
theorem isOrder_iff {columns : List String} {value : Json}
    {order : SortOrder} :
    IsOrder columns value order ↔
      readOrder value = .ok order ∧
        Options.checkOrder columns order = .ok () := by
  rw [checkOrder_eq_ok]
  constructor
  · intro h
    cases h with
    | single hkey => exact ⟨rfl, by simp [SortOrder.keys], by
        simpa [SortOrder.keys] using hkey⟩
    | @multiple value texts direction keys hmembers htexts hkeys =>
      obtain ⟨found, rfl, hperm⟩ := hmembers
      refine ⟨?_, htexts.1, hkeys⟩
      exact readSortKeys_eq_ok.mpr
        ⟨texts, direction, keys, ⟨found, rfl, hperm⟩, htexts, rfl⟩
  · rintro ⟨hread, hne, hkeys⟩
    unfold readOrder at hread
    split at hread
    · obtain rfl := pure_eq_ok.mp hread
      exact .single (hkeys _ (by simp [SortOrder.keys]))
    · obtain ⟨texts, direction, keys, hmembers, htexts, rfl⟩ :=
        readSortKeys_eq_ok.mp hread
      exact .multiple hmembers htexts hkeys
    · exact absurd hread malformed_ne_ok

theorem ofParts_eq_ok {columns : List String} {order : Option SortOrder}
    {options : Options} :
    Options.ofParts columns order = .ok options ↔
      options = ⟨columns, order⟩ ∧ columns ≠ [] ∧
        ∀ sorting, order = some sorting →
          Options.checkOrder columns sorting = .ok () := by
  simp only [Options.ofParts, ite_refuse_eq_ok, List.isEmpty_iff]
  simp only [bind_eq_ok, option_forM_eq_ok, pure_eq_ok]
  constructor
  · rintro ⟨hne, _, hcheck, rfl⟩
    exact ⟨rfl, hne, hcheck⟩
  · rintro ⟨rfl, hne, hcheck⟩
    exact ⟨hne, (), hcheck, rfl⟩

/-- Columns and sort order are read and pass their check if they follow the
grammar. -/
theorem areOptions_iff {value : Json} {options : Options} :
    AreOptions value options ↔
      readOptions value = .ok (options.columns, options.order) ∧
        Options.ofParts options.columns options.order = .ok options := by
  have hone : ∀ texts : Json,
      ([("COLUMNS", texts)].map Prod.fst).Nodup := by simp
  have htwo : ∀ texts order : Json,
      ([("COLUMNS", texts), ("ORDER", order)].map Prod.fst).Nodup := by simp
  unfold readOptions
  simp only [ofParts_eq_ok, true_and, bind_eq_ok, readMembers_eq_ok,
    required_eq_ok, readTexts_eq_ok]
  constructor
  · intro h
    cases h with
    | @unsorted texts columns hmembers htexts =>
      obtain ⟨found, rfl, hperm⟩ := hmembers
      have hnone : found.lookup "ORDER" = none :=
        Json.lookup_eq_none_of_perm hperm (by simp)
      obtain ⟨hlength, hfound⟩ := (Json.perm_iff_lookup (hone _)).mp hperm
      rw [List.forall_mem_singleton] at hfound
      refine ⟨⟨found, rfl, texts, hfound, columns, htexts, ?_⟩,
        htexts.1, by simp⟩
      rw [hnone]
      simp [hlength]
    | @sorted texts sorting columns order hmembers htexts horder =>
      obtain ⟨found, rfl, hperm⟩ := hmembers
      obtain ⟨hlength, hfound⟩ := (Json.perm_iff_lookup (htwo _ _)).mp hperm
      rw [List.forall_mem_cons, List.forall_mem_singleton] at hfound
      obtain ⟨hread, hcheck⟩ := isOrder_iff.mp horder
      refine ⟨⟨found, rfl, texts, hfound.1, columns, htexts, ?_⟩,
        htexts.1, by simpa using hcheck⟩
      rw [hfound.2]
      simp only [hlength, List.length_cons, List.length_nil]
      exact bind_eq_ok.mpr ⟨order, hread, rfl⟩
  · obtain ⟨columns, order⟩ := options
    rintro ⟨⟨found, rfl, texts, hcolumns, columns', htexts, hread⟩, -, hcheck⟩
    split at hread
    · by_cases hlength : found.length = 1
      · rw [if_neg (by simpa using hlength), pure_eq_ok,
          Prod.mk.injEq] at hread
        obtain ⟨rfl, rfl⟩ := hread
        refine .unsorted ⟨found, rfl, ?_⟩ htexts
        exact (Json.perm_iff_lookup (hone texts)).mpr
          ⟨hlength, by simpa using hcolumns⟩
      · rw [if_pos (by simpa using hlength)] at hread
        exact absurd hread malformed_ne_ok
    · rename_i sorting hsorting
      by_cases hlength : found.length = 2
      · rw [if_neg (by simpa using hlength), bind_eq_ok] at hread
        obtain ⟨order', horder, hread⟩ := hread
        rw [pure_eq_ok, Prod.mk.injEq] at hread
        obtain ⟨rfl, rfl⟩ := hread
        refine .sorted ⟨found, rfl, ?_⟩ htexts
          (isOrder_iff.mpr ⟨horder, hcheck _ rfl⟩)
        exact (Json.perm_iff_lookup (htwo texts sorting)).mpr
          ⟨hlength, by simpa using ⟨hcolumns, hsorting⟩⟩
      · rw [if_pos (by simpa using hlength)] at hread
        exact absurd hread malformed_ne_ok

/-! ## Transformations -/

namespace Scope

variable {scope : Scope}

theorem checkType_eq_ok {op : AggregateOp} {source : FieldRef} {done : Unit} :
    Aggregate.checkType op source = .ok done ↔ op.accepts source.type := by
  unfold Aggregate.checkType
  split <;> simp_all

/-- A rule is read if it follows the grammar and its name is a new one. -/
theorem readRule_eq_ok (hid : '_' ∉ scope.dataset.toList)
    {grouping after : Grouping} {rule : Json} :
    scope.readRule grouping rule = .ok after ↔
      ∃ aggregate, IsRule scope rule aggregate ∧
        aggregate.name ∉ grouping.aggregates.map (·.name) ∧
        after = { grouping with
          aggregates := grouping.aggregates ++ [aggregate] } := by
  unfold readRule Grouping.addAggregate
  simp only [bind_eq_ok, readEntry_eq_ok, required_eq_ok, text?_eq_some,
    AggregateOp.ofName?_eq_some, field_eq_ok hid, ite_refuse_eq_ok,
    checkType_eq_ok, pure_eq_ok]
  constructor
  · rintro ⟨⟨name, body⟩, rfl, ⟨word, source⟩, rfl, op, rfl, key, rfl, field,
      hnames, hname, hnew, -, haccepts, rfl⟩
    rw [not_or] at hname
    exact ⟨⟨name, op, field⟩,
      .intro hnames (AggregateOp.accepts_iff.mp haccepts) hname.1
        (by simpa using hname.2),
      by simpa using hnew, rfl⟩
  · rintro ⟨_, ⟨hnames, htyped, hname, hplain⟩, hnew, rfl⟩
    exact ⟨_, rfl, _, rfl, _, rfl, _, rfl, _, hnames,
      not_or.mpr ⟨hname, by simpa using hplain⟩, by simpa using hnew, (),
      AggregateOp.accepts_iff.mpr htyped, rfl⟩

/-- Rules are read if each of them follows the grammar and their names are
all different, also from those that are there before. -/
theorem foldlM_readRule_eq_ok (hid : '_' ∉ scope.dataset.toList)
    {rules : List Json} {grouping after : Grouping}
    (hnodup : (grouping.aggregates.map (·.name)).Nodup) :
    rules.foldlM scope.readRule grouping = .ok after ↔
      ∃ aggregates, List.Forall₂ (IsRule scope) rules aggregates ∧
        ((grouping.aggregates ++ aggregates).map (·.name)).Nodup ∧
        after = { grouping with
          aggregates := grouping.aggregates ++ aggregates } := by
  induction rules generalizing grouping with
  | nil =>
    rw [List.foldlM_nil, pure_eq_ok]
    constructor
    · rintro rfl
      exact ⟨[], .nil, by simpa using hnodup, by simp⟩
    · rintro ⟨aggregates, hrules, -, rfl⟩
      cases hrules
      simp
  | cons rule rules ih =>
    rw [List.foldlM_cons, bind_eq_ok]
    simp only [readRule_eq_ok hid]
    have hone (aggregate : Aggregate)
        (hnew : aggregate.name ∉ grouping.aggregates.map (·.name)) :
        ((grouping.aggregates ++ [aggregate]).map (·.name)).Nodup := by
      rw [List.map_append, List.map_singleton, List.nodup_append_comm]
      exact List.nodup_cons.mpr ⟨hnew, hnodup⟩
    constructor
    · rintro ⟨_, ⟨aggregate, hrule, hnew, rfl⟩, hrest⟩
      obtain ⟨aggregates, hrules, hnames, rfl⟩ := (ih (hone _ hnew)).mp hrest
      rw [List.append_assoc, List.singleton_append] at hnames
      exact ⟨aggregate :: aggregates, .cons hrule hrules, hnames, by simp⟩
    · rintro ⟨_, hrules, hnames, rfl⟩
      cases hrules with
      | @cons _ aggregate _ aggregates hrule hrules =>
        have hsplit : (grouping.aggregates ++ aggregate :: aggregates)
            = (grouping.aggregates ++ [aggregate]) ++ aggregates := by simp
        have hnew : aggregate.name ∉ grouping.aggregates.map (·.name) := by
          intro hmem
          rw [List.map_append, List.nodup_append] at hnames
          exact hnames.2.2 _ hmem _ (by simp) rfl
        refine ⟨_, ⟨aggregate, hrule, hnew, rfl⟩, ?_⟩
        refine (ih (hone _ hnew)).mpr ⟨aggregates, hrules, ?_, ?_⟩
        · exact hsplit ▸ hnames
        · rw [hsplit]

theorem setKeys_eq_ok {grouping after : Grouping} {keys : List FieldRef} :
    grouping.setKeys keys = .ok after ↔
      keys ≠ [] ∧ after = { grouping with keys } := by
  rw [Grouping.setKeys, ite_refuse_eq_ok, List.isEmpty_iff,
    Except.ok.injEq, eq_comm (a := after)]

/-- Transformations are read if they follow the grammar. -/
theorem readGrouping_eq_ok (hid : '_' ∉ scope.dataset.toList) {value : Json}
    {grouping : Grouping} :
    scope.readGrouping value = .ok grouping ↔
      IsGrouping scope value grouping := by
  have hkeys (texts rules : Json) :
      ([("GROUP", texts), ("APPLY", rules)].map Prod.fst).Nodup := by simp
  have hempty (keys : List FieldRef) :
      (({ Grouping.empty with keys } : Grouping).aggregates.map
        (·.name)).Nodup := List.nodup_nil
  unfold readGrouping
  simp only [bind_eq_ok, readMembers_eq_ok]
  constructor
  · rintro ⟨members, rfl, h⟩
    by_cases hlength : members.length = 2
    · rw [if_neg (by simpa using hlength)] at h
      simp only [bind_eq_ok, required_eq_ok, items?_eq_some, readTexts_eq_ok,
        mapM_eq_ok, field_eq_ok hid, setKeys_eq_ok] at h
      obtain ⟨texts, hgroup, _, happly, rules, rfl, names, htexts, keys,
        hnames, _, ⟨-, rfl⟩, hread⟩ := h
      obtain ⟨aggregates, hrules, hnodup, rfl⟩ :=
        (foldlM_readRule_eq_ok hid (hempty keys)).mp hread
      refine .intro ⟨members, rfl, ?_⟩ htexts hnames hrules hnodup
      exact (Json.perm_iff_lookup (hkeys texts (.array rules))).mpr
        ⟨hlength, by simpa using ⟨hgroup, happly⟩⟩
    · rw [if_pos (by simpa using hlength)] at h
      exact absurd h malformed_ne_ok
  · intro h
    cases h with
    | @intro texts names rules keys aggregates hmembers htexts hnames
        hrules hnodup =>
      obtain ⟨members, rfl, hperm⟩ := hmembers
      obtain ⟨hlength, hfound⟩ := (Json.perm_iff_lookup (hkeys _ _)).mp hperm
      rw [List.forall_mem_cons, List.forall_mem_singleton] at hfound
      have hne : keys ≠ [] := by
        rintro rfl
        cases hnames
        exact htexts.1 rfl
      refine ⟨members, rfl, ?_⟩
      rw [if_neg (by simpa using hlength)]
      simp only [bind_eq_ok, required_eq_ok, items?_eq_some, readTexts_eq_ok,
        mapM_eq_ok, field_eq_ok hid, setKeys_eq_ok]
      exact ⟨texts, hfound.1, _, hfound.2, rules, rfl, names, htexts, keys,
        hnames, _, ⟨hne, rfl⟩,
        (foldlM_readRule_eq_ok hid (hempty keys)).mpr
          ⟨aggregates, hrules, hnodup, rfl⟩⟩

/-- What a rule describes passes the later check. -/
theorem check_of_isRule (hid : '_' ∉ scope.dataset.toList) {rule : Json}
    {aggregate : Aggregate} (h : IsRule scope rule aggregate) :
    aggregate.check scope.dataset scope.kind = .ok () := by
  cases h with
  | intro hnames htyped =>
    rw [Aggregate.check, bind_eq_ok]
    exact ⟨(), check_of_names hid hnames,
      checkType_eq_ok.mpr (AggregateOp.accepts_iff.mpr htyped)⟩

/-- What transformations describe passes the later check. -/
theorem check_of_isGrouping (hid : '_' ∉ scope.dataset.toList) {value : Json}
    {grouping : Grouping} (h : IsGrouping scope value grouping) :
    grouping.check scope.dataset scope.kind = .ok () := by
  cases h with
  | @intro texts names rules keys aggregates _ htexts hnames hrules =>
    have hne : keys ≠ [] := by
      rintro rfl
      cases hnames
      exact htexts.1 rfl
    have hkeys := forM_of_forall₂
      (f := fun key => key.check scope.dataset scope.kind)
      (fun _ _ => check_of_names hid) hnames
    have haggregates := forM_of_forall₂
      (f := fun aggregate => aggregate.check scope.dataset scope.kind)
      (fun _ _ => check_of_isRule hid) hrules
    unfold Grouping.check
    rw [if_neg (by simpa using hne)]
    exact bind_eq_ok.mpr ⟨(), hkeys, haggregates⟩

end Scope

/-! ## Columns and clauses -/

variable {scope : Scope}

/-- Without transformations every shown column must name a field. -/
theorem checkColumns_none_eq_ok (hid : '_' ∉ scope.dataset.toList)
    {columns : List String} {done : Unit} :
    checkColumns scope none columns = .ok done ↔
      ∀ column ∈ columns, ∃ field, scope.Names column field := by
  rw [checkColumns, forM_eq_ok]
  refine forall₂_congr fun column _ => ?_
  change (fun _ => ()) <$> scope.field column = .ok () ↔ _
  simp only [map_eq_ok, Scope.field_eq_ok hid, and_true]

/-- With transformations every shown column must be one of their results. -/
theorem checkColumns_some_eq_ok {grouping : Grouping}
    {columns : List String} {done : Unit} :
    checkColumns scope (some grouping) columns = .ok done ↔
      ∀ column ∈ columns, column ∈ grouping.keys.map FieldRef.column ∨
        column ∈ grouping.aggregates.map (·.name) := by
  simp only [← List.mem_append]
  change _ ↔ ∀ column ∈ columns, column ∈ grouping.resultColumns
  rw [checkColumns]
  cases hfind : columns.find? (· ∉ grouping.resultColumns) with
  | none =>
    rw [pure_eq_ok]
    simpa using hfind
  | some column =>
    have hmem := List.mem_of_find?_eq_some hfind
    have hnot := List.find?_some hfind
    constructor
    · intro h
      exact absurd h malformed_ne_ok
    · intro h
      exact absurd (h column hmem) (by simpa using hnot)

theorem checkClauses_eq_ok {members : List (String × Json)} {done : Unit} :
    checkClauses members = .ok done ↔
      members.length =
        if (members.lookup "TRANSFORMATIONS").isSome then 3 else 2 := by
  simp only [checkClauses]
  split <;> simp_all

/-! ## Queries -/

/-- What conditions describe passes the later check. -/
theorem check_of_areConditions (hid : '_' ∉ scope.dataset.toList) {value : Json}
    {predicate : Option Predicate} (h : AreConditions scope value predicate)
    (part : Predicate) (hpart : predicate = some part) :
    part.check scope.dataset scope.kind = .ok () := by
  subst hpart
  cases h with
  | some hfilter => exact hfilter.check hid

/-- What is read is what the grammar describes: no more and no less is
accepted, and nothing is changed or put in another order. -/
theorem read_eq_ok (hid : '_' ∉ scope.dataset.toList) {raw : Json}
    {query : CampusQuery.Query} :
    Query.read scope.dataset scope.kind raw = .ok query ↔
      Describes scope raw query := by
  have htwo (conditions shown : Json) :
      ([("WHERE", conditions), ("OPTIONS", shown)].map Prod.fst).Nodup := by
    simp
  have hthree (conditions shown transformations : Json) :
      ([("WHERE", conditions), ("OPTIONS", shown),
        ("TRANSFORMATIONS", transformations)].map Prod.fst).Nodup := by simp
  unfold Query.read
  simp only [bind_eq_ok, readMembers_eq_ok, required_eq_ok,
    checkClauses_eq_ok, Scope.readConditions_eq_ok hid]
  constructor
  · rintro ⟨members, rfl, _, hlength, conditions, hwhere, predicate,
      hconditions, shown, hshown, ⟨columns, order⟩, hread, grouping, hgrouping,
      _, hcolumns, options, hparts, _, -, _, -, h⟩
    obtain rfl := pure_eq_ok.mp h
    obtain rfl := (ofParts_eq_ok.mp hparts).1
    have hoptions : AreOptions shown ⟨columns, order⟩ :=
      areOptions_iff.mpr ⟨hread, hparts⟩
    cases hlookup : members.lookup "TRANSFORMATIONS" with
    | none =>
      rw [hlookup] at hlength hgrouping
      obtain rfl := pure_eq_ok.mp hgrouping
      refine .plain ⟨members, rfl, ?_⟩ hconditions hoptions
        ((checkColumns_none_eq_ok hid).mp hcolumns)
      exact (Json.perm_iff_lookup (htwo conditions shown)).mpr
        ⟨hlength, by simpa using ⟨hwhere, hshown⟩⟩
    | some transformations =>
      rw [hlookup] at hlength hgrouping
      obtain ⟨grouping, hread, h⟩ := bind_eq_ok.mp hgrouping
      obtain rfl := pure_eq_ok.mp h
      refine .grouped ⟨members, rfl, ?_⟩ hconditions hoptions
        ((Scope.readGrouping_eq_ok hid).mp hread)
        (checkColumns_some_eq_ok.mp hcolumns)
      exact (Json.perm_iff_lookup
        (hthree conditions shown transformations)).mpr
          ⟨hlength, by simpa using ⟨hwhere, hshown, hlookup⟩⟩
  · intro h
    cases h with
    | @plain conditions shown predicate options hmembers hconditions
        hoptions hcolumns =>
      obtain ⟨members, rfl, hperm⟩ := hmembers
      obtain ⟨hlength, hfound⟩ := (Json.perm_iff_lookup (htwo _ _)).mp hperm
      rw [List.forall_mem_cons, List.forall_mem_singleton] at hfound
      have hnone : members.lookup "TRANSFORMATIONS" = none :=
        Json.lookup_eq_none_of_perm hperm (by simp)
      obtain ⟨hread, hparts⟩ := areOptions_iff.mp hoptions
      refine ⟨members, rfl, ?_⟩
      rw [hnone]
      exact ⟨(), hlength, conditions, hfound.1, predicate,
        hconditions, shown, hfound.2, _, hread, none, rfl, (),
        (checkColumns_none_eq_ok hid).mpr hcolumns, options, hparts, (),
        option_forM_eq_ok.mpr (check_of_areConditions hid hconditions), (), rfl, rfl⟩
    | @grouped conditions shown transformations predicate options grouping
        hmembers hconditions hoptions hgrouping hcolumns =>
      obtain ⟨members, rfl, hperm⟩ := hmembers
      obtain ⟨hlength, hfound⟩ :=
        (Json.perm_iff_lookup (hthree _ _ _)).mp hperm
      rw [List.forall_mem_cons, List.forall_mem_cons,
        List.forall_mem_singleton] at hfound
      obtain ⟨hread, hparts⟩ := areOptions_iff.mp hoptions
      have hgroup := (Scope.readGrouping_eq_ok hid).mpr hgrouping
      refine ⟨members, rfl, ?_⟩
      rw [hfound.2.2]
      exact ⟨(), hlength, conditions, hfound.1, predicate,
        hconditions, shown, hfound.2.1, _, hread, some grouping,
        bind_eq_ok.mpr ⟨grouping, hgroup, rfl⟩, (),
        checkColumns_some_eq_ok.mpr hcolumns, options, hparts, (),
        option_forM_eq_ok.mpr (check_of_areConditions hid hconditions), (),
        Scope.check_of_isGrouping hid hgrouping, rfl⟩

end CampusQuery.Query
