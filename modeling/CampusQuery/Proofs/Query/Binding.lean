/-
CampusQuery.Proofs.Query.Binding — the dataset that is found is the one that
accepts.

`boundDataset` goes through a query with no regard for the grammar, and
takes the first field that it meets. In a query that follows the grammar
every field is one of the dataset in scope, so whichever comes first gives
its id: `IsFilter.dataset` follows the conditions down to their first leaf,
and `boundDataset_of_read` goes through the clauses. A query is therefore
accepted on datasets of one id only, and asking a source for that dataset
alone misses none that accepts: `validate_agrees`.
-/
import CampusQuery.Proofs.Query.Acceptance
import CampusQuery.Query.Execution

namespace CampusQuery.Query

open Outcome

/-! ## Keys -/

/-- The first part of a column is the dataset that it is of. -/
theorem datasetPart?_columnName {dataset : String} (hid : '_' ∉ dataset.toList)
    (field : String) :
    datasetPart? (columnName dataset field) = some dataset := by
  have hpre : ∀ c ∈ dataset.toList, (c != '_') = true := by
    intro c hc
    have hne : c ≠ '_' := fun h => hid (h ▸ hc)
    simpa using hne
  unfold datasetPart?
  rw [List.span_eq_takeWhile_dropWhile, toList_columnName,
    List.takeWhile_append_of_pos hpre, List.dropWhile_append_of_pos hpre]
  simp

variable {scope : Scope}

/-- A key that names a field tells the dataset in scope. -/
theorem Scope.Names.datasetPart? {key : String} {ref : FieldRef}
    (h : scope.Names key ref) (hid : '_' ∉ scope.dataset.toList) :
    datasetPart? key = some scope.dataset := by
  obtain ⟨hdataset, -, rfl⟩ := h
  rw [FieldRef.column, hdataset]
  exact datasetPart?_columnName hid _

/-- The first text of a list decides if it names a field. -/
theorem textsDataset_of_names {value : Json} {texts : List String}
    (hid : '_' ∉ scope.dataset.toList) (hvalue : IsTexts value texts)
    (h : ∀ text ∈ texts, ∃ ref, scope.Names text ref) :
    textsDataset value = some scope.dataset := by
  obtain ⟨hne, rfl⟩ := hvalue
  obtain ⟨text, rest, rfl⟩ := List.exists_cons_of_ne_nil hne
  obtain ⟨ref, hnames⟩ := h text List.mem_cons_self
  simp [textsDataset, Json.items?, Json.text?, hnames.datasetPart? hid]

/-! ## Conditions -/

mutual

/-- The first field of a filter is one of the dataset in scope. -/
theorem IsFilter.dataset (hid : '_' ∉ scope.dataset.toList) {value : Json}
    {predicate : Predicate} :
    IsFilter scope value predicate →
      ∃ members, value = .object members ∧
        membersDataset members = some scope.dataset
  | .conjunction hne hitems =>
    ⟨_, rfl, by simp [membersDataset, filterDataset, hitems.dataset hid hne]⟩
  | .disjunction hne hitems =>
    ⟨_, rfl, by simp [membersDataset, filterDataset, hitems.dataset hid hne]⟩
  | .negation hitem => by
    obtain ⟨members, rfl, hmembers⟩ := hitem.dataset hid
    exact ⟨_, rfl, by simp [membersDataset, filterDataset, hmembers]⟩
  | .pattern hnames _ _ => by
    have hword : FilterWord.ofName? "IS" = some .pattern := rfl
    exact ⟨_, rfl, by simp [membersDataset, filterDataset, firstKeyDataset,
      hword, hnames.datasetPart? hid]⟩
  | @IsFilter.comparison _ op _ _ _ hnames _ => by
    have hword : FilterWord.ofName? op.name = some (.comparison op) :=
      FilterWord.ofName?_eq_some.mpr rfl
    have hnot : op.name ≠ "NOT" := by cases op <;> decide
    exact ⟨_, rfl, by simp [membersDataset, filterDataset, firstKeyDataset,
      hword, hnot, hnames.datasetPart? hid]⟩

/-- The first field of some filters is the first one of the first filter. -/
theorem AreFilters.dataset (hid : '_' ∉ scope.dataset.toList)
    {items : List Json} {parts : List Predicate} :
    AreFilters scope items parts → items ≠ [] →
      itemsDataset items = some scope.dataset
  | .nil, hne => absurd rfl hne
  | .cons hitem _, _ => by
    obtain ⟨members, rfl, hmembers⟩ := hitem.dataset hid
    simp [itemsDataset, hmembers]

end

/-- Conditions tell the dataset in scope, unless there are none. -/
theorem AreConditions.dataset (hid : '_' ∉ scope.dataset.toList) {value : Json}
    {predicate : Option Predicate} (h : AreConditions scope value predicate) :
    ∃ members, value = .object members ∧
      (membersDataset members = Option.some scope.dataset ∨
        membersDataset members = Option.none) := by
  cases h with
  | none => exact ⟨[], rfl, .inr (by simp [membersDataset])⟩
  | some hfilter =>
    obtain ⟨members, hvalue, hmembers⟩ := hfilter.dataset hid
    exact ⟨members, hvalue, .inl hmembers⟩

/-! ## Clauses -/

/-- The keys of a grouping tell the dataset in scope. -/
theorem IsGrouping.dataset (hid : '_' ∉ scope.dataset.toList) {value : Json}
    {grouping : Grouping} (h : IsGrouping scope value grouping) :
    (value.get? "GROUP").bind textsDataset = some scope.dataset := by
  cases h with
  | @intro texts names rules keys aggregates hmembers htexts hnames =>
    have hkeys : ([("GROUP", texts), ("APPLY", Json.array rules)].map
        Prod.fst).Nodup := by simp
    obtain ⟨members, rfl, -, hfound⟩ := (hasMembers_iff hkeys).mp hmembers
    have hgroup := hfound _ List.mem_cons_self
    have hfields : ∀ name ∈ names, ∃ ref, scope.Names name ref := by
      intro name hname
      obtain ⟨ref, -, href⟩ := exists_of_forall₂ hnames hname
      exact ⟨ref, href⟩
    simp [Json.get?, Json.members?, hgroup,
      textsDataset_of_names hid htexts hfields]

/-- Columns that name fields tell the dataset in scope. -/
theorem AreOptions.dataset (hid : '_' ∉ scope.dataset.toList) {value : Json}
    {options : Options} (h : AreOptions value options)
    (hcolumns : ∀ column ∈ options.columns, ∃ ref, scope.Names column ref) :
    (value.get? "COLUMNS").bind textsDataset = some scope.dataset := by
  have hfound : ∃ texts members, value = .object members ∧
      members.lookup "COLUMNS" = some texts ∧ IsTexts texts options.columns := by
    cases h with
    | @unsorted texts columns hmembers htexts =>
      have hkeys : ([("COLUMNS", texts)].map Prod.fst).Nodup := by simp
      obtain ⟨members, rfl, -, hfound⟩ := (hasMembers_iff hkeys).mp hmembers
      exact ⟨texts, members, rfl, hfound _ List.mem_cons_self, htexts⟩
    | @sorted texts sorting columns order hmembers htexts _ =>
      have hkeys : ([("COLUMNS", texts), ("ORDER", sorting)].map
          Prod.fst).Nodup := by simp
      obtain ⟨members, rfl, -, hfound⟩ := (hasMembers_iff hkeys).mp hmembers
      exact ⟨texts, members, rfl, hfound _ List.mem_cons_self, htexts⟩
  obtain ⟨texts, members, rfl, hlookup, htexts⟩ := hfound
  simp [Json.get?, Json.members?, hlookup,
    textsDataset_of_names hid htexts hcolumns]

/-- A query that follows the grammar is bound to the dataset in scope. -/
theorem Describes.bound (hid : '_' ∉ scope.dataset.toList) {raw : Json}
    {query : CampusQuery.Query} (h : Describes scope raw query) :
    boundDataset raw = .ok scope.dataset := by
  cases h with
  | @plain conditions shown predicate options hmembers hconditions hoptions
      hcolumns =>
    have hkeys : ([("WHERE", conditions), ("OPTIONS", shown)].map
        Prod.fst).Nodup := by simp
    obtain ⟨members, rfl, hlength, hfound⟩ := (hasMembers_iff hkeys).mp hmembers
    have hperm := (Json.perm_iff_lookup hkeys).mpr ⟨hlength, hfound⟩
    have hnone : members.lookup "TRANSFORMATIONS" = none :=
      Json.lookup_eq_none_of_perm hperm (by simp)
    simp only [List.forall_mem_cons] at hfound
    obtain ⟨hwhere, hoptionsAt, -⟩ := hfound
    obtain ⟨filters, rfl, hfirst⟩ := hconditions.dataset hid
    have hshown := hoptions.dataset hid hcolumns
    rcases hfirst with hfirst | hfirst <;>
      simp [Query.boundDataset, hwhere, hoptionsAt, hnone, Json.members?,
        hfirst, hshown]
  | @grouped conditions shown transformations predicate options grouping
      hmembers hconditions hoptions hgrouping hcolumns =>
    have hkeys : ([("WHERE", conditions), ("OPTIONS", shown),
        ("TRANSFORMATIONS", transformations)].map Prod.fst).Nodup := by simp
    obtain ⟨members, rfl, -, hfound⟩ := (hasMembers_iff hkeys).mp hmembers
    simp only [List.forall_mem_cons] at hfound
    obtain ⟨hwhere, hoptionsAt, htransform, -⟩ := hfound
    obtain ⟨filters, rfl, hfirst⟩ := hconditions.dataset hid
    have hgroup := hgrouping.dataset hid
    rcases hfirst with hfirst | hfirst <;>
      simp [Query.boundDataset, hwhere, htransform, Json.members?, hfirst,
        hgroup]

/-- A query is bound to the dataset that it is accepted on. -/
theorem boundDataset_of_read {dataset : String} {kind : Kind} {raw : Json}
    {query : CampusQuery.Query}
    (h : Query.read dataset kind raw = .ok query) :
    boundDataset raw = .ok dataset := by
  have hid := underscore_not_mem_of_read h
  have hdescribes := describes_of_read h
  exact hdescribes.bound hid

/-! ## Sources -/

def Accepts (dataset : Dataset) (raw : Json) : Prop :=
  ∃ query, Query.read dataset.id dataset.kind raw = .ok query

/-- A source that has every dataset under its own id. -/
def IsKeyed (source : Source) : Prop :=
  ∀ id dataset, source id = .ok (some dataset) → dataset.id = id

theorem settle_eq_ok {id : String} {found : Outcome (Option Dataset)}
    {dataset : Dataset} :
    settle id found = .ok dataset ↔ found = .ok (some dataset) := by
  unfold settle
  split <;> simp

/-- A query is validated with the dataset that the source has under the id
that it is bound to. -/
theorem validate_eq_ok {source : Source} {raw : Json} {dataset : Dataset}
    {query : CampusQuery.Query} :
    validate source raw = .ok (dataset, query) ↔
      ∃ id, boundDataset raw = .ok id ∧ source id = .ok (some dataset) ∧
        Query.read dataset.id dataset.kind raw = .ok query := by
  simp only [validate, bind_eq_ok, settle_eq_ok, pure_eq_ok]
  constructor
  · intro h
    obtain ⟨id, hbound, found, hfound, read, hread, heq⟩ := h
    obtain ⟨rfl, rfl⟩ := Prod.mk.inj heq
    exact ⟨id, hbound, hfound, hread⟩
  · intro h
    obtain ⟨id, hbound, hfound, hread⟩ := h
    exact ⟨id, hbound, dataset, hfound, query, hread, rfl⟩

/-- A query is bound to the id of any dataset that accepts it; so there is
one such id at most, and a keyed source validates the query if and only if
one of its datasets accepts it. -/
theorem validate_agrees (raw : Json) :
    (∀ dataset, Accepts dataset raw → boundDataset raw = .ok dataset.id) ∧
    (∀ dataset other, Accepts dataset raw → Accepts other raw →
      dataset.id = other.id) ∧
    ∀ source, IsKeyed source →
      ((∃ found, validate source raw = .ok found) ↔
        ∃ id dataset, source id = .ok (some dataset) ∧ Accepts dataset raw) := by
  have hbound : ∀ dataset, Accepts dataset raw →
      boundDataset raw = .ok dataset.id := by
    intro dataset haccepts
    obtain ⟨query, hread⟩ := haccepts
    exact boundDataset_of_read hread
  refine ⟨hbound, ?_, ?_⟩
  · intro dataset other hdataset hother
    exact Except.ok.inj ((hbound _ hdataset).symm.trans (hbound _ hother))
  · intro source hkeyed
    constructor
    · intro h
      obtain ⟨⟨dataset, query⟩, hfound⟩ := h
      obtain ⟨id, -, hsource, hread⟩ := validate_eq_ok.mp hfound
      exact ⟨id, dataset, hsource, query, hread⟩
    · intro h
      obtain ⟨id, dataset, hsource, haccepts⟩ := h
      obtain rfl := hkeyed id dataset hsource
      obtain ⟨query, hread⟩ := haccepts
      exact ⟨(dataset, query), validate_eq_ok.mpr
        ⟨dataset.id, hbound _ ⟨query, hread⟩, hsource, hread⟩⟩

/-- The datasets of a list, each under its id. -/
def listed (datasets : List Dataset) : Source := fun id =>
  .ok (datasets.find? (·.id == id))

theorem isKeyed_listed (datasets : List Dataset) : IsKeyed (listed datasets) := by
  intro id dataset h
  have hfound := List.find?_some (Except.ok.inj h)
  simpa using hfound

/-- Sections that are not both old and bad, by title. -/
def titles : Json :=
  .object
    [("OPTIONS", .object [("COLUMNS", .array [.string "courses_title"])]),
     ("WHERE", .object
      [("NOT", .object
        [("AND", .array
          [.object [("LT", .object
            [("courses_year", .number (.integer 2000))])],
           .object [("LT", .object
            [("courses_avg", .number (.integer 60))])]])])])]

/-- The sections accept a query for titles, the rooms that stand before them
do not, and it is validated. -/
theorem validate_agrees_titles :
    boundDataset titles = .ok "courses" ∧
    (∃ found, validate
      (listed [⟨"rooms", .rooms, []⟩, ⟨"courses", .sections, []⟩]) titles
        = .ok found) ∧
    ∀ other, Accepts other titles → other.id = "courses" := by
  have haccepts : Accepts ⟨"courses", .sections, []⟩ titles := ⟨_, rfl⟩
  obtain ⟨hbound, hsame, hsource⟩ := validate_agrees titles
  refine ⟨hbound _ haccepts, ?_, ?_⟩
  · exact (hsource _ (isKeyed_listed _)).mpr ⟨"courses", _, rfl, haccepts⟩
  · intro other hother
    exact hsame other _ hother haccepts

end CampusQuery.Query
