/-
CampusQuery.Proofs.Query.Acceptance — what every accepted query is like.

A query can only be accepted on a dataset whose id has no underscore
(`underscore_not_mem_of_read`), so an accepted value follows the grammar
without any assumption on the dataset (`describes_of_read`). `Fits` is what
the later stages of a query need of it: every field it looks up is one of
the dataset, and every column it sorts by or shows will be there.
-/
import CampusQuery.Proofs.Query.Satisfaction
import CampusQuery.Proofs.Query.Validation

namespace CampusQuery.Query

open Outcome

/-! ## Ids -/

namespace Scope

variable {scope : Scope}

/-- A key is only found in a dataset whose id has no underscore. -/
theorem underscore_not_mem_of_field {key : String} {ref : FieldRef}
    (h : scope.field key = .ok ref) : '_' ∉ scope.dataset.toList := by
  unfold field FieldRef.parse at h
  split at h
  · exact absurd h refuse_ne_ok
  · rename_i dataset name hsplit
    obtain ⟨hid, -, -⟩ := splitKey?_eq_some.mp hsplit
    by_cases hbound : dataset = scope.dataset
    · exact hbound ▸ hid
    · rw [if_pos hbound] at h
      exact absurd h refuse_ne_ok

/-- A list of keys that are found has a key that is found. -/
theorem exists_field_of_mapM {keys : List String} {refs : List FieldRef}
    (h : keys.mapM scope.field = .ok refs) (hne : keys ≠ []) :
    ∃ key ref, scope.field key = .ok ref := by
  obtain ⟨key, rest, rfl⟩ := List.exists_cons_of_ne_nil hne
  obtain ⟨ref, -, hfield⟩ :=
    exists_of_forall₂ (mapM_eq_ok.mp h) List.mem_cons_self
  exact ⟨key, ref, hfield⟩

/-- Reading a grouping finds at least one key. -/
theorem exists_field_of_readGrouping {value : Json} {grouping : Grouping}
    (h : scope.readGrouping value = .ok grouping) :
    ∃ key ref, scope.field key = .ok ref := by
  unfold readGrouping at h
  obtain ⟨members, -, h⟩ := bind_eq_ok.mp h
  by_cases hlength : members.length = 2
  · rw [if_neg (not_not_intro hlength)] at h
    simp only [bind_eq_ok, readTexts_eq_ok] at h
    obtain ⟨_, -, _, -, _, -, texts, htexts, _, hkeys, -⟩ := h
    exact exists_field_of_mapM hkeys htexts.1
  · rw [if_pos hlength] at h
    exact absurd h malformed_ne_ok

end Scope

/-- A query is only accepted on a dataset whose id has no underscore, since
there is a field in every query. -/
theorem underscore_not_mem_of_read {dataset : String} {kind : Kind}
    {raw : Json} {query : CampusQuery.Query}
    (h : Query.read dataset kind raw = .ok query) : '_' ∉ dataset.toList := by
  unfold Query.read at h
  simp only [bind_eq_ok] at h
  obtain ⟨members, -, -, -, _, -, _, -, _, -, ⟨columns, order⟩, -, grouping,
    hgrouping, _, hcolumns, _, hparts, -⟩ := h
  suffices hfound : ∃ key ref, Scope.field ⟨dataset, kind⟩ key = .ok ref by
    obtain ⟨key, ref, hfield⟩ := hfound
    exact Scope.underscore_not_mem_of_field hfield
  cases hlookup : members.lookup "TRANSFORMATIONS" with
  | none =>
    -- Without transformations the first shown column is a field.
    rw [hlookup] at hgrouping
    obtain rfl := pure_eq_ok.mp hgrouping
    obtain ⟨-, hne, -⟩ := ofParts_eq_ok.mp hparts
    obtain ⟨column, rest, rfl⟩ := List.exists_cons_of_ne_nil hne
    have hcolumn := forM_eq_ok.mp hcolumns column List.mem_cons_self
    obtain ⟨ref, hfield, -⟩ := map_eq_ok.mp hcolumn
    exact ⟨column, ref, hfield⟩
  | some value =>
    rw [hlookup] at hgrouping
    obtain ⟨grouping, hread, -⟩ := bind_eq_ok.mp hgrouping
    exact Scope.exists_field_of_readGrouping hread

/-- An accepted value follows the grammar, whatever the dataset. -/
theorem describes_of_read {dataset : String} {kind : Kind} {raw : Json}
    {query : CampusQuery.Query}
    (h : Query.read dataset kind raw = .ok query) :
    Describes ⟨dataset, kind⟩ raw query :=
  (@read_eq_ok ⟨dataset, kind⟩ (underscore_not_mem_of_read h) _ _).mp h

/-! ## Fields and columns -/

/-- What a query looks up is there: its fields are fields of the dataset in
scope, and its columns are those fields or results of its grouping. -/
structure Fits (scope : Scope) (query : CampusQuery.Query) : Prop where
  dataset : query.dataset = scope.dataset
  conditions : ∀ predicate, query.predicate = some predicate →
    ∀ ref ∈ predicate.fields, scope.Names ref.column ref
  sorting : ∀ order, query.options.order = some order →
    ∀ key ∈ order.keys, key ∈ query.options.columns
  plain : query.grouping = none →
    ∀ column ∈ query.options.columns, ∃ ref, scope.Names column ref
  keys : ∀ grouping, query.grouping = some grouping →
    ∀ key ∈ grouping.keys, scope.Names key.column key
  sources : ∀ grouping, query.grouping = some grouping →
    ∀ aggregate ∈ grouping.aggregates,
      scope.Names aggregate.source.column aggregate.source
  results : ∀ grouping, query.grouping = some grouping →
    ∀ column ∈ query.options.columns, column ∈ grouping.resultColumns

variable {scope : Scope}

mutual

/-- A filter is about fields of the dataset in scope. -/
theorem IsFilter.names {value : Json} {predicate : Predicate} :
    IsFilter scope value predicate →
      ∀ ref ∈ predicate.fields, scope.Names ref.column ref
  | .conjunction _ hitems => hitems.names
  | .disjunction _ hitems => hitems.names
  | .negation hitem => hitem.names
  | .pattern hnames _ _ => by simpa [Predicate.fields] using hnames.self
  | .comparison hnames _ => by simpa [Predicate.fields] using hnames.self

theorem AreFilters.names {items : List Json} {parts : List Predicate} :
    AreFilters scope items parts →
      ∀ ref ∈ Predicate.fieldsOfEach parts, scope.Names ref.column ref
  | .nil => by simp [Predicate.fieldsOfEach]
  | .cons hitem hrest => by
    simp only [Predicate.fieldsOfEach, List.forall_mem_append]
    exact ⟨hitem.names, hrest.names⟩

end

theorem AreConditions.names {value : Json} {predicate : Option Predicate}
    (h : AreConditions scope value predicate) (found : Predicate)
    (hfound : predicate = Option.some found) :
    ∀ ref ∈ found.fields, scope.Names ref.column ref := by
  subst hfound
  cases h with
  | some hfilter => exact hfilter.names

/-- A sort order sorts by shown columns. -/
theorem AreOptions.sorting {value : Json} {options : Options}
    (h : AreOptions value options) (order : SortOrder)
    (horder : options.order = some order) :
    ∀ key ∈ order.keys, key ∈ options.columns := by
  cases h with
  | unsorted => cases horder
  | sorted _ _ hsorting =>
    obtain rfl := Option.some.inj horder
    exact (checkOrder_eq_ok.mp (isOrder_iff.mp hsorting).2).2

/-- The keys and the sources of a grouping are fields of the dataset in
scope. -/
theorem IsGrouping.names {value : Json} {grouping : Grouping}
    (h : IsGrouping scope value grouping) :
    (∀ key ∈ grouping.keys, scope.Names key.column key) ∧
      ∀ aggregate ∈ grouping.aggregates,
        scope.Names aggregate.source.column aggregate.source := by
  cases h with
  | intro _ _ hkeys hrules =>
    constructor
    · intro key hkey
      obtain ⟨name, -, hname⟩ := exists_of_forall₂ hkeys.flip hkey
      exact Scope.Names.self hname
    · intro aggregate haggregate
      obtain ⟨rule, -, hrule⟩ := exists_of_forall₂ hrules.flip haggregate
      cases hrule with
      | intro hsource => exact hsource.self

/-- A query that follows the grammar fits its dataset. -/
theorem Describes.fits {raw : Json} {query : CampusQuery.Query}
    (h : Describes scope raw query) : Fits scope query := by
  cases h with
  | plain _ hconditions hoptions hcolumns =>
    exact {
      dataset := rfl
      conditions := hconditions.names
      sorting := hoptions.sorting
      plain := fun _ => hcolumns
      keys := fun _ h => nomatch h
      sources := fun _ h => nomatch h
      results := fun _ h => nomatch h }
  | grouped _ hconditions hoptions hgrouping hcolumns =>
    obtain ⟨hkeys, hsources⟩ := hgrouping.names
    exact {
      dataset := rfl
      conditions := hconditions.names
      sorting := hoptions.sorting
      plain := fun h => nomatch h
      keys := fun _ h => Option.some.inj h ▸ hkeys
      sources := fun _ h => Option.some.inj h ▸ hsources
      results := fun _ h => Option.some.inj h ▸ fun column hcolumn =>
        List.mem_append.mpr (hcolumns column hcolumn) }

/-- An accepted query fits the dataset that it is accepted on. -/
theorem fits_of_read {dataset : String} {kind : Kind} {raw : Json}
    {query : CampusQuery.Query}
    (h : Query.read dataset kind raw = .ok query) :
    Fits ⟨dataset, kind⟩ query := (describes_of_read h).fits

end CampusQuery.Query
