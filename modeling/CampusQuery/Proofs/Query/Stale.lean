/-
CampusQuery.Proofs.Query.Stale — queries that have outlived their dataset.

The id of a dataset that has been removed may be taken by one of the other
kind. No record there has any of the fields that the query was accepted with,
so the first stage that looks one up refuses: the condition, which is about
some field and of which all parts are evaluated (`Predicate.holds_eq_ok`), or
the grouping, which has a key, or else sorting and showing, since some column
is shown (`of_gathered_of_kind_ne`). `run_stale` concludes that nothing is
ever answered from another dataset than one of the same id and kind.
-/
import CampusQuery.Proofs.Query.Boundary

namespace CampusQuery.Query

open Numeric Outcome

/-! ## Conditions -/

variable {scope : Scope}

mutual

/-- A filter is about some field. -/
theorem IsFilter.fields_ne_nil {value : Json} {predicate : Predicate} :
    IsFilter scope value predicate → predicate.fields ≠ []
  | .conjunction hne hitems => hitems.fields_ne_nil hne
  | .disjunction hne hitems => hitems.fields_ne_nil hne
  | .negation hitem => hitem.fields_ne_nil
  | .pattern _ _ _ => List.cons_ne_nil _ _
  | .comparison _ _ => List.cons_ne_nil _ _

theorem AreFilters.fields_ne_nil {items : List Json}
    {parts : List Predicate} :
    AreFilters scope items parts → items ≠ [] →
      Predicate.fieldsOfEach parts ≠ []
  | .nil, hne => absurd rfl hne
  | .cons hitem _, _ => by
    simp [Predicate.fieldsOfEach, hitem.fields_ne_nil]

end

/-! ## What every query looks up -/

/-- Every clause of the query looks up something: its condition and its
grouping look up some field, and there is a column to show. -/
structure LooksUp (query : CampusQuery.Query) : Prop where
  conditions : ∀ predicate, query.predicate = some predicate →
    predicate.fields ≠ []
  keys : ∀ grouping, query.grouping = some grouping → grouping.keys ≠ []
  columns : query.options.columns ≠ []

theorem AreConditions.fields_ne_nil {value : Json}
    {predicate : Option Predicate} (h : AreConditions scope value predicate)
    (found : Predicate) (hfound : predicate = Option.some found) :
    found.fields ≠ [] := by
  subst hfound
  cases h with
  | some hfilter => exact hfilter.fields_ne_nil

theorem AreOptions.columns_ne_nil {value : Json} {options : Options}
    (h : AreOptions value options) : options.columns ≠ [] := by
  cases h with
  | unsorted _ htexts => exact htexts.1
  | sorted _ htexts _ => exact htexts.1

theorem IsGrouping.keys_ne_nil {value : Json} {grouping : Grouping}
    (h : IsGrouping scope value grouping) : grouping.keys ≠ [] := by
  cases h with
  | intro _ htexts hnames =>
    intro hempty
    obtain rfl : _ = [] := hempty
    exact htexts.1 (List.forall₂_nil_right_iff.mp hnames)

/-- A query that follows the grammar looks something up in every clause. -/
theorem Describes.looksUp {raw : Json} {query : CampusQuery.Query}
    (h : Describes scope raw query) : query.LooksUp := by
  cases h with
  | plain _ hconditions hoptions _ =>
    exact {
      conditions := hconditions.fields_ne_nil
      keys := fun _ h => nomatch h
      columns := hoptions.columns_ne_nil }
  | grouped _ hconditions hoptions hgrouping _ =>
    exact {
      conditions := hconditions.fields_ne_nil
      keys := fun _ h => Option.some.inj h ▸ hgrouping.keys_ne_nil
      columns := hoptions.columns_ne_nil }

/-! ## Datasets of the other kind -/

variable {query : CampusQuery.Query} {dataset : Dataset}

/-- Rows that are selected from records of the other kind have no column that
is named by a key in scope. -/
theorem not_contains_of_kind_ne {predicate : Option Predicate}
    {selected : List Row} (hid : scope.dataset = dataset.id)
    (hkind : ∀ record ∈ dataset.records, record.kind ≠ scope.kind)
    (h : selectRows dataset predicate = .ok selected) {row : Row}
    (hrow : row ∈ selected) {key : String} {ref : FieldRef}
    (hnames : scope.Names key ref) : ¬row.contains key := by
  intro hcontains
  obtain ⟨value, hvalue⟩ := Option.isSome_iff_exists.mp hcontains
  obtain ⟨record, hrecord, hcolumn⟩ := field_of_selectRows h hrow hvalue
  have hscope := hnames.of_isColumn (hid ▸ hcolumn)
  exact hkind record hrecord hscope.2.1

/-- If rows can be gathered from records of the other kind at all, there are
some, and they have none of the columns that are shown. -/
theorem of_gathered_of_kind_ne {rows : List Row} (hfits : Fits scope query)
    (hlooks : query.LooksUp) (hid : scope.dataset = dataset.id)
    (hne : dataset.records ≠ [])
    (hkind : ∀ record ∈ dataset.records, record.kind ≠ scope.kind)
    (h : query.gathered dataset = .ok rows) :
    rows ≠ [] ∧ ∀ row ∈ rows, ∀ column ∈ query.options.columns,
      ¬row.contains column := by
  obtain ⟨selected, hselected, hrows⟩ := bind_eq_ok.mp h
  have hnone : query.predicate = none := by
    by_contra hsome
    obtain ⟨predicate, hpredicate⟩ := Option.ne_none_iff_exists'.mp hsome
    obtain ⟨record, rest, hrecords⟩ := List.exists_cons_of_ne_nil hne
    obtain ⟨ref, others, hfields⟩ := List.exists_cons_of_ne_nil
      (hlooks.conditions predicate hpredicate)
    have hrecord : record ∈ dataset.records := hrecords ▸ List.mem_cons_self
    have href : ref ∈ predicate.fields := hfields ▸ List.mem_cons_self
    obtain ⟨positions, hselect, -⟩ := bind_eq_ok.mp hselected
    obtain ⟨truth, htruth⟩ :=
      exists_keeps_of_positionsFrom hselect record hrecord
    rw [hpredicate] at htruth
    obtain ⟨value, hvalue⟩ :=
      (Predicate.holds_eq_ok.mp htruth).1 ref href
    have hnames := hfits.conditions predicate hpredicate ref href
    exact hkind record hrecord (Record.kind_of_field hvalue hnames.2.1).1
  rw [hnone] at hselected
  have hsome := ne_nil_of_selectRows hne hselected
  have hlacks : ∀ row ∈ selected, ∀ key ref, scope.Names key ref →
      ¬row.contains key := fun row hrow key ref hnames =>
    not_contains_of_kind_ne hid hkind hselected hrow hnames
  cases hgrouping : query.grouping with
  | none =>
    rw [hgrouping] at hrows
    obtain rfl := pure_eq_ok.mp hrows
    refine ⟨hsome, fun row hrow column hcolumn => ?_⟩
    obtain ⟨ref, hnames⟩ := hfits.plain hgrouping column hcolumn
    exact hlacks row hrow column ref hnames
  | some grouping =>
    rw [hgrouping] at hrows
    obtain ⟨row, others, hselected⟩ := List.exists_cons_of_ne_nil hsome
    obtain ⟨key, keys, hkeys⟩ := List.exists_cons_of_ne_nil
      (hlooks.keys grouping hgrouping)
    have hrow : row ∈ selected := hselected ▸ List.mem_cons_self
    have hkey : key ∈ grouping.keys := hkeys ▸ List.mem_cons_self
    have hcovers := Grouping.covers_of_apply hrows row hrow key hkey
    exact absurd hcovers
      (hlacks row hrow _ key (hfits.keys grouping hgrouping key hkey))

/-- A row can only be shown if it has all shown columns. -/
theorem Options.contains_of_projectRow {options : Options} {row shown : Row}
    (h : options.projectRow row = .ok shown) :
    ∀ column ∈ options.columns, row.contains column := by
  intro column hcolumn
  obtain ⟨columns, hcolumns, -⟩ := bind_eq_ok.mp h
  obtain ⟨entry, -, hentry⟩ :=
    exists_of_forall₂ (mapM_eq_ok.mp hcolumns) hcolumn
  unfold shownColumn at hentry
  split at hentry
  · rename_i value hvalue
    simp [Row.contains, hvalue]
  · exact absurd hentry refuse_ne_ok

/-- Rows without the columns that are shown are not answered with. -/
theorem finish_ne_ok {rows answer : List Row} (hlooks : query.LooksUp)
    (hne : rows ≠ []) (hlacks : ∀ row ∈ rows,
      ∀ column ∈ query.options.columns, ¬row.contains column) :
    query.finish rows ≠ .ok answer := by
  intro h
  by_cases hlarge : maxRows < rows.length
  · rw [finish_of_lt hlarge] at h
    cases h
  · rw [finish_eq (Nat.not_lt.mp hlarge)] at h
    obtain ⟨sorted, hsorted, hshown⟩ := bind_eq_ok.mp h
    have hperm := Options.perm_of_orderRows hsorted
    obtain ⟨row, hrow⟩ := List.exists_mem_of_ne_nil rows hne
    obtain ⟨column, hcolumn⟩ := List.exists_mem_of_ne_nil _ hlooks.columns
    obtain ⟨shown, -, hproject⟩ := exists_of_forall₂ (mapM_eq_ok.mp hshown)
      (hperm.mem_iff.mpr hrow)
    exact hlacks row hrow column hcolumn
      (Options.contains_of_projectRow hproject column hcolumn)

/-- On a dataset of the other kind a query fails: it is refused or, at most,
its result is too large. -/
theorem run_of_kind_ne (hfits : Fits scope query) (hlooks : query.LooksUp)
    (hid : scope.dataset = dataset.id) (hne : dataset.records ≠ [])
    (hkind : ∀ record ∈ dataset.records, record.kind ≠ scope.kind) :
    ∃ e, query.run dataset = .error e ∧
      ((∃ cause, e = .invalid cause) ∨
        ∃ rows, 5000 < rows ∧ e = .tooLarge rows 5000) := by
  have hlacks : ∀ rows, query.gathered dataset = .ok rows →
      rows ≠ [] ∧ ∀ row ∈ rows, ∀ column ∈ query.options.columns,
        ¬row.contains column := fun rows hrows =>
    of_gathered_of_kind_ne hfits hlooks hid hne hkind hrows
  have hends := ends_run query dataset
  cases hrun : query.run dataset with
  | ok answer =>
    rw [run_eq (hfits.dataset.trans hid)] at hrun
    obtain ⟨rows, hrows, hfinish⟩ := bind_eq_ok.mp hrun
    obtain ⟨hsome, hwithout⟩ := hlacks rows hrows
    exact absurd hfinish (finish_ne_ok hlooks hsome hwithout)
  | error e =>
    rw [hrun] at hends
    refine ⟨e, rfl, ?_⟩
    cases hends with
    | refused cause => exact .inl ⟨cause, rfl⟩
    | tooLarge _ hlarge => exact .inr ⟨_, hlarge, rfl⟩
    | @noOrder _ row order key hrows _ _ horder hrow hkey hnan =>
      have hthere : row.contains key := by simp [Row.contains, hnan]
      have hcolumn := hfits.sorting order horder key hkey
      exact absurd hthere ((hlacks _ hrows).2 row hrow key hcolumn)

/-! ## Stale queries -/

/-- A query that has been accepted on one dataset only has answers from
datasets of the same id and kind. On one of the same id and the other kind it
always fails with an error. -/
theorem run_stale {bound : Dataset} {raw : Json} {id : String} {kind : Kind}
    {records : List Record}
    (hread : Query.read bound.id bound.kind raw = .ok query)
    (hmade : Dataset.ofRecords id kind records = .ok dataset) :
    (∀ answer, query.run dataset = .ok answer →
      dataset.id = bound.id ∧ dataset.kind = bound.kind) ∧
    (dataset.id = bound.id → dataset.kind ≠ bound.kind →
      ∃ e, query.run dataset = .error e ∧
        ((∃ cause, e = .invalid cause) ∨
          ∃ rows, 5000 < rows ∧ e = .tooLarge rows 5000)) := by
  obtain ⟨-, hne, hkind, rfl⟩ := Dataset.ofRecords_eq_ok.mp hmade
  have hfits : Fits (scopeOf bound) query := fits_of_read hread
  have hother : bound.id = id → kind ≠ bound.kind →
      ∃ e, query.run ⟨id, kind, records⟩ = .error e ∧
        ((∃ cause, e = .invalid cause) ∨
          ∃ rows, 5000 < rows ∧ e = .tooLarge rows 5000) :=
    fun hid hkinds => run_of_kind_ne hfits (describes_of_read hread).looksUp
      hid hne fun record hrecord => (hkind record hrecord).symm ▸ hkinds
  refine ⟨fun answer hanswer => ?_, fun hid => hother hid.symm⟩
  have hid : bound.id = id := by
    have hbound : query.dataset = bound.id := hfits.dataset
    rw [run, ite_refuse_eq_ok, not_not] at hanswer
    exact hbound.symm.trans hanswer.1.symm
  refine ⟨hid.symm, ?_⟩
  by_contra hkinds
  obtain ⟨e, he, -⟩ := hother hid hkinds
  cases hanswer.symm.trans he

def theatre : Record :=
  .ofRoom (.named "Woodward" "WOOD" "2" "2194 Health Sciences Mall" .zero .zero
    (.ofInt 503) "Tiered Large Group" "Classroom-Fixed Tablets" "http://wood")

def counting : Json :=
  .object
    [("OPTIONS", .object
      [("COLUMNS", .array
        [.string "n", .string "courses_dept", .string "n"])]),
     ("TRANSFORMATIONS", .object
      [("APPLY", .array
        [.object [("n", .object [("COUNT", .string "courses_uuid")])]]),
       ("GROUP", .array [.string "courses_dept", .string "courses_dept"])]),
     ("WHERE", .object [])]

/-- They are answered from sections, and from rooms that have taken their
place nothing is. -/
theorem run_stale_perDepartment :
    (∃ answer, perDepartment.run offered = .ok answer ∧
      offered.id = "courses" ∧ offered.kind = .sections) ∧
    ∃ e, perDepartment.run ⟨"courses", .rooms, [theatre]⟩ = .error e ∧
      ((∃ cause, e = .invalid cause) ∨
        ∃ rows, 5000 < rows ∧ e = .tooLarge rows 5000) := by
  have hread : Query.read offered.id offered.kind counting
      = .ok perDepartment := rfl
  have hoffered : Dataset.ofRecords offered.id offered.kind offered.records
      = .ok offered := by decide +kernel
  have hrooms : Dataset.ofRecords "courses" .rooms [theatre]
      = .ok ⟨"courses", .rooms, [theatre]⟩ := by decide +kernel
  have hrun : perDepartment.run offered = .ok
      [⟨[("n", .number (.ofInt 4)), ("courses_dept", .text "cpsc")]⟩] := by
    decide +kernel
  obtain ⟨hanswer, -⟩ := run_stale hread hoffered
  obtain ⟨-, hother⟩ := run_stale hread hrooms
  exact ⟨⟨_, hrun, hanswer _ hrun⟩, hother rfl (by decide)⟩

end CampusQuery.Query
