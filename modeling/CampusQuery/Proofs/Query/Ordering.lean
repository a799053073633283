/-
CampusQuery.Proofs.Query.Ordering — rows in their sort order.

Values that have a place in the order are compared consistently; so are rows,
by one key after the other, and sorting them leaves every two rows in a
definite order (`exists_orderRows`). A row `Precedes` another if the first key
in which they differ says so, and `Ties` with it if there is none. With
"no number" among the keys, sorting rearranges the rows or has no result
(`orderRows_cases`). Sorting looks at shown columns only, which showing the
rows leaves as they are (`get?_shown`).
-/
import Mathlib.Order.Basic
import CampusQuery.Proofs.Outcome
import CampusQuery.Proofs.Query.Collision
import CampusQuery.Proofs.Row
import CampusQuery.Proofs.Sorting
import CampusQuery.Query.Options

namespace CampusQuery

open Numeric Outcome

/-! ## The order of values -/

namespace Value

/-- The only value without a place in the order is "no number". -/
theorem isOrdered_iff {value : Value} :
    value.isOrdered ↔ value ≠ .number .nan := by
  cases value with
  | text text => simp [isOrdered]
  | number x => cases x <;> simp [isOrdered]

theorem order_swap (v w : Value) : v.order w = (w.order v).swap := by
  cases v with
  | text s =>
    cases w with
    | text t =>
      show compare s t = (compare t s).swap
      exact Std.OrientedCmp.eq_swap
    | number y => rfl
  | number x =>
    cases w with
    | text t => rfl
    | number y =>
      cases x <;> cases y <;>
        simp [order, Binary64.compare?, Binary64.orderKey?]
      exact Std.OrientedCmp.eq_swap

/-- The order goes over from two values to a third one, unless it is through
"no number". -/
theorem order_isLE_trans {v w x : Value} (hw : w.isOrdered)
    (hvw : (v.order w).isLE) (hwx : (w.order x).isLE) : (v.order x).isLE := by
  cases v <;> cases w <;> cases x <;> simp_all [order]
  · exact Std.TransCmp.isLE_trans hvw hwx
  · rename_i v w x
    cases v <;> cases w <;> cases x <;>
      simp_all [isOrdered, Binary64.compare?, Binary64.orderKey?]
    exact Std.TransCmp.isLE_trans hvw hwx

/-- Values that have a place in the order are equal if neither comes first. -/
theorem order_eq_eq_iff {v w : Value} (hv : v.isOrdered) (hw : w.isOrdered) :
    v.order w = .eq ↔ v.equals w := by
  cases v <;> cases w <;> simp [order, equals]
  rename_i x y
  cases x <;> cases y <;>
    simp_all [isOrdered, Binary64.equals, Binary64.compare?,
      Binary64.orderKey?]

/-- The value itself if it has a place in the order, and some other one that
has if it does not. -/
def settled (v : Value) : Value := if v.isOrdered then v else .text ""

theorem isOrdered_settled (v : Value) : v.settled.isOrdered := by
  unfold settled
  split
  · assumption
  · rfl

theorem settled_eq {v : Value} (h : v.isOrdered) : v.settled = v := if_pos h

end Value

namespace Query

open Grouping (Related)

/-- In either direction, values are equal if neither comes first. -/
theorem Direction.order_eq_eq_iff {direction : Direction} {v w : Value}
    (hv : v.isOrdered) (hw : w.isOrdered) :
    direction.order v w = .eq ↔ v.equals w := by
  rw [← Value.order_eq_eq_iff hv hw]
  cases direction <;> simp [Direction.order]

/-! ## The order of rows -/

/-- The row has the columns to sort by, and values there that have a place in
the order. -/
def IsSortable (keys : List String) (row : Row) : Prop :=
  ∀ key ∈ keys, ∃ value, row.get? key = some value ∧ value.isOrdered

/-- The first key in which the rows differ puts the first of them in front. -/
inductive Precedes (direction : Direction) (row other : Row) :
    List String → Prop
  | here {key : String} {rest : List String} :
      Related (fun v w => direction.order v w = .lt) row other key →
      Precedes direction row other (key :: rest)
  | later {key : String} {rest : List String} :
      Related (fun v w => v.equals w) row other key →
      Precedes direction row other rest →
      Precedes direction row other (key :: rest)

def Ties (keys : List String) (row other : Row) : Prop :=
  ∀ key ∈ keys, Related (fun v w => v.equals w) row other key

variable {direction : Direction} {keys : List String} {row other : Row}

/-- The order of two rows is that of their values in the first key in which
they differ. -/
theorem compareRows_spec (hrow : IsSortable keys row)
    (hother : IsSortable keys other) :
    (compareRows direction row other keys = .lt ↔
      Precedes direction row other keys) ∧
    (compareRows direction row other keys = .eq ↔ Ties keys row other) := by
  induction keys with
  | nil =>
    have hnone : ¬Precedes direction row other [] := fun h => nomatch h
    simp [compareRows, Ties, hnone]
  | cons key rest ih =>
    unfold IsSortable at hrow hother
    rw [List.forall_mem_cons] at hrow hother
    obtain ⟨⟨v, hv, hvOrdered⟩, hrow⟩ := hrow
    obtain ⟨⟨w, hw, hwOrdered⟩, hother⟩ := hother
    obtain ⟨hlt, heq⟩ := ih hrow hother
    have hequals := @Direction.order_eq_eq_iff direction _ _ hvOrdered hwOrdered
    have hfirst (r : Value → Value → Prop) : Related r row other key ↔ r v w := by
      simp [Related, hv, hw]
    have hprecedes : Precedes direction row other (key :: rest) ↔
        direction.order v w = .lt ∨
          (v.equals w ∧ Precedes direction row other rest) := by
      constructor
      · intro h
        cases h with
        | here h => exact .inl ((hfirst _).mp h)
        | later h hrest => exact .inr ⟨(hfirst _).mp h, hrest⟩
      · intro h
        rcases h with h | ⟨h, hrest⟩
        · exact .here ((hfirst _).mpr h)
        · exact .later ((hfirst _).mpr h) hrest
    have hties : Ties (key :: rest) row other ↔
        v.equals w ∧ Ties rest row other := by
      rw [Ties, List.forall_mem_cons, hfirst]
      rfl
    have hcompare : compareAt direction row other key = direction.order v w := by
      simp [compareAt, hv, hw]
    rw [compareRows, hcompare, Ordering.then_eq_lt, Ordering.then_eq_eq, hlt,
      heq, hequals, hprecedes, hties]
    exact ⟨Iff.rfl, Iff.rfl⟩

/-- Only the columns to sort by matter to which row precedes another. -/
theorem Precedes.congr {row' other' : Row}
    (h : Precedes direction row other keys)
    (hrow : ∀ key ∈ keys, row'.get? key = row.get? key)
    (hother : ∀ key ∈ keys, other'.get? key = other.get? key) :
    Precedes direction row' other' keys := by
  induction h with
  | here hfirst =>
    refine .here ?_
    rwa [Related, hrow _ List.mem_cons_self, hother _ List.mem_cons_self]
  | later hfirst _ ih =>
    rw [List.forall_mem_cons] at hrow hother
    refine .later ?_ (ih hrow.2 hother.2)
    rwa [Related, hrow.1, hother.1]

theorem Ties.congr {row' other' : Row} (h : Ties keys row other)
    (hrow : ∀ key ∈ keys, row'.get? key = row.get? key)
    (hother : ∀ key ∈ keys, other'.get? key = other.get? key) :
    Ties keys row' other' := by
  intro key hkey
  rw [Related, hrow key hkey, hother key hkey]
  exact h key hkey

/-! ## Consistency -/

/-- The value of a row in a column, or one in its place. -/
def standing (row : Row) (key : String) : Value :=
  ((row.get? key).getD default).settled

/-- The order of any two rows, with every value settled. -/
def settledOrder (direction : Direction) : List String → Row → Row → Ordering
  | [], _, _ => .eq
  | key :: rest, a, b =>
    (direction.order (standing a key) (standing b key)).then
      (settledOrder direction rest a b)

instance (direction : Direction) (key : String) :
    Std.TransCmp fun a b : Row =>
      direction.order (standing a key) (standing b key) := by
  have hup : Std.TransCmp fun a b : Row =>
      (standing a key).order (standing b key) :=
    { eq_swap := Value.order_swap _ _
      isLE_trans := Value.order_isLE_trans (Value.isOrdered_settled _) }
  cases direction with
  | up => exact hup
  | down =>
    have hdown : (fun a b : Row =>
        Direction.order .down (standing a key) (standing b key)) =
        fun a b => (standing b key).order (standing a key) := by
      funext a b
      exact (Value.order_swap _ _).symm
    rw [hdown]
    exact Std.TransCmp.opposite

/-- Rows are compared consistently. -/
instance (direction : Direction) (keys : List String) :
    Std.TransCmp (settledOrder direction keys) := by
  induction keys with
  | nil => exact { eq_swap := rfl, isLE_trans := fun _ _ => rfl }
  | cons key rest ih =>
    exact inferInstanceAs (Std.TransCmp (compareLex
      (fun a b : Row => direction.order (standing a key) (standing b key))
      (settledOrder direction rest)))

theorem settledOrder_eq (hrow : IsSortable keys row)
    (hother : IsSortable keys other) :
    settledOrder direction keys row other
      = compareRows direction row other keys := by
  induction keys with
  | nil => rfl
  | cons key rest ih =>
    unfold IsSortable at hrow hother
    rw [List.forall_mem_cons] at hrow hother
    obtain ⟨⟨v, hv, hvOrdered⟩, hrow⟩ := hrow
    obtain ⟨⟨w, hw, hwOrdered⟩, hother⟩ := hother
    simp [settledOrder, compareRows, compareAt, standing, hv, hw,
      Value.settled_eq hvOrdered, Value.settled_eq hwOrdered, ih hrow hother]

/-! ## Sorting -/

namespace Options

variable {options : Options}

/-- Rows that have the columns to sort by pass the check. -/
theorem forM_checkSortable {rows : List Row}
    (h : ∀ row ∈ rows, ∀ key ∈ keys, row.contains key) :
    rows.forM (checkSortable keys) = .ok () := by
  refine forM_eq_ok.mpr fun row hrow => ?_
  have hfind : keys.find? (fun key => !row.contains key) = none := by
    simpa using h row hrow
  rw [checkSortable, hfind]

theorem orderRows_some {order : SortOrder} {rows : List Row}
    (horder : options.order = some order)
    (h : ∀ row ∈ rows, ∀ key ∈ order.keys, row.contains key) :
    options.orderRows rows = sortRows order.direction order.keys rows := by
  simp only [orderRows, horder, forM_checkSortable h]
  rfl

/-- Rows whose values have a place in the order are sorted by these. -/
theorem orderRows_of_isSortable {order : SortOrder} {rows : List Row}
    (horder : options.order = some order)
    (h : ∀ row ∈ rows, IsSortable order.keys row) :
    options.orderRows rows = .ok (Sorting.stableSort
      (fun a b => compareRows order.direction a b order.keys == .lt) rows) := by
  have hthere : ∀ row ∈ rows, ∀ key ∈ order.keys, row.contains key := by
    intro row hrow key hkey
    obtain ⟨value, hvalue, -⟩ := h row hrow key hkey
    simp [Row.contains, hvalue]
  have hall : rows.all (hasOrderedKeys order.keys) := by
    simp only [List.all_eq_true, hasOrderedKeys]
    intro row hrow key hkey
    obtain ⟨value, hvalue, hordered⟩ := h row hrow key hkey
    simp [hvalue, hordered]
  rw [orderRows_some horder hthere, sortRows, if_pos hall]

/-- If some value has no place in the order, one of them is "no number". -/
theorem exists_nan_of_not_ordered {rows : List Row}
    (h : ¬rows.all (hasOrderedKeys keys)) :
    ∃ row ∈ rows, ∃ key ∈ keys, row.get? key = some (.number .nan) := by
  simp only [List.all_eq_true, hasOrderedKeys, Option.all_eq_true,
    Value.isOrdered_iff, not_forall, not_not] at h
  obtain ⟨row, hrow, key, hkey, value, hvalue, rfl⟩ := h
  exact ⟨row, hrow, key, hkey, hvalue⟩

/-- Sorting has a result, which is another arrangement of the rows, unless there
are more than 20 of them and one has "no number" in a column to sort by. -/
theorem orderRows_cases {rows : List Row}
    (h : ∀ order, options.order = some order →
      ∀ row ∈ rows, ∀ key ∈ order.keys, row.contains key) :
    (∃ sorted, options.orderRows rows = .ok sorted ∧ sorted.Perm rows) ∨
    (options.orderRows rows = .error .noOrder ∧ 20 < rows.length ∧
      ∃ order, options.order = some order ∧
        ∃ row ∈ rows, ∃ key ∈ order.keys,
          row.get? key = some (.number .nan)) := by
  cases horder : options.order with
  | none => exact .inl ⟨rows, by simp [orderRows, horder], .refl _⟩
  | some order =>
    rw [orderRows_some horder (h order horder), sortRows]
    by_cases hall : rows.all (hasOrderedKeys order.keys)
    · rw [if_pos hall]
      exact .inl ⟨_, rfl, Sorting.stableSort_perm _ _⟩
    · rw [if_neg hall]
      split
      · rename_i sorted hsorted
        exact .inl ⟨sorted, rfl, Sorting.perm_of_sortAnyway? hsorted⟩
      · rename_i hnone
        have hlong : 20 < rows.length := by
          by_contra hshort
          obtain ⟨sorted, hsorted⟩ := Sorting.exists_sortAnyway?
            (fun a b => compareRows order.direction a b order.keys == .lt)
            (Nat.not_lt.mp hshort)
          rw [hnone] at hsorted
          cases hsorted
        exact .inr ⟨rfl, hlong, order, rfl, exists_nan_of_not_ordered hall⟩

/-- Sorting puts every two rows in a definite order: one precedes the other,
or they tie and stand as they did before. What comes along with a row stays
with it. -/
theorem exists_orderRows {τ : Type} {earlier : τ → τ → Prop}
    {tagged : List (τ × Row)}
    (hearlier : tagged.Pairwise fun p q => earlier p.1 q.1)
    (hkeys : ∀ order, options.order = some order →
      ∀ p ∈ tagged, IsSortable order.keys p.2) :
    ∃ sorted : List (τ × Row),
      options.orderRows (tagged.map (·.2)) = .ok (sorted.map (·.2)) ∧
      sorted.Perm tagged ∧ (options.order = none → sorted = tagged) ∧
      ∀ order, options.order = some order → sorted.Pairwise fun p q =>
        Precedes order.direction p.2 q.2 order.keys ∨
          (Ties order.keys p.2 q.2 ∧ earlier p.1 q.1) := by
  cases horder : options.order with
  | none => exact ⟨tagged, by simp [orderRows, horder], .refl _, by simp, by simp⟩
  | some order =>
    replace hkeys := hkeys order horder
    let less (p q : τ × Row) : Bool :=
      compareRows order.direction p.2 q.2 order.keys == .lt
    let cmp (p q : τ × Row) : Ordering :=
      settledOrder order.direction order.keys p.2 q.2
    have hrows : Std.TransCmp (settledOrder order.direction order.keys) :=
      inferInstance
    have hcmp : Std.TransCmp cmp :=
      { eq_swap := hrows.eq_swap, isLE_trans := hrows.isLE_trans }
    have heq : ∀ p ∈ tagged, ∀ q ∈ tagged,
        cmp p q = compareRows order.direction p.2 q.2 order.keys :=
      fun p hp q hq => settledOrder_eq (hkeys p hp) (hkeys q hq)
    have hless : ∀ p ∈ tagged, ∀ q ∈ tagged,
        less p q = true ↔ cmp p q = .lt := by
      intro p hp q hq
      rw [heq p hp q hq]
      exact beq_iff_eq
    have hperm := Sorting.stableSort_perm less tagged
    refine ⟨Sorting.stableSort less tagged, ?_, hperm, by simp, ?_⟩
    · have hrows : ∀ row ∈ tagged.map (·.2), IsSortable order.keys row := by
        simpa using fun row p hp => hkeys (p, row) hp
      have hsorted : Sorting.stableSort
          (fun a b => compareRows order.direction a b order.keys == .lt)
          (tagged.map (·.2)) = (Sorting.stableSort less tagged).map (·.2) :=
        Sorting.stableSort_map fun _ _ _ _ => rfl
      rw [orderRows_of_isSortable horder hrows, hsorted]
    · intro found hfound
      obtain rfl := Option.some.inj hfound
      refine (Sorting.pairwise_stableSort hless hearlier).imp_of_mem ?_
      intro p q hp hq hpq
      have hp := hperm.mem_iff.mp hp
      have hq := hperm.mem_iff.mp hq
      obtain ⟨hlt, htie⟩ := compareRows_spec (hkeys p hp) (hkeys q hq)
      rw [heq p hp q hq, hlt, htie] at hpq
      exact hpq

/-! ## Showing -/

def shown (options : Options) (row : Row) : Row :=
  .ofColumns (options.columns.filterMap fun column =>
    (row.get? column).map (column, ·))

/-- A row that has all shown columns is shown with these. -/
theorem projectRow_eq_ok
    (h : ∀ column ∈ options.columns, row.contains column) :
    options.projectRow row = .ok (options.shown row) := by
  refine bind_eq_ok.mpr ⟨_, ?_, rfl⟩
  rw [mapM_eq_ok]
  generalize options.columns = columns at h
  induction columns with
  | nil => exact .nil
  | cons column rest ih =>
    rw [List.forall_mem_cons] at h
    obtain ⟨value, hvalue⟩ := Option.isSome_iff_exists.mp h.1
    rw [List.filterMap_cons, hvalue]
    exact .cons (by simp [shownColumn, hvalue]) (ih h.2)

/-- It has the shown columns once each, and no others. -/
theorem names_shown (h : ∀ column ∈ options.columns, row.contains column) :
    (options.shown row).names = options.columns.eraseDups := by
  rw [shown, Row.names_ofColumns, Row.map_fst_filterMap_get? h]

/-- It has the values that the row has. -/
theorem get?_shown {column : String} (hcolumn : column ∈ options.columns)
    (h : row.contains column) :
    (options.shown row).get? column = row.get? column := by
  obtain ⟨value, hvalue⟩ := Option.isSome_iff_exists.mp h
  rw [hvalue]
  refine Row.get?_ofColumns ?_ fun other hother => ?_
  · exact List.mem_filterMap.mpr ⟨column, hcolumn, by simp [hvalue]⟩
  · obtain ⟨same, -, hsame⟩ := List.mem_filterMap.mp hother
    obtain ⟨found, hfound, hpair⟩ := Option.map_eq_some_iff.mp hsame
    obtain ⟨rfl, rfl⟩ := Prod.mk.inj hpair
    exact Option.some.inj (hfound.symm.trans hvalue)

/-- Rows that have all shown columns are shown one by one. -/
theorem project_eq_ok {rows : List Row}
    (h : ∀ row ∈ rows, ∀ column ∈ options.columns, row.contains column) :
    options.project rows = .ok (rows.map options.shown) := by
  rw [project, mapM_eq_ok, List.forall₂_map_right_iff, List.forall₂_same]
  exact fun row hrow => projectRow_eq_ok (h row hrow)

end Options

end Query

end CampusQuery
