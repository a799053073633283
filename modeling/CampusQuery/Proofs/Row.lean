/-
CampusQuery.Proofs.Row — which columns a row has.

A row that is made of columns has each of their names once, where it first
stands (`names_ofColumns`), and it contains a column if it has its name. Each
of its columns has a value that it is set to (`mem_of_get?_ofColumns`).
-/
import Mathlib.Data.List.Induction
import CampusQuery.Row

namespace CampusQuery.Row

/-- A row contains the columns that it has names of. -/
theorem contains_iff {row : Row} {column : String} :
    row.contains column ↔ column ∈ row.names := by
  simp [contains, get?, names, List.lookup_isSome_iff]

/-- Setting a column keeps the names; one that is new comes last. -/
theorem map_fst_setColumn (column : String) (value : Value) :
    ∀ columns : List (String × Value),
      (setColumn column value columns).map Prod.fst =
        if column ∈ columns.map Prod.fst then columns.map Prod.fst
        else columns.map Prod.fst ++ [column]
  | [] => by simp [setColumn]
  | (other, kept) :: rest => by
    by_cases h : other = column
    · simp [setColumn, h]
    · have hne : column ≠ other := Ne.symm h
      rw [setColumn, if_neg h, List.map_cons, map_fst_setColumn column value rest]
      by_cases hrest : column ∈ rest.map Prod.fst
      · simp [hrest]
      · simp [hrest, hne]

/-- A row of columns has each of their names once, in the order in which they
first occur. -/
theorem names_ofColumns (columns : List (String × Value)) :
    (ofColumns columns).names = (columns.map Prod.fst).eraseDups := by
  -- The row grows at its end, so the columns are taken from the end as well.
  induction columns using List.reverseRecOn with
  | nil => rfl
  | append_singleton front last ih =>
    have hset : (ofColumns (front ++ [last])).names =
        (setColumn last.1 last.2 (ofColumns front).columns).map Prod.fst := by
      simp [ofColumns, names, insert]
    have hnames : (ofColumns front).columns.map Prod.fst
        = (front.map Prod.fst).eraseDups := ih
    rw [hset, map_fst_setColumn, hnames, List.map_append, List.map_singleton,
      List.eraseDups_append]
    by_cases h : last.1 ∈ front.map Prod.fst
    · rw [if_pos (List.mem_eraseDups.mpr h)]
      simp [List.removeAll, h]
    · rw [if_neg fun hmem => h (List.mem_eraseDups.mp hmem)]
      simp [List.removeAll, h, List.eraseDups_cons]

/-- A row of columns contains these and no others. -/
theorem contains_ofColumns {columns : List (String × Value)}
    {column : String} :
    (ofColumns columns).contains column ↔ column ∈ columns.map Prod.fst := by
  rw [contains_iff, names_ofColumns, List.mem_eraseDups]

/-- Columns that a row has can be taken from it, each with its value. -/
theorem map_fst_filterMap_get? {row : Row} {columns : List String}
    (h : ∀ column ∈ columns, row.contains column) :
    (columns.filterMap fun column =>
      (row.get? column).map (column, ·)).map Prod.fst = columns := by
  induction columns with
  | nil => rfl
  | cons column rest ih =>
    rw [List.forall_mem_cons] at h
    obtain ⟨value, hvalue⟩ := Option.isSome_iff_exists.mp h.1
    simp [hvalue, ih h.2]

/-- A column of such a row has one of the values that it is set to. -/
theorem mem_of_get?_ofColumns {columns : List (String × Value)}
    {column : String} {value : Value}
    (h : (ofColumns columns).get? column = some value) :
    (column, value) ∈ columns := by
  induction columns using List.reverseRecOn with
  | nil => simp [ofColumns, get?, empty] at h
  | append_singleton front last ih =>
    have hinsert : ofColumns (front ++ [last])
        = (ofColumns front).insert last.1 last.2 := by
      simp [ofColumns]
    rw [hinsert] at h
    by_cases hlast : column = last.1
    · subst hlast
      rw [get?_insert_self] at h
      obtain rfl := Option.some.inj h
      exact List.mem_append_right _ List.mem_cons_self
    · rw [get?_insert_of_ne _ hlast] at h
      exact List.mem_append_left _ (ih h)

end CampusQuery.Row
