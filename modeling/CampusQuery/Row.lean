/-
CampusQuery.Row — rows of named columns.

A row keeps its columns in the order in which they were first set, each
name once. Setting a column again replaces its value in place.
-/
import CampusQuery.Value

namespace CampusQuery

structure Row where
  columns : List (String × Value)
deriving DecidableEq, Inhabited

namespace Row

def empty : Row := ⟨[]⟩

/-- Replaces the value of a column, or adds the column at the end. -/
def setColumn (column : String) (value : Value) :
    List (String × Value) → List (String × Value)
  | [] => [(column, value)]
  | (other, kept) :: rest =>
    if other = column then (column, value) :: rest
    else (other, kept) :: setColumn column value rest

def insert (row : Row) (column : String) (value : Value) : Row :=
  ⟨setColumn column value row.columns⟩

/-- The row with the given columns set one after the other. -/
def ofColumns (columns : List (String × Value)) : Row :=
  columns.foldl (fun row column => row.insert column.1 column.2) empty

def get? (row : Row) (column : String) : Option Value :=
  row.columns.lookup column

def contains (row : Row) (column : String) : Bool := (row.get? column).isSome

def names (row : Row) : List String := row.columns.map (·.1)

def size (row : Row) : Nat := row.columns.length

/-- The row as a JSON object, its columns in order. -/
def toJson (row : Row) : Json :=
  .object (row.columns.map fun (column, value) => (column, value.toJson))

/-- The row as a JSON object, its columns sorted by name. -/
def toSortedJson (row : Row) : Json :=
  .ofMembers (row.columns.map fun (column, value) => (column, value.toJson))

/-! ## Columns after setting one -/

/-- A column that was just set has the value that it was set to. -/
theorem lookup_setColumn_self (column : String) (value : Value)
    (columns : List (String × Value)) :
    (setColumn column value columns).lookup column = some value := by
  induction columns with
  | nil => simp [setColumn]
  | cons head rest ih =>
    obtain ⟨other, kept⟩ := head
    by_cases h : other = column
    · simp [setColumn, h]
    · have hne : (column == other) = false := by simpa using fun e => h e.symm
      simp [setColumn, h, List.lookup_cons, hne, ih]

/-- Setting a column leaves the others as they are. -/
theorem lookup_setColumn_of_ne {column other : String} (h : other ≠ column)
    (value : Value) (columns : List (String × Value)) :
    (setColumn column value columns).lookup other = columns.lookup other := by
  have hne : (other == column) = false := by simpa using h
  induction columns with
  | nil => simp [setColumn, List.lookup_cons, hne]
  | cons head rest ih =>
    obtain ⟨name, kept⟩ := head
    by_cases hn : name = column
    · simp [setColumn, hn, List.lookup_cons, hne]
    · simp [setColumn, hn, List.lookup_cons, ih]

/-- The value of a column that was just set. -/
theorem get?_insert_self (row : Row) (column : String) (value : Value) :
    (row.insert column value).get? column = some value :=
  lookup_setColumn_self column value row.columns

/-- The value of any other column. -/
theorem get?_insert_of_ne (row : Row) {column other : String}
    (h : other ≠ column) (value : Value) :
    (row.insert column value).get? other = row.get? other :=
  lookup_setColumn_of_ne h value row.columns

/-- A column that is only ever set to one value has that value. -/
theorem get?_ofColumns {columns : List (String × Value)} {column : String}
    {value : Value} (hset : (column, value) ∈ columns)
    (honly : ∀ other, (column, other) ∈ columns → other = value) :
    (ofColumns columns).get? column = some value := by
  have hfold : ∀ (columns : List (String × Value)) (row : Row),
      (∀ other, (column, other) ∈ columns → other = value) →
      (row.get? column = some value ∨ (column, value) ∈ columns) →
      (columns.foldl (fun row entry => row.insert entry.1 entry.2) row).get?
        column = some value := by
    intro columns
    induction columns with
    | nil =>
      intro row _ hset
      exact hset.resolve_right (List.not_mem_nil)
    | cons entry rest ih =>
      intro row honly hset
      obtain ⟨name, given⟩ := entry
      refine ih _ (fun other h => honly other (List.mem_cons_of_mem _ h)) ?_
      by_cases hname : name = column
      · subst hname
        rw [honly given List.mem_cons_self]
        exact .inl (get?_insert_self _ _ _)
      · rw [get?_insert_of_ne _ (Ne.symm hname)]
        refine hset.imp_right fun hmem => ?_
        rcases List.mem_cons.mp hmem with heq | hrest
        · exact absurd (congrArg Prod.fst heq).symm hname
        · exact hrest
  exact hfold columns empty honly (.inr hset)

end Row

end CampusQuery
