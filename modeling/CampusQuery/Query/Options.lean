/-
CampusQuery.Query.Options — which columns are shown, and in what order the
rows come.

Rows are sorted by the values of one or more shown columns; equal rows keep
their places. The direction turns every comparison of values around, so it
does not turn equal rows around. A value that is no number has no place in
the order of numbers; rows with such values are sorted all the same, unless
their comparisons contradict one another.
-/
import CampusQuery.Error.Basic
import CampusQuery.Row
import CampusQuery.Sorting.Basic

namespace CampusQuery.Query

/-! ## Sort orders -/

/-- How rows are sorted: upwards by one column, or in one direction by
several, the first one first. -/
inductive SortOrder
  | single (key : String)
  | multiple (direction : Direction) (keys : List String)
deriving DecidableEq

namespace SortOrder

def keys : SortOrder → List String
  | single key => [key]
  | multiple _ keys => keys

def direction : SortOrder → Direction
  | single _ => .up
  | multiple direction _ => direction

end SortOrder

def Direction.order (direction : Direction) (a b : Value) : Ordering :=
  match direction with
  | .up => a.order b
  | .down => (a.order b).swap

def compareAt (direction : Direction) (a b : Row) (key : String) : Ordering :=
  match a.get? key, b.get? key with
  | some x, some y => direction.order x y
  | _, _ => .eq

/-- The order of two rows by several columns, the first difference
deciding. -/
def compareRows (direction : Direction) (a b : Row) :
    List String → Ordering
  | [] => .eq
  | key :: rest =>
    (compareAt direction a b key).then (compareRows direction a b rest)

/-- Whether all values in some columns of a row have a place in the order. -/
def hasOrderedKeys (keys : List String) (row : Row) : Bool :=
  keys.all fun key => (row.get? key).all Value.isOrdered

def sortRows (direction : Direction) (keys : List String) (rows : List Row) :
    Outcome (List Row) :=
  let less := fun a b => compareRows direction a b keys == .lt
  if rows.all (hasOrderedKeys keys) then .ok (Sorting.stableSort less rows)
  else match Sorting.sortAnyway? less rows with
    | some sorted => .ok sorted
    | none => .error .noOrder

/-! ## Options -/

structure Options where
  columns : List String
  order : Option SortOrder
deriving DecidableEq

namespace Options

/-- Checks that a sort order has keys and that all of them are shown. -/
def checkOrder (columns : List String) (order : SortOrder) : Outcome Unit :=
  if order.keys.isEmpty then refuse (.clause .noOrderKeys)
  else match order.keys.find? (· ∉ columns) with
    | some key => refuse (.clause (.orderKeyNotShown key))
    | none => .ok ()

/-- The options with the given columns, of which there must be one, and
sort order. -/
def ofParts (columns : List String) (order : Option SortOrder) :
    Outcome Options := do
  if columns.isEmpty then refuse (.clause .noColumns)
  else
    order.forM (checkOrder columns)
    return ⟨columns, order⟩

def checkSortable (keys : List String) (row : Row) : Outcome Unit :=
  match keys.find? fun key => !row.contains key with
  | some key => refuse (.run (.noSortColumn key))
  | none => .ok ()

/-- The rows in their sort order; as they are if there is none. -/
def orderRows (options : Options) (rows : List Row) : Outcome (List Row) :=
  match options.order with
  | none => return rows
  | some order => do
    rows.forM (checkSortable order.keys)
    sortRows order.direction order.keys rows

def shownColumn (row : Row) (column : String) : Outcome (String × Value) :=
  match row.get? column with
  | some value => .ok (column, value)
  | none => refuse (.run (.noResultColumn column))

def projectRow (options : Options) (row : Row) : Outcome Row := do
  return .ofColumns (← options.columns.mapM (shownColumn row))

def project (options : Options) (rows : List Row) : Outcome (List Row) :=
  rows.mapM options.projectRow

end Options

end CampusQuery.Query
