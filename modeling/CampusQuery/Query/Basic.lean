/-
CampusQuery.Query.Basic — queries.

A query is bound to one dataset. It selects records by a condition, may
gather the selected rows into groups, and then sorts and projects them.
-/
import CampusQuery.Query.Grouping
import CampusQuery.Query.Options
import CampusQuery.Query.Predicate

namespace CampusQuery

/-- A query that has been validated against a dataset. -/
structure Query where
  dataset : String
  predicate : Option Query.Predicate
  options : Query.Options
  grouping : Option Query.Grouping

end CampusQuery
