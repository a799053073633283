/-
CampusQuery.Query.Binding — the dataset that a query is about.

A query names its dataset only through its fields. `boundDataset` looks for
the first of them, in the conditions, then among the group keys, then among
the columns, without judging anything else about the query.
-/
import CampusQuery.Query.FieldRef

namespace CampusQuery.Query

/-! ## Conditions -/

def firstKeyDataset (members : List (String × Json)) : Option String :=
  members.findSome? fun member => datasetPart? member.1

mutual

/-- The first dataset named in a filter with the given word. -/
def filterDataset (word : String) : Json → Option String
  | .array items =>
    if word = "AND" ∨ word = "OR" then itemsDataset items else none
  | .object members =>
    if word = "NOT" then membersDataset members
    else if (FilterWord.ofName? word).isSome then firstKeyDataset members
    else none
  | _ => none

def itemsDataset : List Json → Option String
  | [] => none
  | .object members :: rest =>
    (membersDataset members).or (itemsDataset rest)
  | _ :: rest => itemsDataset rest

def membersDataset : List (String × Json) → Option String
  | [] => none
  | (word, body) :: rest =>
    (filterDataset word body).or (membersDataset rest)

end

/-! ## Lists of fields -/

def textsDataset (value : Json) : Option String :=
  (value.items?.getD []).findSome? fun item => item.text?.bind datasetPart?

def boundDataset (raw : Json) : Outcome String :=
  match raw with
  | .object members =>
    let conditions := (members.lookup "WHERE").bind Json.members?
    let group := (members.lookup "TRANSFORMATIONS").bind (·.get? "GROUP")
    let columns := (members.lookup "OPTIONS").bind (·.get? "COLUMNS")
    let found := (conditions.bind membersDataset).or
      ((group.bind textsDataset).or (columns.bind textsDataset))
    match found with
    | some dataset => .ok dataset
    | none => refuse (.query .unbound)
  | _ => refuse (.query (.notAnObject .query))

end CampusQuery.Query
