/-
CampusQuery.Settings — the settings of the service.

There are four settings, all of them texts. A setting is taken from the
environment if it is there, else from the settings file, else it has its
default. The file is a JSON object; numbers and truth values in it are taken
as their texts. The names of environment variables start with a heading of
the service, and case does not matter in them. A name may be a path that
leads into a setting; then the setting is not a text any more.
-/
import CampusQuery.Error.Basic
import CampusQuery.Settings.Path

namespace CampusQuery

open Numeric

inductive StorageMode
  | memory
  | file (path : String)
deriving DecidableEq

structure Settings where
  bindAddress : String
  persistence : String
  databasePath : String
  logFilter : String
deriving DecidableEq

namespace Settings

/-- In memory if the settings say so, in any letter case; else in a file. -/
def storageMode (settings : Settings) : StorageMode :=
  if settings.persistence.toLower = "memory" then .memory
  else .file settings.databasePath

/-! ## Values -/

/-- The text of a scalar in a settings file. -/
def scalarText? : Json → Option String
  | .string text => some text
  | .bool value => some (toString value)
  | .number (.integer n) => some (String.ofList (wholeChars n))
  | .number (.real x) => some x.plain
  | _ => none

/-! ## Layers -/

/-- A source of settings; of two entries for a setting the later one
counts. -/
abbrev Layer := List (String × Json)

/-- The heading of environment variables, in lower case. -/
def variableHead : String := "insightdb_"

/-- The small form of a letter. The Kelvin sign is the one character outside
ASCII whose small form lies inside; no other can stand in a path. -/
def smallLetter (c : Char) : Char :=
  if c = '\u212A' then 'k' else c.toLower

def environmentLayer (environment : List (String × String)) : Layer :=
  environment.filterMap fun (name, value) =>
    let name := name.map smallLetter
    if name.startsWith variableHead then
      some ((name.drop variableHead.length).toString, .string value)
    else none

def Layer.value? (layer : Layer) (name : String) : Option Json :=
  layer.reverse.findSome? fun (key, value) =>
    if key = name then some value
    else if leadsInto key name then some (.object [])
    else none

def setting (layers : List Layer) (name default : String) : Outcome String :=
  match layers.findSome? (·.value? name) with
  | none => .ok default
  | some value =>
    match scalarText? value with
    | some text => .ok text
    | none => .error (.config s!"setting {name} is not a text")

def load (file : Layer) (environment : List (String × String)) :
    Outcome Settings := do
  let read := setting [environmentLayer environment, file]
  return {
    bindAddress := ← read "bind_address" "127.0.0.1:4321"
    persistence := ← read "persistence" "file"
    databasePath := ← read "database_path" "insightdb.sqlite"
    logFilter := ← read "log_filter" "info" }

end Settings

end CampusQuery
