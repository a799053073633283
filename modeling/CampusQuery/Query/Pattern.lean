/-
CampusQuery.Query.Pattern — wildcard patterns for texts.

A pattern may start and may end with an asterisk, which stands for any
text; no asterisk may stand in between. What is left without them is the
needle, and the asterisks decide where it has to be found.
-/
import CampusQuery.Error.Basic

namespace CampusQuery.Query

/-- Where the needle has to be found in a text. -/
inductive MatchMode
  | whole
  | atEnd
  | atStart
  | anywhere
deriving DecidableEq, Repr

/-- A pattern taken apart. -/
structure Pattern where
  mode : MatchMode
  needle : List Char
deriving DecidableEq

def occursIn (needle : List Char) : List Char → Bool
  | [] => needle.isEmpty
  | c :: rest => needle.isPrefixOf (c :: rest) || occursIn needle rest

namespace Pattern

def modeOf (leading trailing : Bool) : MatchMode :=
  match leading, trailing with
  | false, false => .whole
  | true, false => .atEnd
  | false, true => .atStart
  | true, true => .anywhere

def split (raw : String) : Pattern :=
  let leading := raw.toList.head? = some '*'
  let rest := if leading then raw.toList.drop 1 else raw.toList
  let trailing := rest.getLast? = some '*'
  ⟨modeOf leading trailing, if trailing then rest.dropLast else rest⟩

def parse (raw : String) : Outcome Pattern :=
  let pattern := split raw
  if pattern.needle.contains '*' then refuse (.clause (.strayWildcard raw))
  else .ok pattern

def accepts (pattern : Pattern) (text : String) : Bool :=
  let chars := text.toList
  match pattern.mode with
  | .whole => chars == pattern.needle
  | .atEnd => pattern.needle.isSuffixOf chars
  | .atStart => pattern.needle.isPrefixOf chars
  | .anywhere => occursIn pattern.needle chars

end Pattern

end CampusQuery.Query
