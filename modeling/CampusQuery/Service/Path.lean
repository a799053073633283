/-
CampusQuery.Service.Path — the paths that are served.

A request target is a path, or a path behind a scheme and an authority. A
path is cut at its slashes, and the parts that name a dataset may hold
percent escapes for the bytes of their UTF-8 text. Fixed parts are compared
as they are written. `Route.ofPath?` finds the route of a path; an escape
that breaks the text is found only when the part is decoded.
-/

namespace CampusQuery

/-! ## Percent escapes -/

namespace Percent

def digitValue? (byte : UInt8) : Option UInt8 :=
  if 0x30 ≤ byte ∧ byte ≤ 0x39 then some (byte - 0x30)
  else if 0x41 ≤ byte ∧ byte ≤ 0x46 then some (byte - 0x41 + 10)
  else if 0x61 ≤ byte ∧ byte ≤ 0x66 then some (byte - 0x61 + 10)
  else none

/-- The bytes with every escape replaced by the byte it names; a percent
sign that starts no escape stands for itself. -/
def decodeBytes : List UInt8 → List UInt8
  | 0x25 :: a :: b :: rest =>
    match digitValue? a, digitValue? b with
    | some high, some low => (16 * high + low) :: decodeBytes rest
    | _, _ => 0x25 :: decodeBytes (a :: b :: rest)
  | byte :: rest => byte :: decodeBytes rest
  | [] => []

def decode? (text : String) : Option String :=
  String.fromUTF8? ⟨(decodeBytes text.toUTF8.toList).toArray⟩

end Percent

/-! ## Routes -/

/-- What a path stands for, its parts not yet decoded. -/
inductive Route
  | datasetOfKind (id kind : String)
  | dataset (id : String)
  | query
  | datasets
deriving DecidableEq

namespace Route

/-- The characters of which the scheme of an absolute target is made. -/
def isSchemeChar (c : Char) : Bool :=
  c.isAlphanum || c = '+' || c = '-' || c = '.' || c = '~'

/-- What follows the scheme and the authority of an absolute target; any
other target is taken as it is. -/
def withoutOrigin (target : List Char) : List Char :=
  match target.dropWhile isSchemeChar with
  | ':' :: '/' :: '/' :: rest =>
    rest.dropWhile fun c => c ≠ '/' ∧ c ≠ '?' ∧ c ≠ '#'
  | _ => target

/-- The path in a request target, without what stands before and behind
it. -/
def pathOf (target : String) : String :=
  String.ofList
    ((withoutOrigin target.toList).takeWhile fun c => c ≠ '?' ∧ c ≠ '#')

/-- The route of a path. What stands at its end is not empty; an id between
two slashes may be. -/
def ofPath? (path : String) : Option Route :=
  match (path.toList.splitOn '/').map String.ofList with
  | ["", "dataset", id, kind] =>
    if kind = "" then none else some (datasetOfKind id kind)
  | ["", "dataset", id] => if id = "" then none else some (dataset id)
  | ["", "query"] => some query
  | ["", "datasets"] => some datasets
  | _ => none

def methods : Route → List String
  | datasetOfKind _ _ => ["PUT"]
  | dataset _ => ["DELETE"]
  | query => ["POST"]
  | datasets => ["GET", "HEAD"]

end Route

end CampusQuery
