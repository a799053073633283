/-
CampusQuery.Json.Basic — JSON values.

A number is kept as the integer it was written as, where it was written as
one and fits 64 bits, and as a floating-point number otherwise. The members
of an object are a list of pairs; `Json.ofMembers` builds the object that a
text describes, its keys in ascending order and each of them once.
-/
import CampusQuery.Numeric.Binary64

namespace CampusQuery

open Numeric

inductive JsonNumber
  | integer (value : Int)
  | real (value : Binary64)
deriving DecidableEq

inductive Json
  | null
  | bool (value : Bool)
  | number (value : JsonNumber)
  | string (text : String)
  | array (items : List Json)
  | object (members : List (String × Json))
deriving Inhabited

/-- The floating-point number nearest to a JSON number. -/
def JsonNumber.toBinary64 : JsonNumber → Binary64
  | integer n => .ofInt n
  | real x => x

namespace Json

/-! ## Building objects -/

/-- Puts a member in its place among members with ascending keys; a member
with the same key gives way. -/
def insertMember (key : String) (value : Json) :
    List (String × Json) → List (String × Json)
  | [] => [(key, value)]
  | (other, kept) :: rest =>
    if key < other then (key, value) :: (other, kept) :: rest
    else if key = other then (key, value) :: rest
    else (other, kept) :: insertMember key value rest

/-- Members in ascending order of their keys, the last one for each key. -/
def sortMembers (members : List (String × Json)) : List (String × Json) :=
  members.foldl (fun sorted member => insertMember member.1 member.2 sorted) []

/-- The object with the given members, sorted by key. -/
def ofMembers (members : List (String × Json)) : Json :=
  .object (sortMembers members)

/-! ## Looking inside -/

def members? : Json → Option (List (String × Json))
  | object members => some members
  | _ => none

def items? : Json → Option (List Json)
  | array items => some items
  | _ => none

def text? : Json → Option String
  | string text => some text
  | _ => none

def float? : Json → Option Binary64
  | number n => some n.toBinary64
  | _ => none

def get? (value : Json) (key : String) : Option Json := do
  (← value.members?).lookup key

end Json

end CampusQuery
