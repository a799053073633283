/-
CampusQuery.Settings.Path — names that lead into a setting.

A source of settings may give a part of a setting instead of the whole: its
name is then a path, which is a name followed by other names behind dots and
by numbers in brackets. `leadsInto` tells whether a text is such a path into
a setting. What is not a path at all is a name like any other.
-/
import CampusQuery.Numeric.Numeral

namespace CampusQuery.Settings

open Numeric

def isNameChar (c : Char) : Bool := c.isAlphanum || c = '_' || c = '-'

/-- Where in a path a scan stands. -/
inductive PathPlace
  | first
  | dot
  | name
  | bracket
  | minus
  | index (negative : Bool) (value : Nat)
  | afterIndex
  | closed
deriving DecidableEq

namespace PathPlace

/-- Whether a number in brackets has at most 64 bits, one of them for the
sign. -/
def isIndex (negative : Bool) (value : Nat) : Bool :=
  value < twoTo 63 || (negative && value == twoTo 63)

/-- The place behind a name or a bracket. -/
def next? (c : Char) : Option PathPlace :=
  if c = '.' then some dot else if c = '[' then some bracket else none

def step? : PathPlace → Char → Option PathPlace
  | first, c => if isNameChar c then some first else next? c
  | dot, c => if isNameChar c then some name else none
  | name, c => if isNameChar c then some name else next? c
  | bracket, c =>
    if c = ' ' ∨ c = '\t' then some bracket
    else if c = '-' then some minus
    else if c.isDigit then some (index false (digitsValue [c]))
    else none
  | minus, c =>
    if c.isDigit then some (index true (digitsValue [c])) else none
  | index negative value, c =>
    if c.isDigit then some (index negative (10 * value + digitsValue [c]))
    else if !isIndex negative value then none
    else if c = ' ' ∨ c = '\t' then some afterIndex
    else if c = ']' then some closed
    else none
  | afterIndex, c =>
    if c = ' ' ∨ c = '\t' then some afterIndex
    else if c = ']' then some closed
    else none
  | closed, c => next? c

def isFinal : PathPlace → Bool
  | first | name | closed => true
  | _ => false

end PathPlace

/-- The place where a text ends, if it is a path. -/
def pathEnd? (text : List Char) : Option PathPlace :=
  if text.head?.any isNameChar then
    (text.foldlM PathPlace.step? .first).filter PathPlace.isFinal
  else none

/-- Whether a text is a path that leads into the setting of a name. -/
def leadsInto (text name : String) : Bool :=
  String.ofList (text.toList.takeWhile isNameChar) = name &&
    (pathEnd? text.toList).any (· != .first)

end CampusQuery.Settings
