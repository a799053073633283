/-
CampusQuery.Json.Writer — JSON values as compact text.

No blanks are written. In strings the quote, the backslash and the control
characters below U+0020 are escaped and everything else stands as it is.
Numbers that are not finite have no JSON literal and are written as `null`.
-/
import CampusQuery.Json.Basic
import CampusQuery.Numeric.Layout

namespace CampusQuery

open Numeric

namespace Json

/-! ## Strings -/

def hexDigit (n : Nat) : Char := Nat.digitChar n

def escapeChar (c : Char) : List Char :=
  match c with
  | '"' => ['\\', '"']
  | '\\' => ['\\', '\\']
  | '\n' => ['\\', 'n']
  | '\r' => ['\\', 'r']
  | '\t' => ['\\', 't']
  | '\x08' => ['\\', 'b']
  | '\x0c' => ['\\', 'f']
  | _ =>
    if c.toNat < 0x20 then
      ['\\', 'u', '0', '0', hexDigit (c.toNat / 16), hexDigit (c.toNat % 16)]
    else [c]

def quoteChars (text : String) : List Char :=
  '"' :: text.toList.flatMap escapeChar ++ ['"']

/-! ## Numbers -/

def numberChars : JsonNumber → List Char
  | .integer n => wholeChars n
  | .real .nan => "null".toList
  | .real (.signed negative magnitude) =>
    if magnitude.isFinite then Binary64.literalChars negative magnitude
    else "null".toList

/-! ## Values -/

mutual

def chars : Json → List Char
  | null => "null".toList
  | bool true => "true".toList
  | bool false => "false".toList
  | number n => numberChars n
  | string text => quoteChars text
  | array [] => ['[', ']']
  | array (item :: rest) => '[' :: chars item ++ moreItems rest
  | object [] => ['\x7b', '\x7d']
  | object ((key, value) :: rest) =>
    '\x7b' :: quoteChars key ++ ':' :: chars value ++ moreMembers rest

/-- The items after the first one, and the end of the array. -/
def moreItems : List Json → List Char
  | [] => [']']
  | item :: rest => ',' :: chars item ++ moreItems rest

/-- The members after the first one, and the end of the object. -/
def moreMembers : List (String × Json) → List Char
  | [] => ['\x7d']
  | (key, value) :: rest =>
    ',' :: quoteChars key ++ ':' :: chars value ++ moreMembers rest

end

def text (value : Json) : String := String.ofList value.chars

end Json

end CampusQuery
