/-
CampusQuery.Json.Token — the tokens of JSON text.

The scanner reads one character at a time; its `Mode` says what it is in the
middle of, and `Mode.step?` what one more character makes of that. All
tokens but numerals end with a character of their own. A numeral ends where
the text cannot go on with it, and `Mode.complete?` gives it then. A string
may name a character beyond U+FFFF by two escapes, and neither half may
stand alone.
-/
import CampusQuery.Json.Number

namespace CampusQuery

open Numeric

namespace Json

inductive Token
  | openArray
  | closeArray
  | openObject
  | closeObject
  | comma
  | colon
  | text (value : String)
  | literal (value : Json)
deriving Inhabited

/-! ## Literals -/

def readWord? (lexeme : List Char) : Option Json :=
  match String.ofList lexeme with
  | "null" => some .null
  | "true" => some (.bool true)
  | "false" => some (.bool false)
  | _ => none

/-! ## Numerals -/

/-- Where in a numeral the scanner stands. No numeral has a zero in front of
other digits, so nothing goes on from `padded`. -/
inductive NumeralPlace
  | sign
  | zero
  | padded
  | whole
  | point
  | fraction
  | mark
  | markSign
  | exponent
deriving DecidableEq

namespace NumeralPlace

def begin? (c : Char) : Option NumeralPlace :=
  if c = '-' then some sign
  else if c = '0' then some zero
  else if c.isDigit then some whole
  else none

/-- The place behind the digits before the point. -/
def leaveWhole? (c : Char) : Option NumeralPlace :=
  if c = '.' then some point
  else if c = 'e' ∨ c = 'E' then some mark
  else none

def step? : NumeralPlace → Char → Option NumeralPlace
  | sign, c => if c = '-' then none else begin? c
  | zero, c => if c.isDigit then some padded else leaveWhole? c
  | padded, _ => none
  | whole, c => if c.isDigit then some whole else leaveWhole? c
  | point, c => if c.isDigit then some fraction else none
  | fraction, c =>
    if c.isDigit then some fraction
    else if c = 'e' ∨ c = 'E' then some mark
    else none
  | mark, c =>
    if c = '+' ∨ c = '-' then some markSign
    else if c.isDigit then some exponent
    else none
  | markSign, c | exponent, c => if c.isDigit then some exponent else none

def isFinal : NumeralPlace → Bool
  | zero | whole | fraction | exponent => true
  | sign | padded | point | mark | markSign => false

end NumeralPlace

/-! ## Characters -/

/-- The blanks that may stand between tokens. -/
def isJsonBlank (c : Char) : Bool :=
  c = ' ' || c = '\t' || c = '\n' || c = '\r'

def hexValue? (c : Char) : Option Nat :=
  if c.isDigit then some (c.toNat - '0'.toNat)
  else if 'a' ≤ c ∧ c ≤ 'f' then some (c.toNat - 'a'.toNat + 10)
  else if 'A' ≤ c ∧ c ≤ 'F' then some (c.toNat - 'A'.toNat + 10)
  else none

def unescape? (c : Char) : Option Char :=
  match c with
  | '"' => some '"'
  | '\\' => some '\\'
  | '/' => some '/'
  | 'b' => some '\x08'
  | 'f' => some '\x0c'
  | 'n' => some '\n'
  | 'r' => some '\r'
  | 't' => some '\t'
  | _ => none

/-- The mark that a single character is, between tokens. -/
def mark? (c : Char) : Option Token :=
  match c with
  | '[' => some .openArray
  | ']' => some .closeArray
  | '\x7b' => some .openObject
  | '\x7d' => some .closeObject
  | ',' => some .comma
  | ':' => some .colon
  | _ => none

/-! ## Scanning -/

/-- What the scanner is in the middle of. Characters read so far are held
in reverse; `high` is the first half of a character named by two escapes. -/
inductive Mode
  | between
  | word (reversed : List Char)
  | numeral (place : NumeralPlace) (reversed : List Char)
  | text (reversed : List Char) (high : Option Nat)
  | escape (reversed : List Char) (high : Option Nat)
  | code (reversed : List Char) (high : Option Nat) (digits value : Nat)

namespace Mode

/-- A mode, and the token whose last character has led to it, if any. -/
abbrev Step := Mode × Option Token

def goOn (mode : Mode) : Step := (mode, none)

/-- Goes on between tokens, one of which is complete. -/
def found (token : Token) : Step := (between, some token)

def begin? (c : Char) : Option Step :=
  if isJsonBlank c then some between.goOn
  else if c = '"' then some (text [] none).goOn
  else if c.isLower then some (word [c]).goOn
  else match NumeralPlace.begin? c with
    | some place => some (numeral place [c]).goOn
    | none => (mark? c).map found

/-- The mode after the four digits of an escape with the given code. -/
def closeCode? (reversed : List Char) (high : Option Nat) (code : Nat) :
    Option Mode :=
  match high with
  | some first =>
    if 0xDC00 ≤ code ∧ code ≤ 0xDFFF then
      let point := 0x10000 + (first - 0xD800) * 0x400 + (code - 0xDC00)
      some (text (Char.ofNat point :: reversed) none)
    else none
  | none =>
    if 0xD800 ≤ code ∧ code ≤ 0xDBFF then some (text reversed (some code))
    else if 0xDC00 ≤ code ∧ code ≤ 0xDFFF then none
    else some (text (Char.ofNat code :: reversed) none)

/-- Reads one character that does not end a numeral. -/
def step? : Mode → Char → Option Step
  | between, c => begin? c
  | word reversed, c =>
    if c.isLower then
      match readWord? (c :: reversed).reverse with
      | some value => some (found (.literal value))
      | none => some (word (c :: reversed)).goOn
    else none
  | numeral place reversed, c => do
    some (numeral (← place.step? c) (c :: reversed)).goOn
  | text reversed high, c =>
    if c = '\\' then some (escape reversed high).goOn
    else if high.isSome || c.toNat < 0x20 then none
    else if c = '"' then
      some (found (.text (String.ofList reversed.reverse)))
    else some (text (c :: reversed) none).goOn
  | escape reversed high, c =>
    if c = 'u' then some (code reversed high 0 0).goOn
    else if high.isSome then none
    else do some (text ((← unescape? c) :: reversed) none).goOn
  | code reversed high digits value, c => do
    let value := 16 * value + (← hexValue? c)
    if digits < 3 then some (code reversed high (digits + 1) value).goOn
    else some (← closeCode? reversed high value).goOn

/-- Whether a numeral may end and cannot go on with a character. -/
def endsBefore (mode : Mode) (c : Char) : Bool :=
  match mode with
  | numeral place _ => place.isFinal && (place.step? c).isNone
  | _ => false

/-- The numeral that ends here, as a token. -/
def complete? : Mode → Option Token
  | numeral place reversed =>
    if place.isFinal then
      (readNumber? reversed.reverse).map fun value => .literal (.number value)
    else none
  | _ => none

end Mode

end Json

end CampusQuery
