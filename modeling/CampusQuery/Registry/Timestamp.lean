/-
CampusQuery.Registry.Timestamp — points in time as stored text.

A stored dataset is stamped with the time it was added. Texts of one length
sort as the times they stand for, so `ofTick` gives the stamps of a clock
that only counts. `isValid` tells which texts are times at all: a date and a
time of day, followed by an offset from universal time or by nothing.
Leading zeros may be left out, and blanks may stand in front of numbers. A
year with a sign may have any number of digits, as long as the calendar
reaches that far; an offset may not lead out of the calendar.
-/
import CampusQuery.Numeric.Numeral
import CampusQuery.Text.Blank

namespace CampusQuery.Timestamp

/-! ## Writing -/

/-- The decimal digits of a number, filled up to nine with zeros. -/
def nineDigits (n : Nat) : String :=
  let digits := Nat.toDigits 10 n
  String.ofList (List.replicate (9 - digits.length) '0' ++ digits)

/-- The stamp of a tick of the clock. -/
def ofTick (tick : Nat) : String :=
  s!"2026-01-01 00:00:00.{nineDigits tick}+00:00"

/-! ## Calendar -/

structure Moment where
  year : Int
  month : Nat
  day : Nat
  hour : Nat
  minute : Nat
  second : Nat

def isLeapYear (year : Int) : Bool :=
  year % 4 == 0 && (year % 100 != 0 || year % 400 == 0)

def daysInMonth (year : Int) (month : Nat) : Nat :=
  if month = 2 then if isLeapYear year then 29 else 28
  else if month ∈ [4, 6, 9, 11] then 30
  else 31

def firstYear : Int := -262143

def lastYear : Int := 262142

namespace Moment

/-- Whether the calendar and the clock know the moment; a minute may have a
leap second. -/
def isValid (m : Moment) : Bool :=
  firstYear ≤ m.year && m.year ≤ lastYear && 1 ≤ m.month && m.month ≤ 12 &&
    1 ≤ m.day && m.day ≤ daysInMonth m.year m.month &&
    m.hour < 24 && m.minute < 60 && m.second ≤ 60

/-- The seconds since the start of the day; a leap second counts as the one
before it. -/
def secondOfDay (m : Moment) : Int :=
  m.hour * 3600 + m.minute * 60 + min m.second 59

def daySeconds : Int := 86400

/-- Whether the calendar still knows the moment after it is moved to
universal time, from which it is off by less than a day. -/
def isValidAt (m : Moment) (offset : Int) : Bool :=
  let second := m.secondOfDay - offset
  m.isValid &&
    !(second < 0 && m.year == firstYear && m.month == 1 && m.day == 1) &&
    !(daySeconds ≤ second && m.year == lastYear && m.month == 12 && m.day == 31)

end Moment

/-! ## Reading -/

/-- A reader takes something off the front of a text. -/
abbrev Reader (α : Type) := List Char → Option (α × List Char)

/-- Takes one to `width` digits after any blanks. -/
def number (width : Nat) : Reader Nat := fun text =>
  let text := text.dropWhile Text.isBlank
  let digits := (text.take width).takeWhile Char.isDigit
  if digits.isEmpty then none
  else some (Numeric.digitsValue digits, text.drop digits.length)

/-- Takes a year: up to four digits, or a sign and any number of them. -/
def yearNumber : Reader Int := fun text =>
  match text.dropWhile Text.isBlank with
  | '+' :: rest => signed 1 rest
  | '-' :: rest => signed (-1) rest
  | rest => (number 4 rest).map fun (year, rest) => ((year : Int), rest)
where
  /-- Takes one or more digits. -/
  signed (sign : Int) : Reader Int := fun text =>
    match text.span Char.isDigit with
    | ([], _) => none
    | (digits, rest) => some (sign * Numeric.digitsValue digits, rest)

def twoDigits : Reader Nat
  | a :: b :: rest =>
    if a.isDigit && b.isDigit then some (Numeric.digitsValue [a, b], rest) else none
  | _ => none

def oneOf (chars : List Char) : Reader Char
  | c :: rest => if c ∈ chars then some (c, rest) else none
  | [] => none

/-- Takes what parts the date from the time of day: a letter, or any
blanks. -/
def separator (lettered : Bool) : Reader Unit := fun text =>
  if lettered then (oneOf ['T'] text).map fun taken => ((), taken.2)
  else some ((), text.dropWhile Text.isBlank)

/-- Takes a fraction of a second, if there is one. -/
def optionalFraction : Reader Unit
  | '.' :: rest =>
    match rest.span Char.isDigit with
    | ([], _) => none
    | (_, rest) => some ((), rest)
  | text => some ((), text)

def moment (lettered : Bool) : Reader Moment := fun text => do
  let (year, text) ← yearNumber text
  let (_, text) ← oneOf ['-'] text
  let (month, text) ← number 2 text
  let (_, text) ← oneOf ['-'] text
  let (day, text) ← number 2 text
  let (_, text) ← separator lettered text
  let (hour, text) ← number 2 text
  let (_, text) ← oneOf [':'] text
  let (minute, text) ← number 2 text
  let (_, text) ← oneOf [':'] text
  let (second, text) ← number 2 text
  let (_, text) ← optionalFraction text
  return ({ year, month, day, hour, minute, second }, text)

/-- The minutes of an offset, which may be left out. -/
def offsetMinutes? (text : List Char) : Option Nat :=
  if text.isEmpty then some 0
  else match twoDigits text with
    | some (minutes, []) => if minutes < 60 then some minutes else none
    | _ => none

/-- The offset from universal time that a text names, in seconds: a letter
for none, or a sign, hours and perhaps minutes. -/
def offset? (text : List Char) : Option Int :=
  let text := text.dropWhile Text.isBlank
  if text = ['Z'] ∨ text = ['z'] then some 0
  else do
    let (sign, text) ← oneOf ['+', '-', '\u2212'] text
    let (hours, text) ← twoDigits text
    let minutes ←
      offsetMinutes? (text.dropWhile fun c => c = ':' ∨ Text.isBlank c)
    if hours < 24 then
      let size : Int := hours * 3600 + minutes * 60
      some (if sign = '+' then size else -size)
    else none

/-- Whether the character that starts after ten bytes is the letter between
a date and a time of day. -/
def isLettered (text : String) : Bool := text.toUTF8[10]? == some 0x54

def isValid (text : String) : Bool :=
  match moment (isLettered text) text.toList with
  | none => false
  | some (moment, []) => moment.isValid
  | some (moment, rest) => (offset? rest).any moment.isValidAt

end CampusQuery.Timestamp
