/-
CampusQuery.Json.Reader — JSON values from text.

The reader takes one token after the other. Its state is the stack of arrays
and objects that are still open and what may come next; a finished value is
placed into the innermost open one. Arrays and objects may be nested only
to a given depth. `read?` wants the value to be the whole text; `readFirst?`
takes the value that a text starts with and looks no further.
-/
import CampusQuery.Json.Token

namespace CampusQuery

namespace Json

/-- An array or object that is still open, its parts in reverse. An object
keeps the key whose value comes next. -/
inductive Frame
  | array (reversed : List Json)
  | object (reversed : List (String × Json)) (key : String)

inductive Expected
  | value
  | firstItem
  | firstKey
  | key
  | colon
  | separator

inductive Reader
  | reading (stack : List Frame) (next : Expected)
  | done (value : Json)

namespace Reader

def start : Reader := .reading [] .value

/-- Puts a finished value where it belongs. -/
def place (value : Json) : List Frame → Reader
  | [] => .done value
  | .array reversed :: stack =>
    .reading (.array (value :: reversed) :: stack) .separator
  | .object reversed key :: stack =>
    .reading (.object ((key, value) :: reversed) key :: stack) .separator

def open? (maxDepth : Nat) (stack : List Frame) (frame : Frame)
    (next : Expected) : Option Reader :=
  if stack.length < maxDepth then some (.reading (frame :: stack) next)
  else none

def beginValue? (maxDepth : Nat) (stack : List Frame) :
    Token → Option Reader
  | .text value => some (place (.string value) stack)
  | .literal value => some (place value stack)
  | .openArray => open? maxDepth stack (.array []) .firstItem
  | .openObject => open? maxDepth stack (.object [] "") .firstKey
  | _ => none

def closeArray? : List Frame → Option Reader
  | .array reversed :: stack => some (place (.array reversed.reverse) stack)
  | _ => none

def closeObject? : List Frame → Option Reader
  | .object reversed _ :: stack =>
    some (place (.ofMembers reversed.reverse) stack)
  | _ => none

def takeKey? (key : String) : List Frame → Option Reader
  | .object reversed _ :: stack =>
    some (.reading (.object reversed key :: stack) .colon)
  | _ => none

/-- Goes on after a comma. -/
def continue? : List Frame → Option Reader
  | .array reversed :: stack =>
    some (.reading (.array reversed :: stack) .value)
  | .object reversed key :: stack =>
    some (.reading (.object reversed key :: stack) .key)
  | [] => none

def step? (maxDepth : Nat) : Reader → Token → Option Reader
  | .done _, _ => none
  | .reading stack .value, token => beginValue? maxDepth stack token
  | .reading stack .firstItem, token =>
    match token with
    | .closeArray => closeArray? stack
    | _ => beginValue? maxDepth stack token
  | .reading stack .firstKey, token =>
    match token with
    | .closeObject => closeObject? stack
    | .text key => takeKey? key stack
    | _ => none
  | .reading stack .key, token =>
    match token with
    | .text key => takeKey? key stack
    | _ => none
  | .reading stack .colon, token =>
    match token with
    | .colon => some (.reading stack .value)
    | _ => none
  | .reading stack .separator, token =>
    match token with
    | .comma => continue? stack
    | .closeArray => closeArray? stack
    | .closeObject => closeObject? stack
    | _ => none

def value? : Reader → Option Json
  | .done value => some value
  | .reading _ _ => none

end Reader

/-- How deep stored and received texts may nest. -/
def defaultMaxDepth : Nat := 127

/-! ## Texts -/

/-- A text half read: the token that is being scanned, and the value that the
tokens before it describe. -/
structure Progress where
  mode : Mode
  reader : Reader

namespace Progress

def start : Progress := ⟨.between, .start⟩

/-- Takes the numeral that ends here. -/
def settle? (maxDepth : Nat) (progress : Progress) : Option Progress := do
  let token ← progress.mode.complete?
  some ⟨.between, ← progress.reader.step? maxDepth token⟩

def advance? (maxDepth : Nat) (progress : Progress) (c : Char) :
    Option Progress := do
  match ← progress.mode.step? c with
  | (mode, none) => some ⟨mode, progress.reader⟩
  | (mode, some token) =>
    some ⟨mode, ← progress.reader.step? maxDepth token⟩

/-- Reads one character. Behind a complete value there may only be what
`follows` lets pass. -/
def step? (follows : Char → Bool) (maxDepth : Nat) (progress : Progress)
    (c : Char) : Option Progress := do
  let progress ←
    if progress.mode.endsBefore c then progress.settle? maxDepth
    else some progress
  match progress.reader with
  | .done _ => if follows c then some progress else none
  | .reading _ _ => progress.advance? maxDepth c

def value? (maxDepth : Nat) (progress : Progress) : Option Json :=
  match progress.mode with
  | .between => progress.reader.value?
  | _ => do (← progress.settle? maxDepth).reader.value?

end Progress

/-- The value that a text describes, followed only by such characters, if it
is JSON nested no deeper than `maxDepth`. -/
def readBefore? (follows : Char → Bool) (maxDepth : Nat) (text : String) :
    Option Json := do
  let progress ←
    text.toList.foldlM (Progress.step? follows maxDepth) Progress.start
  progress.value? maxDepth

/-- The value that a whole text describes; there may be blanks around it. -/
def read? : Nat → String → Option Json := readBefore? isJsonBlank

/-- The value that a text starts with, whatever follows it. -/
def readFirst? : Nat → String → Option Json := readBefore? fun _ => true

end Json

end CampusQuery
