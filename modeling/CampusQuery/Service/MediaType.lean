/-
CampusQuery.Service.MediaType — which content types are JSON.

A content type is a type, a slash and a subtype, followed by nothing or by a
semicolon and parameters. It is JSON if the type is `application` and the
subtype is `json`, or has `json` before or behind its last plus sign. Letter
case does not matter. The parameters are scanned one character at a time;
`Place` says where in a parameter the scan stands.
-/

namespace CampusQuery.MediaType

/-! ## Characters -/

def isWordChar (c : Char) : Bool :=
  c.isAlphanum || "!#$%&'*+-.^_`|~".toList.contains c

/-- The characters that may stand in quotes: the visible ones of ASCII and
the space. -/
def isQuotable (c : Char) : Bool := ' ' ≤ c && c ≤ '~'

/-! ## Parameters -/

/-- Where in the parameters a scan stands. -/
inductive Place
  | beforeName
  | name
  | beforeValue
  | word
  | openQuote
  | quoted
  | afterQuote
deriving DecidableEq

namespace Place

/-- The place after one more character. A quote right behind the opening one
stands for itself. -/
def step? : Place → Char → Option Place
  | beforeName, c =>
    if c = ' ' then some beforeName
    else if isWordChar c then some name else none
  | name, c =>
    if c = '=' then some beforeValue
    else if isWordChar c then some name else none
  | beforeValue, c =>
    if c = '"' then some openQuote
    else if isWordChar c then some word else none
  | word, c =>
    if c = ';' then some beforeName
    else if isWordChar c then some word else none
  | openQuote, c => if isQuotable c then some quoted else none
  | quoted, c =>
    if c = '"' then some afterQuote
    else if isQuotable c then some quoted else none
  | afterQuote, c =>
    if c = ';' then some beforeName
    else if c = ' ' then some afterQuote else none

/-- Whether the parameters may end here; the value of the last one may be
empty, and so may be its place. -/
def isFinal : Place → Bool
  | beforeName | beforeValue | word | afterQuote => true
  | name | openQuote | quoted => false

end Place

def isParameterList (text : List Char) : Bool :=
  (text.foldlM Place.step? .beforeName).any Place.isFinal

/-! ## Types -/

def isJsonSubtype (subtype : List Char) : Bool :=
  let json := "json".toList
  match subtype.reverse.span (· != '+') with
  | (suffix, _ :: main) =>
    main ≠ [] && (suffix.reverse = json || main.reverse = json)
  | (whole, []) => whole.reverse = json

/-- Whether what follows the subtype is nothing, or parameters behind a
semicolon. -/
def isTail : List Char → Bool
  | [] => true
  | ';' :: parameters => isParameterList parameters
  | _ => false

def isJson (text : String) : Bool :=
  match text.toLower.toList.span isWordChar with
  | (type, '/' :: rest) =>
    let (subtype, tail) := rest.span isWordChar
    type = "application".toList && isJsonSubtype subtype && isTail tail
  | _ => false

end CampusQuery.MediaType
