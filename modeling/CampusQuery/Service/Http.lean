/-
CampusQuery.Service.Http — the registry as a web service.

Four requests are served: putting a dataset, deleting one, asking a query
and listing the datasets. Their answers are JSON objects with a result or
the text of an error. What cannot be taken for one of the four, or whose
parts cannot be read, gets an answer without a JSON body. Scripts of any
origin are let in, and any OPTIONS request is told so.
-/
import CampusQuery.Registry.Basic
import CampusQuery.Service.MediaType
import CampusQuery.Service.Path

namespace CampusQuery.Service

/-- A request. The names of headers are compared without regard to case. -/
structure Request where
  method : String
  target : String
  headers : List (String × String)
  body : String

/-- An answer, with the text of its body if that is JSON. -/
structure Response where
  status : Nat
  headers : List (String × String)
  body : Option String
deriving DecidableEq

def Request.header? (request : Request) (name : String) : Option String :=
  (request.headers.find? fun header => header.1.toLower = name).map (·.2)

/-! ## Answers -/

/-- The header that lets scripts of any origin read an answer. -/
def originHeader : String × String := ("access-control-allow-origin", "*")

/-- An answer without a JSON body. -/
def bare (status : Nat) : Response := ⟨status, [originHeader], none⟩

/-- An answer with a JSON object of one member. -/
def answer (status : Nat) (key : String) (value : Json) : Response :=
  ⟨status, [originHeader], some (Json.object [(key, value)]).text⟩

/-- What scripts may send. -/
def permissions : Response where
  status := 200
  headers :=
    [originHeader, ("access-control-allow-methods", "GET,PUT,POST,DELETE"),
      ("access-control-allow-headers", "*")]
  body := none

def statusOf : Error → Nat
  | .notFound _ => 404
  | .noOrder => 500
  | _ => 400

/-- The text of an error; of a request that broke down it does not say
why. -/
def shownText : Error → String
  | .noOrder => "Join error"
  | e => e.message

def reply {α : Type} (encode : α → Json) : Outcome α → Response
  | .ok result => answer 200 "result" (encode result)
  | .error e => answer (statusOf e) "error" (.string (shownText e))

/-! ## Results as JSON -/

def encodeIds (ids : List String) : Json := .array (ids.map .string)

def encodeRows (rows : List Row) : Json := .array (rows.map Row.toSortedJson)

def encodeInfos (infos : List DatasetInfo) : Json :=
  .array (infos.map DatasetInfo.toJson)

/-! ## Bodies -/

/-- The most bytes that a body may have. -/
def maxBodyBytes : Nat := 2 * 1024 * 1024

/-- The JSON value that the body of a request starts with, or the status that
refuses it. -/
def readBody (request : Request) : Except Nat Json :=
  if !((request.header? "content-type").any MediaType.isJson) then .error 415
  else if maxBodyBytes < request.body.utf8ByteSize then .error 413
  else match Json.readFirst? Json.defaultMaxDepth request.body with
    | some value => .ok value
    | none => .error 400

/-- Goes on with the body of a request, if it can be read. -/
def withBody (registry : Registry) (request : Request)
    (serve : Json → Response × Registry) : Response × Registry :=
  match readBody request with
  | .ok value => serve value
  | .error status => (bare status, registry)

/-! ## Requests -/

def putDataset (registry : Registry) (id kind : String) (content : Json) :
    Response × Registry :=
  match Kind.ofName? kind with
  | none =>
    let refused : Outcome (List String) := refuse (.dataset (.invalidKind kind))
    (reply encodeIds refused, registry)
  | some kind =>
    let (outcome, after) := registry.addJson id kind content
    (reply encodeIds outcome, after)

def deleteDataset (registry : Registry) (id : String) :
    Response × Registry :=
  let (outcome, after) := registry.remove id
  (reply .string outcome, after)

def askQuery (registry : Registry) (raw : Json) : Response × Registry :=
  let (outcome, after) := registry.query raw
  (reply encodeRows outcome, after)

/-- Lists the datasets; the body is left out if only the head is asked
for. -/
def listDatasets (registry : Registry) (method : String) :
    Response × Registry :=
  let response := reply encodeInfos registry.list
  (if method = "HEAD" then { response with body := some "" } else response,
    registry)

def serve (registry : Registry) (request : Request) :
    Route → Response × Registry
  | .datasetOfKind id kind =>
    match Percent.decode? id, Percent.decode? kind with
    | some id, some kind =>
      withBody registry request (putDataset registry id kind)
    | _, _ => (bare 400, registry)
  | .dataset id =>
    match Percent.decode? id with
    | some id => deleteDataset registry id
    | none => (bare 400, registry)
  | .query => withBody registry request (askQuery registry)
  | .datasets => listDatasets registry request.method

def handle (registry : Registry) (request : Request) :
    Response × Registry :=
  if request.method = "OPTIONS" then (permissions, registry)
  else match Route.ofPath? (Route.pathOf request.target) with
    | none => (bare 404, registry)
    | some route =>
      if request.method ∈ route.methods then serve registry request route
      else (bare 405, registry)

end CampusQuery.Service
