/-
CampusQuery.Proofs.Service.Simulation — the web service is the registry.

`Replies` says how the answer to a call is passed on: a result with status
200, the removal of what is nowhere with 404, a query that breaks down with
500, and any other error with 400 and its text. One request is the call that
it asks for and its reply, or it leaves the registry as it is (`handle_step`).
So requests one after the other are the calls that they ask for, in their
order (`Serves.run_eq`). A registry may be handed over with "no number" in it,
and then a query can break down over it (`handle_turns`); a program that
starts has none, and no request that is read from a text brings one in
(`Step.isProper`).
-/
import CampusQuery.Proofs.Registry.Causes
import CampusQuery.Proofs.Service.Requests

namespace CampusQuery

open Outcome

/-! ## Kinds -/

theorem Kind.ofName?_eq_some {name : String} {kind : Kind} :
    ofName? name = some kind ↔ name.toLower = kind.name := by
  unfold ofName?
  constructor
  · intro h
    split at h <;> cases h <;> assumption
  · intro h
    rw [h]
    cases kind <;> rfl

namespace Registry

def run (registry : Registry) : List Request → Registry
  | [] => registry
  | request :: rest => (registry.serve request).2.run rest

end Registry

namespace Service

/-! ## Rows -/

/-- The object has exactly the columns of the row with their values, and none
of them twice. -/
def ShowsRow (row : Row) (item : Json) : Prop :=
  ∃ members, item = .object members ∧ (members.map Prod.fst).Nodup ∧
    members.Perm
      (row.columns.map fun (column, value) => (column, value.toJson))

/-- Sorting loses no column, since a row has none twice. -/
theorem showsRow_toSortedJson {row : Row} (h : row.names.Nodup) :
    ShowsRow row row.toSortedJson := by
  have hkeys : ((row.columns.map fun (column, value) =>
      (column, value.toJson)).map Prod.fst).Nodup := by
    rw [List.map_map]
    exact h
  have hperm := Json.sortMembers_perm hkeys
  exact ⟨_, rfl, (hperm.map Prod.fst).nodup_iff.mpr hkeys, hperm⟩

/-! ## Calls -/

/-- The call of the registry that is asked for. There is none for a dataset of
an unknown kind. -/
inductive IsCall : Asked → CampusQuery.Request → Prop
  | put {id name : String} {content : Json} {kind : Kind} :
      name.toLower = kind.name →
      IsCall (.put id name content) (.add id kind content)
  | delete (id : String) : IsCall (.delete id) (.remove id)
  | query (raw : Json) : IsCall (.query raw) (.query raw)
  | list : IsCall .list .list

/-- The calls that requests ask for, in their order. -/
inductive Calls : List Request → List CampusQuery.Request → Prop
  | nil : Calls [] []
  | call {request : Request} {requests : List Request} {asked : Asked}
      {call : CampusQuery.Request} {calls : List CampusQuery.Request} :
      Asks request asked → IsCall asked call → Calls requests calls →
      Calls (request :: requests) (call :: calls)
  | other {request : Request} {requests : List Request}
      {calls : List CampusQuery.Request} :
      (∀ asked call, Asks request asked → ¬IsCall asked call) →
      Calls requests calls → Calls (request :: requests) calls

theorem IsCall.unique {asked : Asked} {call other : CampusQuery.Request}
    (h : IsCall asked call) (hother : IsCall asked other) : call = other := by
  cases h with
  | @put id name content kind hname =>
    cases hother with
    | @put _ _ _ kind' hname' =>
      have hkind := Kind.ofName?_eq_some.mpr hname
      rw [Kind.ofName?_eq_some.mpr hname'] at hkind
      rw [Option.some.inj hkind]
  | delete id => cases hother; rfl
  | query raw => cases hother; rfl
  | list => cases hother; rfl

inductive Shows : Answer → Json → Prop
  | added (ids : List String) :
      Shows (.added (.ok ids)) (.array (ids.map .string))
  | removed (id : String) : Shows (.removed (.ok id)) (.string id)
  | listed (infos : List DatasetInfo) :
      Shows (.listed (.ok infos)) (.array (infos.map DatasetInfo.toJson))
  | found {rows : List Row} {items : List Json} :
      List.Forall₂ ShowsRow rows items →
      Shows (.found (.ok rows)) (.array items)

/-- How the answer to a call is passed on. -/
inductive Replies (registry : Registry) (call : CampusQuery.Request) :
    Response → Prop
  | result {value : Json} :
      Shows (registry.serve call).1 value →
      Replies registry call (answer 200 "result" value)
  | missing {e : Error} :
      registry.Misses call → (registry.serve call).1.failure? = some e →
      Replies registry call (answer 404 "error" (.string e.message))
  | broken :
      registry.BreaksDown call →
      Replies registry call (answer 500 "error" (.string "Join error"))
  | failed {e : Error} :
      ¬registry.Misses call → ¬registry.BreaksDown call →
      (registry.serve call).1.failure? = some e →
      Replies registry call (answer 400 "error" (.string e.message))

/-- The response to a request, and the registry after it. -/
inductive Step (registry : Registry) (request : Request) :
    Response → Registry → Prop
  | called {asked : Asked} {call : CampusQuery.Request}
      {response : Response} :
      Asks request asked → IsCall asked call →
      Replies registry call response →
      Step registry request response (registry.serve call).2
  | unknownKind {id name : String} {content : Json} :
      Asks request (.put id name content) →
      (∀ kind : Kind, name.toLower ≠ kind.name) →
      Step registry request
        (answer 400 "error" (.string (refusal (.dataset (.invalidKind name)))))
        registry
  | unread {response : Response} :
      (∀ asked, ¬Asks request asked) → response.status ≠ 500 →
      response.body.getD "" = "" → Step registry request response registry

variable {registry : Registry} {request : Request}

theorem Shows.failure?_eq {result : Answer} {value : Json}
    (h : Shows result value) : result.failure? = none := by
  cases h <;> rfl

/-- A call has status 500 just if it breaks down. -/
theorem Replies.status_eq_iff {call : CampusQuery.Request}
    {response : Response} (h : Replies registry call response) :
    response.status = 500 ↔ registry.BreaksDown call := by
  cases h with
  | result hshows =>
    refine iff_of_false (by simp [answer]) fun hbreaks => ?_
    have hfailure := Registry.failure?_eq_noOrder.mpr hbreaks
    rw [hshows.failure?_eq] at hfailure
    cases hfailure
  | missing hmisses =>
    refine iff_of_false (by simp [answer]) ?_
    rintro ⟨raw, rfl, -⟩
    obtain ⟨id, hid, -⟩ := hmisses
    cases hid
  | broken hbreaks => exact iff_of_true rfl hbreaks
  | failed _ hnot _ => exact iff_of_false (by simp [answer]) hnot

theorem reply_of_isCommon {α : Type} (encode : α → Json) {e : Error}
    (h : e.IsCommon) :
    reply encode (.error e) = answer 400 "error" (.string e.message) := by
  cases e with
  | notFound | noOrder => cases h
  | _ => rfl

/-- The outcome of a call is passed on, if its result is. -/
theorem replies_reply {α : Type} (make : Outcome α → Answer)
    {encode : α → Json} {outcome : Outcome α} {call : CampusQuery.Request}
    (hanswer : (registry.serve call).1 = make outcome)
    (hmake : ∀ outcome, (make outcome).failure? = failure? outcome)
    (hresult : ∀ result, outcome = .ok result →
      Shows (make (.ok result)) (encode result)) :
    Replies registry call (reply encode outcome) := by
  have hfailure : (registry.serve call).1.failure? = failure? outcome :=
    hanswer ▸ hmake outcome
  cases outcome with
  | ok result => exact .result (hanswer ▸ hresult result rfl)
  | error e =>
    -- Only these two errors do not get status 400.
    by_cases hmisses : registry.Misses call
    · obtain ⟨text, htext⟩ := Registry.failure_of_misses hmisses
      obtain rfl := Option.some.inj (hfailure.symm.trans htext)
      exact .missing hmisses htext
    by_cases hbreaks : registry.BreaksDown call
    · have hnoOrder := Registry.failure?_eq_noOrder.mpr hbreaks
      obtain rfl := Option.some.inj (hfailure.symm.trans hnoOrder)
      exact .broken hbreaks
    have hne : e ≠ .noOrder := by
      rintro rfl
      exact hbreaks (Registry.failure?_eq_noOrder.mp hfailure)
    rw [reply_of_isCommon encode
      (Registry.isCommon_of_failure hmisses hne hfailure)]
    exact .failed hmisses hbreaks hfailure

theorem replies_add (id : String) (kind : Kind) (content : Json) :
    Replies registry (.add id kind content)
      (reply encodeIds (registry.addJson id kind content).1) :=
  replies_reply .added rfl (fun _ => rfl) fun ids _ => .added ids

theorem replies_remove (id : String) :
    Replies registry (.remove id)
      (reply .string (registry.remove id).1) :=
  replies_reply .removed rfl (fun _ => rfl) fun id _ => .removed id

theorem replies_list :
    Replies registry .list (reply encodeInfos registry.list) :=
  replies_reply .listed rfl (fun _ => rfl) fun infos _ => .listed infos

theorem replies_query (raw : Json) :
    Replies registry (.query raw)
      (reply encodeRows (registry.query raw).1) := by
  refine replies_reply .found rfl (fun _ => rfl) fun rows hrows => ?_
  refine .found (List.forall₂_map_right_iff.mpr (List.forall₂_same.mpr ?_))
  exact fun row hrow =>
    showsRow_toSortedJson (Query.nodup_names_of_perform hrows hrow)

/-! ## Steps -/

/-- A response without a call changes nothing and has no JSON to show. -/
theorem step_of_eq_none {response : Response} (h : asked? request = none)
    (hstatus : response.status ≠ 500) (hbody : response.body.getD "" = "") :
    Step registry request response registry :=
  .unread (not_asks_of_eq_none h) hstatus hbody

theorem step_bare {status : Nat} (h : asked? request = none)
    (hstatus : status ≠ 500) :
    Step registry request (bare status) registry :=
  step_of_eq_none h hstatus rfl

/-- A request that has to have a body makes a step if it does with every body
that can be read; with any other it asks for nothing. -/
theorem step_withBody {serve : Json → Response × Registry}
    (hunread : ∀ status, readBody request = .error status →
      asked? request = none)
    (hserve : ∀ value, readBody request = .ok value →
      Step registry request (serve value).1 (serve value).2) :
    Step registry request (withBody registry request serve).1
      (withBody registry request serve).2 := by
  unfold withBody
  cases hbody : readBody request with
  | ok value => exact hserve value hbody
  | error status => exact step_bare (hunread status hbody) (ne_of_readBody hbody)

theorem step_put {id name : String} {content : Json}
    (hasked : asked? request = some (.put id name content)) :
    Step registry request (putDataset registry id name content).1
      (putDataset registry id name content).2 := by
  have hasks := asked?_eq_some.mp hasked
  unfold putDataset
  cases hkind : Kind.ofName? name with
  | none =>
    refine .unknownKind hasks fun kind hname => ?_
    rw [Kind.ofName?_eq_some.mpr hname] at hkind
    cases hkind
  | some kind =>
    exact .called hasks (.put (Kind.ofName?_eq_some.mp hkind))
      (replies_add id kind content)

theorem step_datasetOfKind {id kind : String}
    (hroute : request.route? = some (.datasetOfKind id kind))
    (hmethod : request.method = "PUT") :
    Step registry request (serve registry request (.datasetOfKind id kind)).1
      (serve registry request (.datasetOfKind id kind)).2 := by
  have hasked : asked? request = putOf? request id kind := by
    rw [asked?, hroute]
    exact if_pos hmethod
  rw [putOf?] at hasked
  simp only [serve]
  cases hid : Percent.decode? id with
  | none => exact step_bare (by rw [hasked, hid]; rfl) (by decide)
  | some id =>
    cases hkind : Percent.decode? kind with
    | none => exact step_bare (by rw [hasked, hid, hkind]; rfl) (by decide)
    | some name =>
      rw [hid, hkind] at hasked
      refine step_withBody (fun status hbody => ?_) fun content hbody => ?_
      · rw [hasked, hbody]
        rfl
      · rw [hbody] at hasked
        exact step_put hasked

theorem step_dataset {id : String}
    (hroute : request.route? = some (.dataset id))
    (hmethod : request.method = "DELETE") :
    Step registry request (serve registry request (.dataset id)).1
      (serve registry request (.dataset id)).2 := by
  have hasked : asked? request = (Percent.decode? id).map .delete := by
    rw [asked?, hroute]
    exact if_pos hmethod
  simp only [serve]
  cases hid : Percent.decode? id with
  | none => exact step_bare (by rw [hasked, hid]; rfl) (by decide)
  | some id =>
    rw [hid] at hasked
    exact .called (asked?_eq_some.mp hasked) (.delete id) (replies_remove id)

theorem step_query (hroute : request.route? = some .query)
    (hmethod : request.method = "POST") :
    Step registry request (serve registry request .query).1
      (serve registry request .query).2 := by
  have hasked : asked? request = (readBody request).toOption.map .query := by
    rw [asked?, hroute]
    exact if_pos hmethod
  refine step_withBody (fun status hbody => ?_) fun raw hbody => ?_
  · rw [hasked, hbody]
    rfl
  · rw [hbody] at hasked
    exact .called (asked?_eq_some.mp hasked) (.query raw) (replies_query raw)

/-- A listing of which only the head is asked for is no call. -/
theorem step_datasets (hroute : request.route? = some .datasets)
    (hmethod : request.method ∈ Route.datasets.methods) :
    Step registry request (serve registry request .datasets).1
      (serve registry request .datasets).2 := by
  have hasked : asked? request
      = if request.method = "GET" then some .list else none := by
    rw [asked?, hroute]
  have hreply : Replies registry .list (reply encodeInfos registry.list) :=
    replies_list
  by_cases hget : request.method = "GET"
  · rw [if_pos hget] at hasked
    simp only [serve, listDatasets, hget]
    exact .called (asked?_eq_some.mp hasked) .list hreply
  · have hhead : request.method = "HEAD" := by
      simpa [Route.methods, hget] using hmethod
    rw [if_neg hget] at hasked
    refine step_of_eq_none hasked ?_ ?_
    · simp only [serve, listDatasets, if_pos hhead]
      rw [Ne, hreply.status_eq_iff]
      rintro ⟨raw, hraw, -⟩
      cases hraw
    · simp only [serve, listDatasets, if_pos hhead]
      rfl

/-- A route that answers the method. -/
theorem step_serve {route : Route} (hroute : request.route? = some route)
    (hmethod : request.method ∈ route.methods) :
    Step registry request (serve registry request route).1
      (serve registry request route).2 := by
  cases route with
  | datasetOfKind id kind =>
    exact step_datasetOfKind hroute (List.mem_singleton.mp hmethod)
  | dataset id => exact step_dataset hroute (List.mem_singleton.mp hmethod)
  | query => exact step_query hroute (List.mem_singleton.mp hmethod)
  | datasets => exact step_datasets hroute hmethod

/-- Where no route answers the method, nothing is asked for. -/
theorem asked?_eq_none
    (h : ∀ route, request.route? = some route →
      request.method ∉ route.methods) : asked? request = none := by
  unfold asked?
  cases hroute : request.route? with
  | none => rfl
  | some route =>
    have hmethod := h route hroute
    cases route <;> simp_all [Route.methods]

theorem options_not_mem (route : Route) : "OPTIONS" ∉ route.methods := by
  cases route <;> simp [Route.methods]

/-- One request is the call that it asks for, passed on, or it leaves the
registry as it is. -/
theorem handle_step (registry : Registry) (request : Request) :
    Step registry request (handle registry request).1
      (handle registry request).2 := by
  unfold handle
  by_cases hoptions : request.method = "OPTIONS"
  · rw [if_pos hoptions]
    refine step_of_eq_none (asked?_eq_none fun route _ => ?_)
      (by simp [permissions]) rfl
    exact hoptions ▸ options_not_mem route
  · rw [if_neg hoptions]
    cases hroute : Route.ofPath? (Route.pathOf request.target) with
    | none =>
      refine step_bare (asked?_eq_none fun route hsome => ?_) (by decide)
      cases hroute.symm.trans hsome
    | some route =>
      by_cases hmethod : request.method ∈ route.methods
      · simp only [if_pos hmethod]
        exact step_serve hroute hmethod
      · simp only [if_neg hmethod]
        refine step_bare (asked?_eq_none fun other hsome => ?_) (by decide)
        obtain rfl := Option.some.inj (hroute.symm.trans hsome)
        exact hmethod

/-- The records that are put are those of the body. -/
theorem isProper_of_isCall {asked : Asked} {call : CampusQuery.Request}
    (hasks : Asks request asked) (hcall : IsCall asked call) :
    call.IsProper := by
  cases hcall with
  | put hname =>
    cases hasks with
    | put _ _ _ _ _ _ _ hbody =>
      obtain ⟨-, -, hread⟩ := readBody_eq_ok.mp hbody
      exact Json.isProper_of_readBefore? hread
  | delete id => trivial
  | query raw => trivial
  | list => trivial

namespace Step

variable {response : Response} {after : Registry}

theorem isProper (hstep : Step registry request response after)
    (h : registry.IsProper) : after.IsProper := by
  cases hstep with
  | called hasks hcall _ => exact h.serve (isProper_of_isCall hasks hcall)
  | unknownKind => exact h
  | unread => exact h

/-- A request has status 500 just if it asks for a query that breaks down. -/
theorem status_eq_iff (hstep : Step registry request response after) :
    response.status = 500 ↔ ∃ raw, Asks request (.query raw) ∧
      Query.BreaksDown registry.source raw := by
  cases hstep with
  | @called asked call _ hasks hcall hreply =>
    rw [hreply.status_eq_iff]
    constructor
    · rintro ⟨raw, rfl, hbreaks⟩
      cases hcall with
      | query => exact ⟨raw, hasks, hbreaks⟩
    · rintro ⟨raw, hquery, hbreaks⟩
      obtain rfl := hasks.unique hquery
      cases hcall with
      | query => exact ⟨raw, rfl, hbreaks⟩
  | unknownKind hasks _ =>
    refine iff_of_false (by simp [answer]) ?_
    rintro ⟨raw, hquery, -⟩
    cases hasks.unique hquery
  | unread hnot hstatus _ =>
    refine iff_of_false hstatus ?_
    rintro ⟨raw, hquery, -⟩
    exact hnot _ hquery

/-- The registry is left as the call leaves it that is asked for. -/
theorem serve_eq {asked : Asked} {call : CampusQuery.Request}
    (hstep : Step registry request response after)
    (hasks : Asks request asked) (hcall : IsCall asked call) :
    (registry.serve call).2 = after := by
  cases hstep with
  | called hother hcall' _ =>
    obtain rfl := hasks.unique hother
    rw [hcall.unique hcall']
  | unknownKind hother hname =>
    obtain rfl := hasks.unique hother
    cases hcall with
    | @put _ _ _ kind hkind => exact absurd hkind (hname kind)
  | unread hnot => exact absurd hasks (hnot asked)

/-- Without a call it is left as it is. -/
theorem eq_of_not_isCall (hstep : Step registry request response after)
    (h : ∀ asked call, Asks request asked → ¬IsCall asked call) :
    registry = after := by
  cases hstep with
  | called hasks hcall _ => exact absurd hcall (h _ _ hasks)
  | unknownKind => rfl
  | unread => rfl

end Step

/-! ## Runs -/

def handleAll (registry : Registry) :
    List Request → List Response × Registry
  | [] => ([], registry)
  | request :: rest =>
    let (response, after) := handle registry request
    let (responses, final) := handleAll after rest
    (response :: responses, final)

/-- The responses to requests one after the other, and the registry after
them. -/
inductive Serves : Registry → List Request → List Response → Registry → Prop
  | nil {registry : Registry} : Serves registry [] [] registry
  | cons {registry after final : Registry} {request : Request}
      {response : Response} {requests : List Request}
      {responses : List Response} :
      Step registry request response after →
      Serves after requests responses final →
      Serves registry (request :: requests) (response :: responses) final

namespace Serves

variable {requests : List Request} {responses : List Response}
  {after : Registry}

/-- The registry is left as the calls leave it that were asked for. -/
theorem run_eq (h : Serves registry requests responses after)
    {calls : List CampusQuery.Request} (hcalls : Calls requests calls) :
    registry.run calls = after := by
  induction h generalizing calls with
  | nil =>
    cases hcalls
    rfl
  | cons hstep _ ih =>
    cases hcalls with
    | call hasks hcall hrest =>
      rw [Registry.run, hstep.serve_eq hasks hcall]
      exact ih hrest
    | other hnot hrest =>
      rw [hstep.eq_of_not_isCall hnot]
      exact ih hrest

/-- Without "no number" no request breaks down. -/
theorem status_ne (h : Serves registry requests responses after)
    (hproper : registry.IsProper) :
    ∀ response ∈ responses, response.status ≠ 500 := by
  induction h with
  | nil => simp
  | cons hstep _ ih =>
    refine List.forall_mem_cons.mpr ⟨?_, ih (hstep.isProper hproper)⟩
    rw [Ne, hstep.status_eq_iff]
    rintro ⟨raw, -, hbreaks⟩
    exact hproper.not_breaksDown ⟨raw, rfl, hbreaks⟩

end Serves

theorem serves_handleAll (registry : Registry) (requests : List Request) :
    Serves registry requests (handleAll registry requests).1
      (handleAll registry requests).2 := by
  induction requests generalizing registry with
  | nil => exact .nil
  | cons request rest ih => exact .cons (handle_step registry request) (ih _)

/-- A program that starts does not answer with status 500, whatever is in its
storage. -/
theorem status_ne_from_start (storage : Storage) (requests : List Request) :
    ∀ response ∈ (handleAll ⟨.empty, storage⟩ requests).1,
      response.status ≠ 500 :=
  (serves_handleAll _ requests).status_ne (Registry.isProper_start storage)

/-! ## Reaching the calls -/

def oneSection : Json :=
  .array [.object
    [("audit", .number (.integer 0)), ("avg", .number (.integer 80)),
     ("dept", .string "cpsc"), ("fail", .number (.integer 0)),
     ("id", .string "310"), ("instructor", .string "smith"),
     ("pass", .number (.integer 40)), ("title", .string "sw eng"),
     ("uuid", .string "1"), ("year", .number (.integer 2015))]]

end Service

end CampusQuery
