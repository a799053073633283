/-
CampusQuery.Proofs.Service.Requests — what a request asks for.

A request asks for one of four things by its method and by the path in its
target: `Asks` writes down the shapes of both, without a router. The router
cuts the path out of the target and then cuts it at its slashes;
`isFor_pathOf`, `IsFor.pathOf_eq` and `parts_eq_iff` say that these cuts can be
put together again, so the route it finds is the shape that the path has
(`route?_eq_some`), and what is asked for can be computed (`asked?_eq_some`).
-/
import Mathlib.Data.List.TakeWhile
import CampusQuery.Proofs.Outcome
import CampusQuery.Service.Http

namespace CampusQuery

open Outcome

namespace Service

/-! ## Shapes of requests -/

/-- What may follow the path in a target: nothing, a query or a fragment. -/
def EndsPath (behind : String) : Prop :=
  ∀ c ∈ behind.toList.head?, c = '?' ∨ c = '#'

/-- The target of a request is for a path: the path itself or, behind a scheme
and an authority, an absolute one. -/
inductive IsFor (path : String) : String → Prop
  | origin {behind : String} : EndsPath behind → IsFor path (path ++ behind)
  | absolute {scheme authority behind : String} :
      (∀ c ∈ scheme.toList, c.isAlphanum ∨ c ∈ ['+', '-', '.', '~']) →
      (∀ c ∈ authority.toList, c ∉ ['/', '?', '#']) → EndsPath behind →
      IsFor path (scheme ++ "://" ++ authority ++ path ++ behind)

/-- Nothing ends a part of a path before its end. -/
def IsPart (part : String) : Prop :=
  ∀ c ∈ part.toList, c ∉ ['/', '?', '#']

instance (behind : String) : Decidable (EndsPath behind) :=
  Option.decidableForallMem behind.toList.head?

instance (part : String) : Decidable (IsPart part) :=
  List.decidableBAll _ part.toList

inductive Asked
  | put (id kind : String) (content : Json)
  | delete (id : String)
  | query (raw : Json)
  | list

/-- What a well-formed request asks for, by its method and its path. The parts
of the path that are texts have to be decoded and a body has to be read. -/
inductive Asks (request : Request) : Asked → Prop
  | put {idPart kindPart id kind : String} {content : Json} :
      request.method = "PUT" →
      IsFor ("/dataset/" ++ idPart ++ "/" ++ kindPart) request.target →
      IsPart idPart → IsPart kindPart → kindPart ≠ "" →
      Percent.decode? idPart = some id →
      Percent.decode? kindPart = some kind →
      readBody request = .ok content → Asks request (.put id kind content)
  | delete {idPart id : String} :
      request.method = "DELETE" →
      IsFor ("/dataset/" ++ idPart) request.target →
      IsPart idPart → idPart ≠ "" → Percent.decode? idPart = some id →
      Asks request (.delete id)
  | query {raw : Json} :
      request.method = "POST" → IsFor "/query" request.target →
      readBody request = .ok raw → Asks request (.query raw)
  | list :
      request.method = "GET" → IsFor "/datasets" request.target →
      Asks request .list

/-! ## Finding the path -/

/-- What is behind the scheme and the authority is what starts with a slash. -/
theorem withoutOrigin_absolute {scheme authority rest : List Char}
    (hscheme : ∀ c ∈ scheme, c.isAlphanum ∨ c ∈ ['+', '-', '.', '~'])
    (hauthority : ∀ c ∈ authority, c ∉ ['/', '?', '#']) :
    Route.withoutOrigin
        (scheme ++ ("://".toList ++ (authority ++ '/' :: rest)))
      = '/' :: rest := by
  have hdrop : (scheme ++ ("://".toList ++ (authority ++ '/' :: rest))).dropWhile
      Route.isSchemeChar = ':' :: '/' :: '/' :: (authority ++ '/' :: rest) := by
    rw [List.dropWhile_append_of_pos]
    · rfl
    · intro c hc
      simpa [Route.isSchemeChar, or_assoc] using hscheme c hc
  simp only [Route.withoutOrigin, hdrop]
  rw [List.dropWhile_append_of_pos]
  · rfl
  · intro c hc
    simpa using hauthority c hc

/-- The path ends where a query or a fragment begins. -/
theorem takeWhile_append_of_endsPath {path behind : String}
    (hclean : ∀ c ∈ path.toList, c ≠ '?' ∧ c ≠ '#')
    (hbehind : EndsPath behind) :
    (path.toList ++ behind.toList).takeWhile (fun c => c ≠ '?' ∧ c ≠ '#')
      = path.toList := by
  rw [List.takeWhile_append_of_pos (by simpa using hclean)]
  cases hlist : behind.toList with
  | nil => simp
  | cons c rest =>
    rcases hbehind c (by simp [hlist]) with rfl | rfl <;> simp

/-- What is left behind the path starts with what ends it. -/
theorem exists_behind (chars : List Char) :
    ∃ behind, chars = chars.takeWhile (fun c => c ≠ '?' ∧ c ≠ '#')
      ++ behind.toList ∧ EndsPath behind := by
  refine ⟨String.ofList (chars.dropWhile fun c => c ≠ '?' ∧ c ≠ '#'), ?_, ?_⟩
  · simp
  · intro c hc
    rw [String.toList_ofList] at hc
    have hends := List.head?_dropWhile_not (fun c => c ≠ '?' ∧ c ≠ '#') chars
    rw [hc] at hends
    simpa [or_iff_not_imp_left] using hends

theorem clean_pathOf (target : String) :
    ∀ c ∈ (Route.pathOf target).toList, c ≠ '?' ∧ c ≠ '#' := by
  intro c hc
  rw [Route.pathOf, String.toList_ofList] at hc
  simpa using List.mem_takeWhile_imp hc

/-- The path that a target is for is cut out of it. -/
theorem IsFor.pathOf_eq {path target : String} (h : IsFor path target)
    (hstart : path.toList.head? = some '/')
    (hclean : ∀ c ∈ path.toList, c ≠ '?' ∧ c ≠ '#') :
    Route.pathOf target = path := by
  obtain ⟨rest, hrest⟩ := List.head?_eq_some_iff.mp hstart
  have hpath : ∀ behind, EndsPath behind →
      String.ofList (('/' :: (rest ++ behind.toList)).takeWhile
        fun c => c ≠ '?' ∧ c ≠ '#') = path := by
    intro behind hbehind
    rw [← List.cons_append, ← hrest,
      takeWhile_append_of_endsPath hclean hbehind, String.ofList_toList]
  cases h with
  | @origin behind hbehind =>
    rw [Route.pathOf, String.toList_append, hrest]
    exact hpath behind hbehind
  | @absolute scheme authority behind hscheme hauthority hbehind =>
    simp only [Route.pathOf, String.toList_append, hrest, List.append_assoc,
      List.cons_append, withoutOrigin_absolute hscheme hauthority]
    exact hpath behind hbehind

/-- What is cut out of a target is a path that it is for. -/
theorem isFor_pathOf (target : String) :
    IsFor (Route.pathOf target) target := by
  obtain ⟨behind, hcut, hbehind⟩ :=
    exists_behind (Route.withoutOrigin target.toList)
  have hpath : Route.withoutOrigin target.toList
      = (Route.pathOf target).toList ++ behind.toList := by
    rw [Route.pathOf, String.toList_ofList]
    exact hcut
  -- The path is kept as it is; what is put together again stands around it.
  generalize Route.pathOf target = path at hpath
  unfold Route.withoutOrigin at hpath
  split at hpath
  · rename_i after hdropped
    have htarget : target =
        String.ofList (target.toList.takeWhile Route.isSchemeChar) ++ "://"
          ++ String.ofList (after.takeWhile
            fun c => c ≠ '/' ∧ c ≠ '?' ∧ c ≠ '#') ++ path ++ behind := by
      rw [← String.toList_inj]
      simp only [String.toList_append, String.toList_ofList,
        List.append_assoc, ← hpath, List.takeWhile_append_dropWhile]
      conv_lhs => rw [← List.takeWhile_append_dropWhile
        (p := Route.isSchemeChar) (l := target.toList), hdropped]
      rfl
    rw [htarget]
    refine .absolute ?_ ?_ hbehind
    · intro c hc
      rw [String.toList_ofList] at hc
      simpa [Route.isSchemeChar, or_assoc] using List.mem_takeWhile_imp hc
    · intro c hc
      rw [String.toList_ofList] at hc
      simpa using List.mem_takeWhile_imp hc
  · have htarget : target = path ++ behind := by
      rw [← String.toList_inj, String.toList_append, hpath]
    rw [htarget]
    exact .origin hbehind

/-! ## Cutting the path -/

theorem not_mem_of_mem_splitOn {c : Char} :
    ∀ {chars part : List Char}, part ∈ chars.splitOn c → c ∉ part
  | [], part, h => by
    rw [List.splitOn_nil, List.mem_singleton] at h
    simp [h]
  | d :: rest, part, h => by
    rw [List.splitOn_cons_eq_if_modifyHead] at h
    split at h
    · rcases List.mem_cons.mp h with rfl | hrest
      · exact List.not_mem_nil
      · exact not_mem_of_mem_splitOn hrest
    · rename_i hne
      -- The character goes to the first piece of the rest.
      obtain ⟨first, others, hsplit⟩ :=
        List.exists_cons_of_ne_nil (List.splitOn_ne_nil c rest)
      rw [hsplit, List.modifyHead_cons] at h
      rcases List.mem_cons.mp h with rfl | hother
      · have hfirst : c ∉ first :=
          not_mem_of_mem_splitOn (hsplit ▸ List.mem_cons_self)
        simpa [hfirst] using fun heq => hne (by simp [heq])
      · exact not_mem_of_mem_splitOn (hsplit ▸ List.mem_cons_of_mem _ hother)

/-- The parts of a path are those of which it consists, with slashes between
them. -/
theorem parts_eq_iff {path : String} {parts : List String}
    (hne : parts ≠ []) :
    (path.toList.splitOn '/').map String.ofList = parts ↔
      path.toList = ['/'].intercalate (parts.map String.toList) ∧
        ∀ part ∈ parts, '/' ∉ part.toList := by
  constructor
  · rintro rfl
    constructor
    · simp [Function.comp_def, List.intercalate_splitOn]
    · intro part hpart
      obtain ⟨chars, hchars, rfl⟩ := List.mem_map.mp hpart
      rw [String.toList_ofList]
      exact not_mem_of_mem_splitOn hchars
  · rintro ⟨hpath, hparts⟩
    rw [hpath, List.splitOn_intercalate]
    · simp [Function.comp_def]
    · simpa using hparts
    · simpa using hne

end Service

/-! ## Routes -/

namespace Route

open Service

def path : Route → String
  | datasetOfKind id kind => "/dataset/" ++ id ++ "/" ++ kind
  | dataset id => "/dataset/" ++ id
  | query => "/query"
  | datasets => "/datasets"

/-- No part holds what would end it, and the last one is not empty. -/
def IsClean : Route → Prop
  | datasetOfKind id kind => IsPart id ∧ IsPart kind ∧ kind ≠ ""
  | dataset id => IsPart id ∧ id ≠ ""
  | query => True
  | datasets => True

theorem ofPath?_path {route : Route} (h : route.IsClean) :
    ofPath? route.path = some route := by
  have hslash : ∀ {part : String}, IsPart part → '/' ∉ part.toList :=
    fun hpart hmem => hpart _ hmem (by simp)
  cases route with
  | datasetOfKind id kind =>
    obtain ⟨hid, hkind, hne⟩ := h
    have hcut : ((path (datasetOfKind id kind)).toList.splitOn '/').map
        String.ofList = ["", "dataset", id, kind] := by
      refine (parts_eq_iff (by simp)).mpr ⟨?_, ?_⟩
      · simp [path, List.intercalate]
      · simp [hslash hid, hslash hkind]
    simp [ofPath?, hcut, hne]
  | dataset id =>
    obtain ⟨hid, hne⟩ := h
    have hcut : ((path (dataset id)).toList.splitOn '/').map String.ofList
        = ["", "dataset", id] := by
      refine (parts_eq_iff (by simp)).mpr ⟨?_, ?_⟩
      · simp [path, List.intercalate]
      · simp [hslash hid]
    simp [ofPath?, hcut, hne]
  | query => decide
  | datasets => decide

theorem path_of_ofPath? {path : String} {route : Route}
    (hclean : ∀ c ∈ path.toList, c ≠ '?' ∧ c ≠ '#')
    (h : ofPath? path = some route) : route.path = path ∧ route.IsClean := by
  have hpart : ∀ {part : String}, '/' ∉ part.toList →
      (∀ c ∈ part.toList, c ∈ path.toList) → IsPart part := by
    intro part hslash hmem c hc
    obtain ⟨hquery, hfragment⟩ := hclean c (hmem c hc)
    have hne : c ≠ '/' := by
      rintro rfl
      exact hslash hc
    simp [hne, hquery, hfragment]
  unfold ofPath? at h
  split at h
  · rename_i id kind hcut
    obtain ⟨hjoined, hslash⟩ := (parts_eq_iff (by simp)).mp hcut
    have hpath : path = "/dataset/" ++ id ++ "/" ++ kind := by
      simpa [← String.toList_inj, List.intercalate] using hjoined
    split at h
    · cases h
    · rename_i hne
      obtain rfl := Option.some.inj h
      exact ⟨hpath.symm,
        hpart (hslash id (by simp)) (by simp +contextual [hpath]),
        hpart (hslash kind (by simp)) (by simp +contextual [hpath]), hne⟩
  · rename_i id hcut
    obtain ⟨hjoined, hslash⟩ := (parts_eq_iff (by simp)).mp hcut
    have hpath : path = "/dataset/" ++ id := by
      simpa [← String.toList_inj, List.intercalate] using hjoined
    split at h
    · cases h
    · rename_i hne
      obtain rfl := Option.some.inj h
      exact ⟨hpath.symm,
        hpart (hslash id (by simp)) (by simp +contextual [hpath]), hne⟩
  · rename_i hcut
    obtain ⟨hjoined, -⟩ := (parts_eq_iff (by simp)).mp hcut
    have hpath : path = "/query" := by
      simpa [← String.toList_inj, List.intercalate] using hjoined
    obtain rfl := Option.some.inj h
    exact ⟨hpath.symm, trivial⟩
  · rename_i hcut
    obtain ⟨hjoined, -⟩ := (parts_eq_iff (by simp)).mp hcut
    have hpath : path = "/datasets" := by
      simpa [← String.toList_inj, List.intercalate] using hjoined
    obtain rfl := Option.some.inj h
    exact ⟨hpath.symm, trivial⟩
  · cases h

theorem path_starts (route : Route) : route.path.toList.head? = some '/' := by
  cases route <;> simp [path]

theorem clean_path {route : Route} (h : route.IsClean) :
    ∀ c ∈ route.path.toList, c ≠ '?' ∧ c ≠ '#' := by
  have hpart : ∀ {part : String}, IsPart part → ∀ c ∈ part.toList,
      c ≠ '?' ∧ c ≠ '#' := by
    intro part hpart c hc
    have hends := hpart c hc
    simp only [List.mem_cons, not_or] at hends
    exact ⟨hends.2.1, hends.2.2.1⟩
  cases route with
  | datasetOfKind id kind =>
    obtain ⟨hid, hkind, -⟩ := h
    simp only [path, String.toList_append, List.forall_mem_append]
    exact ⟨⟨⟨by simp, hpart hid⟩, by simp⟩, hpart hkind⟩
  | dataset id =>
    simp only [path, String.toList_append, List.forall_mem_append]
    exact ⟨by simp, hpart h.1⟩
  | query => simp [path]
  | datasets => simp [path]

end Route

namespace Service

variable {request : Request}

def Request.route? (request : Request) : Option Route :=
  Route.ofPath? (Route.pathOf request.target)

theorem route?_eq_some {route : Route} :
    request.route? = some route ↔
      IsFor route.path request.target ∧ route.IsClean := by
  constructor
  · intro h
    obtain ⟨hpath, hclean⟩ :=
      Route.path_of_ofPath? (clean_pathOf request.target) h
    exact ⟨hpath ▸ isFor_pathOf request.target, hclean⟩
  · rintro ⟨hfor, hclean⟩
    rw [Request.route?,
      hfor.pathOf_eq route.path_starts (Route.clean_path hclean),
      Route.ofPath?_path hclean]

/-! ## Bodies -/

theorem readBody_eq_ok {value : Json} :
    readBody request = .ok value ↔
      (request.header? "content-type").any MediaType.isJson ∧
        request.body.utf8ByteSize ≤ maxBodyBytes ∧
        Json.readFirst? Json.defaultMaxDepth request.body = some value := by
  unfold readBody
  by_cases htype : (request.header? "content-type").any MediaType.isJson
  · by_cases hsize : maxBodyBytes < request.body.utf8ByteSize
    · simp [htype, hsize, Nat.not_le.mpr hsize]
    · cases hread : Json.readFirst? Json.defaultMaxDepth request.body <;>
        simp [htype, hsize, Nat.not_lt.mp hsize]
  · simp [htype]

/-- A body that cannot be read is not taken for a failure of the service. -/
theorem ne_of_readBody {status : Nat} (h : readBody request = .error status) :
    status ≠ 500 := by
  unfold readBody at h
  split at h
  · cases h
    decide
  · split at h
    · cases h
      decide
    · split at h
      · cases h
      · cases h
        decide

/-! ## What is asked for -/

/-- To put a dataset, with the parts of the path decoded and the body read. -/
def putOf? (request : Request) (id kind : String) : Option Asked := do
  let id ← Percent.decode? id
  let kind ← Percent.decode? kind
  let content ← (readBody request).toOption
  some (.put id kind content)

def asked? (request : Request) : Option Asked :=
  match request.route? with
  | some (.datasetOfKind id kind) =>
    if request.method = "PUT" then putOf? request id kind else none
  | some (.dataset id) =>
    if request.method = "DELETE" then (Percent.decode? id).map .delete
    else none
  | some .query =>
    if request.method = "POST" then (readBody request).toOption.map .query
    else none
  | some .datasets => if request.method = "GET" then some .list else none
  | none => none

theorem asked?_eq_some {asked : Asked} :
    asked? request = some asked ↔ Asks request asked := by
  constructor
  · intro h
    unfold asked? at h
    split at h
    · rename_i idPart kindPart hroute
      obtain ⟨hfor, hid, hkind, hne⟩ := route?_eq_some.mp hroute
      obtain ⟨hmethod, h⟩ := Option.ite_none_right_eq_some.mp h
      obtain ⟨id, hdecodedId, h⟩ := Option.bind_eq_some_iff.mp h
      obtain ⟨kind, hdecodedKind, h⟩ := Option.bind_eq_some_iff.mp h
      obtain ⟨content, hbody, h⟩ := Option.bind_eq_some_iff.mp h
      obtain rfl := Option.some.inj h
      exact .put hmethod hfor hid hkind hne hdecodedId hdecodedKind
        (toOption_eq_some.mp hbody)
    · rename_i idPart hroute
      obtain ⟨hfor, hid, hne⟩ := route?_eq_some.mp hroute
      obtain ⟨hmethod, h⟩ := Option.ite_none_right_eq_some.mp h
      obtain ⟨id, hdecoded, rfl⟩ := Option.map_eq_some_iff.mp h
      exact .delete hmethod hfor hid hne hdecoded
    · rename_i hroute
      obtain ⟨hmethod, h⟩ := Option.ite_none_right_eq_some.mp h
      obtain ⟨raw, hbody, rfl⟩ := Option.map_eq_some_iff.mp h
      exact .query hmethod (route?_eq_some.mp hroute).1
        (toOption_eq_some.mp hbody)
    · rename_i hroute
      obtain ⟨hmethod, h⟩ := Option.ite_none_right_eq_some.mp h
      obtain rfl := Option.some.inj h
      exact .list hmethod (route?_eq_some.mp hroute).1
    · cases h
  · intro h
    cases h with
    | put hmethod hfor hid hkind hne hdecodedId hdecodedKind hbody =>
      have hroute : request.route? = some (.datasetOfKind _ _) :=
        route?_eq_some.mpr ⟨hfor, hid, hkind, hne⟩
      simp [asked?, hroute, hmethod, putOf?, hdecodedId, hdecodedKind, hbody,
        Except.toOption]
    | delete hmethod hfor hid hne hdecoded =>
      have hroute : request.route? = some (.dataset _) :=
        route?_eq_some.mpr ⟨hfor, hid, hne⟩
      simp [asked?, hroute, hmethod, hdecoded]
    | query hmethod hfor hbody =>
      have hroute : request.route? = some .query :=
        route?_eq_some.mpr ⟨hfor, trivial⟩
      simp [asked?, hroute, hmethod, hbody, Except.toOption]
    | list hmethod hfor =>
      have hroute : request.route? = some .datasets :=
        route?_eq_some.mpr ⟨hfor, trivial⟩
      simp [asked?, hroute, hmethod]

/-- A request asks for one thing only. -/
theorem Asks.unique {asked other : Asked} (h : Asks request asked)
    (hother : Asks request other) : asked = other :=
  Option.some.inj ((asked?_eq_some.mpr h).symm.trans (asked?_eq_some.mpr hother))

theorem not_asks_of_eq_none (h : asked? request = none) (asked : Asked) :
    ¬Asks request asked := by
  intro hasks
  rw [asked?_eq_some.mpr hasks] at h
  cases h

end Service

end CampusQuery
