/-
CampusQuery.Proofs.Registry.Catalogue — what a registry should answer.

A catalogue is a map from ids to kinds and records. It knows nothing of
shelves, of storage or of restarts: `Step` says, request by request, which
answers it gives and what it holds afterwards. Two answers are left open,
the order of listings and the cause for which a dataset is not added.
-/
import Mathlib.Data.List.Forall2
import CampusQuery.Registry.Basic

namespace CampusQuery

/-! ## Requests -/

/-- What a registry can be asked for; `restart` starts the program anew. -/
inductive Request
  | add (id : String) (kind : Kind) (content : Json)
  | remove (id : String)
  | list
  | resolve (id : String)
  | query (raw : Json)
  | restart

inductive Answer
  | added (outcome : Outcome (List String))
  | removed (outcome : Outcome String)
  | listed (outcome : Outcome (List DatasetInfo))
  | resolved (outcome : Outcome (Option Dataset))
  | found (outcome : Outcome (List Row))
  | restarted

namespace Registry

def answerOf {α : Type} (make : α → Answer) (result : α × Registry) :
    Answer × Registry := (make result.1, result.2)

def serve (registry : Registry) : Request → Answer × Registry
  | .add id kind content => answerOf .added (registry.addJson id kind content)
  | .remove id => answerOf .removed (registry.remove id)
  | .list => (.listed registry.list, registry)
  | .resolve id => answerOf .resolved (registry.resolve id)
  | .query raw => answerOf .found (registry.query raw)
  | .restart => (.restarted, registry.restart)

def answers (registry : Registry) : List Request → List Answer
  | [] => []
  | request :: rest =>
    (registry.serve request).1 :: (registry.serve request).2.answers rest

end Registry

/-! ## Catalogues -/

structure Entry where
  kind : Kind
  records : List Record

def Entry.dataset (entry : Entry) (id : String) : Dataset :=
  ⟨id, entry.kind, entry.records⟩

abbrev Catalogue := String → Option Entry

namespace Catalogue

def empty : Catalogue := fun _ => none

def insert (catalogue : Catalogue) (id : String) (entry : Entry) :
    Catalogue := fun other => if other = id then some entry else catalogue other

def erase (catalogue : Catalogue) (id : String) : Catalogue :=
  fun other => if other = id then none else catalogue other

def dataset? (catalogue : Catalogue) (id : String) : Option Dataset :=
  (catalogue id).map (·.dataset id)

/-- The answer to a query: that of the dataset that it is about. -/
def answer (catalogue : Catalogue) (raw : Json) : Outcome (List Row) := do
  let id ← Query.boundDataset raw
  match catalogue id with
  | none => refuse (.dataset (.unknown id))
  | some entry =>
    let query ← Query.read id entry.kind raw
    query.run (entry.dataset id)

/-- The listing has exactly one entry for each id. -/
def Lists (catalogue : Catalogue) (infos : List DatasetInfo) : Prop :=
  (infos.map (·.id)).Nodup ∧
    ∀ info, info ∈ infos ↔
      ∃ dataset, catalogue.dataset? info.id = some dataset ∧
        info = dataset.info

/-- The content is a list of JSON values that the records are decoded
from. -/
def Holds (kind : Kind) (content : Json) (records : List Record) : Prop :=
  ∃ items, content = .array items ∧
    List.Forall₂ (fun item record => Record.ofJson kind item = .ok record)
      items records

def Admits (catalogue : Catalogue) (id : String) (kind : Kind)
    (content : Json) (records : List Record) : Prop :=
  Holds kind content records ∧ records ≠ [] ∧ Dataset.isValidId id ∧
    catalogue id = none

/-- The answer to a request, and the catalogue after it. -/
inductive Step (catalogue : Catalogue) :
    Request → Answer → Catalogue → Prop
  | added {id : String} {kind : Kind} {content : Json}
      {records : List Record} {infos : List DatasetInfo} :
      catalogue.Admits id kind content records →
      (catalogue.insert id ⟨kind, records⟩).Lists infos →
      Step catalogue (.add id kind content)
        (.added (.ok (infos.map (·.id))))
        (catalogue.insert id ⟨kind, records⟩)
  | refused {id : String} {kind : Kind} {content : Json} {cause : Invalid} :
      (¬∃ records, catalogue.Admits id kind content records) →
      Step catalogue (.add id kind content)
        (.added (.error (.invalid cause))) catalogue
  | removed {id : String} {entry : Entry} :
      catalogue id = some entry →
      Step catalogue (.remove id) (.removed (.ok id)) (catalogue.erase id)
  | invalidId {id : String} :
      ¬Dataset.isValidId id →
      Step catalogue (.remove id)
        (.removed (.error (.invalid (.dataset (.invalidId id))))) catalogue
  | notFound {id text : String} :
      Dataset.isValidId id → catalogue id = none →
      Step catalogue (.remove id) (.removed (.error (.notFound text)))
        catalogue
  | listed {infos : List DatasetInfo} :
      catalogue.Lists infos →
      Step catalogue .list (.listed (.ok infos)) catalogue
  | resolved {id : String} :
      Step catalogue (.resolve id)
        (.resolved (.ok (catalogue.dataset? id))) catalogue
  | found {raw : Json} :
      Step catalogue (.query raw) (.found (catalogue.answer raw)) catalogue
  | restarted : Step catalogue .restart .restarted catalogue

/-- The answers to requests made one after the other are those of the
catalogue. -/
inductive Explains : Catalogue → List Request → List Answer → Prop
  | nil {catalogue : Catalogue} : Explains catalogue [] []
  | cons {catalogue after : Catalogue} {request : Request} {answer : Answer}
      {requests : List Request} {answers : List Answer} :
      catalogue.Step request answer after →
      Explains after requests answers →
      Explains catalogue (request :: requests) (answer :: answers)

end Catalogue

end CampusQuery
