/-
CampusQuery.Proofs.Registry.Keeping — the index of a shelf and the order of
its ids stay in step.

What is on a shelf can be told from the actions that led to it. Under an id
there is what the last action about it left (`leftBy`), and it has been there
since the first time that it was kept after it was last released
(`StaysFrom`). `Records.act` shows for one action more that the index and the
order record just that, so by induction they do after any run
(`records_afterAll`), and `toShelf_afterAll` that the datasets in order are
those of the plain shelf.
-/
import CampusQuery.Proofs.Registry.Representation
import CampusQuery.Registry.IndexedShelf

namespace CampusQuery

/-! ## What actions leave -/

namespace Shelf

variable {actions : List Action} {action : Action} {id : String}
  {place : Nat}

/-- What the last action about an id leaves under it. -/
def leftBy (actions : List Action) (id : String) : Option Dataset :=
  (actions.filter (·.id = id)).getLast?.bind Action.dataset?

theorem leftBy_concat (actions : List Action) (action : Action)
    (id : String) :
    leftBy (actions ++ [action]) id =
      if action.id = id then action.dataset? else leftBy actions id := by
  by_cases h : action.id = id
  · simp [leftBy, h]
  · simp [leftBy, h]

theorem id_of_dataset? {dataset : Dataset}
    (h : action.dataset? = some dataset) : dataset.id = action.id := by
  cases action with
  | keep kept => simp_all [Action.dataset?, Action.id]
  | release id => simp [Action.dataset?] at h

/-- Whatever is left under an id has this id. -/
theorem id_of_leftBy {dataset : Dataset}
    (h : leftBy actions id = some dataset) : dataset.id = id := by
  obtain ⟨action, hlast, hdataset⟩ := Option.bind_eq_some_iff.mp h
  have hmem := List.mem_filter.mp (List.mem_of_getLast? hlast)
  rw [id_of_dataset? hdataset]
  simpa using hmem.2

/-- The action at the place is the first to keep the id since it was last
released: there was nothing under the id before, and it is not released after
that. -/
def StaysFrom (actions : List Action) (id : String) (place : Nat) : Prop :=
  ∃ before dataset after, actions = before ++ .keep dataset :: after ∧
    before.length = place ∧ dataset.id = id ∧ leftBy before id = none ∧
    Action.release id ∉ after

theorem StaysFrom.lt_length (h : StaysFrom actions id place) :
    place < actions.length := by
  obtain ⟨before, dataset, after, rfl, rfl, -⟩ := h
  simp

/-- With one action more an id stays from where it did unless it is released
now, or from the new action on if that keeps it and there was nothing. -/
theorem staysFrom_concat :
    StaysFrom (actions ++ [action]) id place ↔
      (StaysFrom actions id place ∧ action ≠ .release id) ∨
        (∃ dataset, action = .keep dataset ∧ dataset.id = id ∧
          leftBy actions id = none ∧ place = actions.length) := by
  constructor
  · rintro ⟨before, dataset, after, heq, hplace, hid, hbefore, hafter⟩
    rcases List.eq_nil_or_concat after with rfl | ⟨front, last, rfl⟩
    · obtain ⟨rfl, hlast⟩ := List.append_inj' heq rfl
      exact .inr ⟨dataset, List.singleton_inj.mp hlast, hid, hbefore,
        hplace.symm⟩
    · have hcut : actions ++ [action]
          = (before ++ .keep dataset :: front) ++ [last] := by
        simpa using heq
      obtain ⟨hactions, hlast⟩ := List.append_inj' hcut rfl
      obtain rfl := List.singleton_inj.mp hlast
      rw [List.concat_eq_append, List.mem_append, not_or,
        List.mem_singleton] at hafter
      exact .inl ⟨⟨before, dataset, front, hactions, hplace, hid, hbefore,
        hafter.1⟩, fun h => hafter.2 h.symm⟩
  · rintro (⟨⟨before, dataset, after, rfl, hplace, hid, hbefore, hafter⟩, hne⟩
      | ⟨dataset, rfl, hid, hbefore, rfl⟩)
    · refine ⟨before, dataset, after ++ [action], by simp, hplace, hid,
        hbefore, ?_⟩
      rw [List.mem_append, not_or, List.mem_singleton]
      exact ⟨hafter, fun h => hne h.symm⟩
    · exact ⟨actions, dataset, [], rfl, rfl, hid, hbefore, by simp⟩

theorem staysFrom_keep {dataset : Dataset} :
    StaysFrom (actions ++ [.keep dataset]) id place ↔
      StaysFrom actions id place ∨
        (dataset.id = id ∧ leftBy actions id = none ∧
          place = actions.length) := by
  simp [staysFrom_concat]

theorem staysFrom_release {released : String} :
    StaysFrom (actions ++ [.release released]) id place ↔
      StaysFrom actions id place ∧ released ≠ id := by
  simp [staysFrom_concat]

/-- An id is there from some place on if something is left under it. -/
theorem exists_staysFrom_iff :
    (∃ place, StaysFrom actions id place) ↔ (leftBy actions id).isSome := by
  induction actions using List.reverseRecOn with
  | nil =>
    refine iff_of_false ?_ (by simp [leftBy])
    rintro ⟨place, hplace⟩
    exact Nat.not_lt_zero _ hplace.lt_length
  | append_singleton front last ih =>
    rw [leftBy_concat]
    cases last with
    | keep dataset =>
      by_cases hid : dataset.id = id
      · refine iff_of_true ?_ (by simp [Action.id, hid, Action.dataset?])
        cases hleft : leftBy front id with
        | none => exact ⟨_, staysFrom_keep.mpr (.inr ⟨hid, hleft, rfl⟩)⟩
        | some kept =>
          obtain ⟨place, hplace⟩ := ih.mpr (by simp [hleft])
          exact ⟨place, staysFrom_keep.mpr (.inl hplace)⟩
      · simp [staysFrom_keep, Action.id, hid, ih]
    | release released =>
      by_cases hid : released = id
      · simp [staysFrom_release, Action.id, hid, Action.dataset?]
      · simp [staysFrom_release, Action.id, hid, ih]

theorem StaysFrom.leftBy_ne_none (h : StaysFrom actions id place) :
    leftBy actions id ≠ none := by
  intro hnone
  have hsome := exists_staysFrom_iff.mp ⟨place, h⟩
  simp [hnone] at hsome

/-- An id is there from only one place on. -/
theorem StaysFrom.unique {other : Nat} (h : StaysFrom actions id place)
    (hother : StaysFrom actions id other) : place = other := by
  induction actions using List.reverseRecOn with
  | nil => exact absurd h.lt_length (Nat.not_lt_zero _)
  | append_singleton front last ih =>
    -- The last action puts only an id there that was not there before.
    rcases staysFrom_concat.mp h with ⟨hold, -⟩ | ⟨_, -, -, hnone, hnew⟩
    · rcases staysFrom_concat.mp hother with ⟨hold', -⟩ | ⟨_, -, -, hnone, -⟩
      · exact ih hold hold'
      · exact absurd hnone hold.leftBy_ne_none
    · rcases staysFrom_concat.mp hother with ⟨hold, -⟩ | ⟨_, -, -, -, hnew'⟩
      · exact absurd hnone hold.leftBy_ne_none
      · rw [hnew, hnew']

/-- The first id has been there for longer than the second one. -/
def StaysBefore (actions : List Action) (first second : String) : Prop :=
  ∃ earlier later, earlier < later ∧ StaysFrom actions first earlier ∧
    StaysFrom actions second later

theorem StaysBefore.ne {first second : String}
    (h : StaysBefore actions first second) : first ≠ second := by
  obtain ⟨earlier, later, hlt, hfirst, hsecond⟩ := h
  rintro rfl
  exact absurd (hfirst.unique hsecond) (Nat.ne_of_lt hlt)

/-- Ids that are not released now stay in order. -/
theorem StaysBefore.concat {first second : String}
    (h : StaysBefore actions first second) (hfirst : action ≠ .release first)
    (hsecond : action ≠ .release second) :
    StaysBefore (actions ++ [action]) first second := by
  obtain ⟨earlier, later, hlt, hearlier, hlater⟩ := h
  exact ⟨earlier, later, hlt, staysFrom_concat.mpr (.inl ⟨hearlier, hfirst⟩),
    staysFrom_concat.mpr (.inl ⟨hlater, hsecond⟩)⟩

/-- A new id comes after all that are there. -/
theorem staysBefore_new {first : String} {dataset : Dataset}
    (hfirst : (leftBy actions first).isSome)
    (hnew : leftBy actions dataset.id = none) :
    StaysBefore (actions ++ [.keep dataset]) first dataset.id := by
  obtain ⟨place, hplace⟩ := exists_staysFrom_iff.mpr hfirst
  exact ⟨place, actions.length, hplace.lt_length,
    staysFrom_keep.mpr (.inl hplace),
    staysFrom_keep.mpr (.inr ⟨rfl, hnew, rfl⟩)⟩

end Shelf

/-! ## Shelves in order -/

namespace Shelf

theorem mem_ids_iff {shelf : Shelf} {id : String} :
    id ∈ shelf.ids ↔ (shelf.get? id).isSome := by
  simp [ids, get?]

/-- A new id comes last, and any other keeps its place. -/
theorem ids_keep (shelf : Shelf) (dataset : Dataset) :
    (shelf.keep dataset).ids =
      if dataset.id ∈ shelf.ids then shelf.ids
      else shelf.ids ++ [dataset.id] := by
  obtain ⟨datasets⟩ := shelf
  simp only [ids, keep]
  induction datasets with
  | nil => simp [put]
  | cons kept rest ih =>
    by_cases h : kept.id = dataset.id
    · simp [put, h]
    · have hne : dataset.id ≠ kept.id := fun hsame => h hsame.symm
      rw [put, if_neg h, List.map_cons, ih]
      by_cases hrest : dataset.id ∈ rest.map (·.id)
      · simp [hrest]
      · simp [hrest, hne]

theorem ids_release (shelf : Shelf) (id : String) :
    (shelf.release id).ids = shelf.ids.filter (· ≠ id) := by
  simp [ids, release, List.filter_map, Function.comp_def]

/-- Releasing an id leaves the datasets of others as they are. -/
theorem get?_release_of_ne (shelf : Shelf) {released id : String}
    (h : id ≠ released) : (shelf.release released).get? id = shelf.get? id := by
  simp only [get?, release, List.find?_filter]
  congr 1
  funext dataset
  by_cases hid : dataset.id = id
  · simp [hid, h]
  · simp [hid]

theorem afterAll_concat (actions : List Action) (action : Action) :
    afterAll (actions ++ [action]) = (afterAll actions).act action := by
  simp [afterAll]

/-- A shelf has what the actions left under each id. -/
theorem get?_afterAll (actions : List Action) (id : String) :
    (afterAll actions).get? id = leftBy actions id := by
  induction actions using List.reverseRecOn with
  | nil => rfl
  | append_singleton front last ih =>
    rw [afterAll_concat, leftBy_concat]
    cases last with
    | keep dataset =>
      by_cases hid : dataset.id = id
      · subst hid
        simp [act, Action.id, Action.dataset?, get?_keep_self]
      · simp [act, Action.id, hid, get?_keep_of_ne _ hid, ih]
    | release released =>
      by_cases hid : released = id
      · subst hid
        simp [act, Action.id, Action.dataset?, get?_release_self]
      · have hne : id ≠ released := fun hsame => hid hsame.symm
        simp [act, Action.id, hid, get?_release_of_ne _ hne, ih]

/-- With every id there once, the datasets are those that are found under the
ids in order. -/
theorem datasets_eq {shelf : Shelf} (h : shelf.ids.Nodup) :
    shelf.datasets = shelf.ids.filterMap shelf.get? := by
  have hfound : ∀ dataset ∈ shelf.datasets,
      shelf.get? dataset.id = some dataset := by
    intro dataset hdataset
    have hsome : (shelf.get? dataset.id).isSome :=
      mem_ids_iff.mp (List.mem_map_of_mem hdataset)
    obtain ⟨found, hfound⟩ := Option.isSome_iff_exists.mp hsome
    have hmem := List.mem_of_find?_eq_some hfound
    have hid : found.id = dataset.id := by
      simpa using List.find?_some hfound
    rw [hfound, List.inj_on_of_nodup_map h hmem hdataset hid]
  rw [ids, List.filterMap_map]
  exact ((List.filterMap_congr hfound).trans List.filterMap_some).symm

end Shelf

/-! ## Index and order -/

namespace IndexedShelf

open CampusQuery.Shelf

variable {shelf : IndexedShelf} {actions : List Action}

/-- The index has what the actions left under each id, and the order has the
same ids, those first that have been there for longer. -/
structure Records (shelf : IndexedShelf) (actions : List Action) : Prop where
  lookup : ∀ id, shelf.index.lookup id = leftBy actions id
  mem_order : ∀ id, id ∈ shelf.order ↔ id ∈ shelf.index
  arranged : shelf.order.Pairwise (StaysBefore actions)

theorem records_empty : empty.Records [] where
  lookup := by simp [empty, leftBy]
  mem_order := by simp [empty, Finmap.notMem_empty]
  arranged := .nil

theorem Records.nodup_order (h : shelf.Records actions) :
    shelf.order.Nodup :=
  h.arranged.imp StaysBefore.ne

theorem Records.mem_order_iff (h : shelf.Records actions) {id : String} :
    id ∈ shelf.order ↔ (leftBy actions id).isSome := by
  rw [h.mem_order, ← h.lookup, Finmap.lookup_isSome]

/-- A new id comes last, and any other keeps its place. -/
theorem order_keep (shelf : IndexedShelf) (dataset : Dataset) :
    (shelf.keep dataset).2.order =
      if dataset.id ∈ shelf.index then shelf.order
      else shelf.order ++ [dataset.id] := by
  by_cases h : dataset.id ∈ shelf.index
  · obtain ⟨kept, hkept⟩ := Finmap.mem_iff.mp h
    simp [keep, h, hkept]
  · simp [keep, h, Finmap.lookup_eq_none.mpr h]

/-- An id that is released is taken out. -/
theorem Records.order_release (h : shelf.Records actions) (id : String) :
    (shelf.release id).2.order = shelf.order.filter (· ≠ id) := by
  cases hlookup : shelf.index.lookup id with
  | some released => simp [release, hlookup]
  | none =>
    -- Nothing is taken out then, and the id is not in the order either.
    have hothers : shelf.order.filter (· ≠ id) = shelf.order := by
      refine List.filter_eq_self.mpr fun other hother => ?_
      have hne : other ≠ id := by
        rintro rfl
        exact Finmap.lookup_eq_none.mp hlookup ((h.mem_order other).mp hother)
      simpa using hne
    rw [hothers]
    simp [release, hlookup]

/-- Keeping a dataset is recorded in the index and in the order. -/
theorem Records.keep (h : shelf.Records actions) (dataset : Dataset) :
    (shelf.keep dataset).2.Records (actions ++ [.keep dataset]) where
  lookup := by
    intro id
    rw [leftBy_concat]
    by_cases hid : dataset.id = id
    · subst hid
      simp [IndexedShelf.keep, Action.id, Action.dataset?]
    · have hne : id ≠ dataset.id := fun hsame => hid hsame.symm
      simp [IndexedShelf.keep, Action.id, hid,
        Finmap.lookup_insert_of_ne _ hne, h.lookup]
  mem_order := by
    intro id
    have hindex : id ∈ (shelf.keep dataset).2.index ↔
        id = dataset.id ∨ id ∈ shelf.index := Finmap.mem_insert
    rw [hindex, order_keep]
    split
    · rename_i hkept
      rw [h.mem_order]
      refine ⟨.inr, fun hor => hor.elim ?_ (fun hmem => hmem)⟩
      rintro rfl
      exact hkept
    · simp [h.mem_order, or_comm]
  arranged := by
    have hfront : shelf.order.Pairwise
        (StaysBefore (actions ++ [.keep dataset])) :=
      h.arranged.imp fun hbefore => hbefore.concat (by simp) (by simp)
    rw [order_keep]
    split
    · exact hfront
    · rename_i hnew
      have hleft : leftBy actions dataset.id = none :=
        h.lookup dataset.id ▸ Finmap.lookup_eq_none.mpr hnew
      refine List.pairwise_append.mpr
        ⟨hfront, List.pairwise_singleton _ _, ?_⟩
      intro first hfirst second hsecond
      obtain rfl := List.mem_singleton.mp hsecond
      exact staysBefore_new (h.mem_order_iff.mp hfirst) hleft

/-- Releasing an id is recorded in the index and in the order. -/
theorem Records.release (h : shelf.Records actions) (id : String) :
    (shelf.release id).2.Records (actions ++ [.release id]) where
  lookup := by
    intro other
    rw [leftBy_concat]
    by_cases hid : id = other
    · subst hid
      simp [IndexedShelf.release, Action.id, Action.dataset?]
    · have hne : other ≠ id := fun hsame => hid hsame.symm
      simp [IndexedShelf.release, Action.id, hid, Finmap.lookup_erase_ne hne,
        h.lookup]
  mem_order := by
    intro other
    rw [h.order_release, List.mem_filter, h.mem_order]
    simp [IndexedShelf.release, and_comm]
  arranged := by
    have hstays : ∀ other ∈ shelf.order.filter (· ≠ id),
        Action.release id ≠ .release other := by
      intro other hother hsame
      have hne : other ≠ id := by
        simpa using (List.mem_filter.mp hother).2
      exact hne (Action.release.inj hsame).symm
    rw [h.order_release]
    refine (h.arranged.filter _).imp_of_mem ?_
    intro first second hfirst hsecond hbefore
    exact hbefore.concat (hstays first hfirst) (hstays second hsecond)

theorem Records.act (h : shelf.Records actions) (action : Action) :
    (shelf.act action).Records (actions ++ [action]) := by
  cases action with
  | keep dataset => exact h.keep dataset
  | release id => exact h.release id

theorem afterAll_concat (actions : List Action) (action : Action) :
    afterAll (actions ++ [action]) = (afterAll actions).act action := by
  simp [afterAll]

theorem records_afterAll (actions : List Action) :
    (afterAll actions).Records actions := by
  induction actions using List.reverseRecOn with
  | nil => exact records_empty
  | append_singleton front last ih =>
    rw [afterAll_concat]
    exact ih.act last

/-! ## Reading a shelf -/

variable (h : shelf.Records actions)
include h

theorem Records.map_id_datasets :
    shelf.datasets.map (·.id) = shelf.order := by
  have hnamed : ∀ id ∈ shelf.order,
      (shelf.index.lookup id).map (·.id) = some id := by
    intro id hid
    obtain ⟨dataset, hdataset⟩ := Finmap.mem_iff.mp ((h.mem_order id).mp hid)
    rw [hdataset, Option.map_some, id_of_leftBy (h.lookup id ▸ hdataset)]
  rw [datasets, List.map_filterMap]
  exact (List.filterMap_congr hnamed).trans List.filterMap_some

theorem Records.mem_datasets_iff {dataset : Dataset} :
    dataset ∈ shelf.datasets ↔ leftBy actions dataset.id = some dataset := by
  simp only [datasets, List.mem_filterMap, h.lookup]
  constructor
  · rintro ⟨id, -, hid⟩
    rwa [id_of_leftBy hid]
  · intro hleft
    exact ⟨dataset.id, h.mem_order_iff.mpr (by simp [hleft]), hleft⟩

theorem Records.toFinset_order : shelf.order.toFinset = shelf.index.keys := by
  ext id
  rw [List.mem_toFinset, h.mem_order, Finmap.mem_keys]

theorem Records.size_eq : shelf.size = shelf.datasets.length := by
  rw [size, ← h.toFinset_order, List.toFinset_card_of_nodup h.nodup_order,
    ← h.map_id_datasets, List.length_map]

omit h

/-- Both shelves have the same ids in the same order. -/
theorem ids_afterAll (actions : List Action) :
    (Shelf.afterAll actions).ids = (afterAll actions).order := by
  induction actions using List.reverseRecOn with
  | nil => rfl
  | append_singleton front last ih =>
    have hrecords := records_afterAll front
    rw [Shelf.afterAll_concat, afterAll_concat]
    cases last with
    | keep dataset =>
      simp only [Shelf.act, act, ids_keep, order_keep, ih, hrecords.mem_order]
    | release id =>
      simp only [Shelf.act, act, ids_release, hrecords.order_release, ih]

/-- In order, the datasets are those of the plain shelf. -/
theorem toShelf_afterAll (actions : List Action) :
    (afterAll actions).toShelf = Shelf.afterAll actions := by
  have hrecords := records_afterAll actions
  have hnodup : (Shelf.afterAll actions).ids.Nodup := by
    rw [ids_afterAll]
    exact hrecords.nodup_order
  have hsame : (afterAll actions).datasets
      = (Shelf.afterAll actions).datasets := by
    rw [datasets_eq hnodup, ids_afterAll, datasets]
    refine List.filterMap_congr fun id _ => ?_
    rw [hrecords.lookup, get?_afterAll]
  rw [toShelf, hsame]

/-- After any actions the index and the order of a shelf say the same. The
order has every id of the index once, the ids first that have been there for
longer since they were last released, and under each id the index has the
dataset of that id that the last action about it left. Listing the shelf gives
each of these datasets once in that order, as the plain shelf has them, and
looking an id up, asking for it or releasing it answers with what was left. -/
theorem afterAll_coherent (actions : List Action) :
    let shelf := afterAll actions
    (shelf.order.Nodup ∧ shelf.order.toFinset = shelf.index.keys) ∧
    (∀ id, ∀ dataset ∈ shelf.index.lookup id, dataset.id = id) ∧
    (shelf.datasets.map (·.id) = shelf.order ∧
      (∀ dataset, dataset ∈ shelf.datasets ↔
        leftBy actions dataset.id = some dataset) ∧
      shelf.order.Pairwise (StaysBefore actions) ∧
      shelf.size = shelf.datasets.length) ∧
    (∀ id, shelf.get? id = leftBy actions id ∧
      shelf.contains id = (leftBy actions id).isSome ∧
      (shelf.release id).1 = leftBy actions id) ∧
    shelf.toShelf = Shelf.afterAll actions := by
  intro shelf
  have hrecords : shelf.Records actions := records_afterAll actions
  refine ⟨⟨hrecords.nodup_order, hrecords.toFinset_order⟩, ?_,
    ⟨hrecords.map_id_datasets, fun _ => hrecords.mem_datasets_iff,
      hrecords.arranged, hrecords.size_eq⟩, ?_, toShelf_afterAll actions⟩
  · intro id dataset hdataset
    exact id_of_leftBy (hrecords.lookup id ▸ hdataset)
  · intro id
    have hlookup := hrecords.lookup id
    refine ⟨hlookup, ?_, hlookup⟩
    rw [← hlookup, contains, Bool.eq_iff_iff, decide_eq_true_iff,
      Finmap.lookup_isSome]

/-- An id that is kept again stays where it is, unless it was released. -/
example :
    (afterAll [.keep ⟨"courses", .sections, []⟩, .keep ⟨"campus", .rooms, []⟩,
      .keep ⟨"courses", .rooms, []⟩, .release "campus", .release "spare",
      .keep ⟨"campus", .sections, []⟩]).datasets
        = [⟨"courses", .rooms, []⟩, ⟨"campus", .sections, []⟩] := by
  decide

end IndexedShelf

end CampusQuery
