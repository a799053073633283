/-
CampusQuery.Proofs.Query.Grouping — how rows fall into groups.

Two rows of a list may be alike, so a group is described by the positions of
its rows (`Groups`). If all rows have the key columns there is such a
description: the positions are divided among the groups, and two of them are
together exactly if the texts of their rows are the same.
-/
import Mathlib.Data.List.FinRange
import Mathlib.Data.List.Perm.Basic
import Mathlib.Tactic.Set
import CampusQuery.Proofs.Outcome
import CampusQuery.Query.Grouping

namespace CampusQuery.Query.Grouping

open Outcome

/-! ## Gathering -/

section

variable {α β : Type}

theorem nodup_eraseDups {κ : Type} [BEq κ] [LawfulBEq κ] :
    ∀ keys : List κ, keys.eraseDups.Nodup
  | [] => List.nodup_nil
  | key :: rest => by
    rw [List.eraseDups_cons, List.nodup_cons, List.mem_eraseDups]
    exact ⟨by simp, nodup_eraseDups _⟩
termination_by keys => keys.length
decreasing_by exact Nat.lt_succ_of_le (List.length_filter_le _ _)

/-- One more key is kept at the end if it is new. -/
theorem eraseDups_concat {κ : Type} [BEq κ] [LawfulBEq κ] (keys : List κ)
    (key : κ) :
    (keys ++ [key]).eraseDups =
      if key ∈ keys then keys.eraseDups else keys.eraseDups ++ [key] := by
  rw [List.eraseDups_append]
  by_cases h : key ∈ keys
  · simp [List.removeAll, h]
  · simp [List.removeAll, h, List.eraseDups_cons]

def textsOf (tagged : List (String × α)) : List String :=
  (tagged.map (·.1)).eraseDups

def itemsOf (tagged : List (String × α)) (text : String) : List α :=
  (tagged.filter (·.1 == text)).map (·.2)

theorem textsOf_concat (tagged : List (String × α)) (item : String × α) :
    textsOf (tagged ++ [item]) =
      if item.1 ∈ textsOf tagged then textsOf tagged
      else textsOf tagged ++ [item.1] := by
  simp only [textsOf, List.map_append, List.map_singleton, eraseDups_concat,
    List.mem_eraseDups]

theorem itemsOf_concat (tagged : List (String × α)) (item : String × α)
    (text : String) :
    itemsOf (tagged ++ [item]) text =
      if item.1 = text then itemsOf tagged text ++ [item.2]
      else itemsOf tagged text := by
  by_cases h : item.1 = text <;> simp [itemsOf, h]

theorem itemsOf_eq_nil {tagged : List (String × α)} {text : String}
    (h : text ∉ textsOf tagged) : itemsOf tagged text = [] := by
  simp only [textsOf, List.mem_eraseDups, List.mem_map, not_exists,
    not_and] at h
  simpa [itemsOf] using fun other item hitem hsame => h (other, item) hitem hsame

/-- What stands at a place of a list with one more member. -/
theorem getElem?_concat_eq_some {xs : List β} {x y : β} {place : Nat} :
    (xs ++ [x])[place]? = some y ↔
      xs[place]? = some y ∨ (place = xs.length ∧ x = y) := by
  rw [List.getElem?_append]
  by_cases hbefore : place < xs.length
  · simp [hbefore, Nat.ne_of_lt hbefore]
  · have hnone : xs[place]? = none := List.getElem?_eq_none (by omega)
    rw [if_neg hbefore, hnone, List.getElem?_singleton]
    by_cases hlast : place = xs.length
    · simp [hlast]
    · simp [hlast, show place - xs.length ≠ 0 by omega]

/-- What has been gathered of tagged items: a group for each text, with the
items of this text, at the place where the index has it. -/
structure Gathering.Holds (gathering : Gathering α)
    (tagged : List (String × α)) : Prop where
  places : ∀ text place, gathering.places.lookup text = some place ↔
    (textsOf tagged)[place]? = some text
  groups : gathering.groups = (textsOf tagged).map (itemsOf tagged)

theorem Gathering.holds_empty :
    (empty : Gathering α).Holds [] where
  places := by simp [empty, textsOf]
  groups := rfl

/-- Adding an item keeps the index and the groups in step. -/
theorem Gathering.Holds.add {gathering : Gathering α}
    {tagged : List (String × α)} (h : gathering.Holds tagged)
    (item : String × α) :
    (gathering.add item).Holds (tagged ++ [item]) := by
  have hnodup : (textsOf tagged).Nodup := nodup_eraseDups _
  unfold Gathering.add
  cases hplace : gathering.places.lookup item.1 with
  | some place =>
    have hat := (h.places item.1 place).mp hplace
    have htexts : textsOf (tagged ++ [item]) = textsOf tagged := by
      rw [textsOf_concat, if_pos (List.mem_of_getElem? hat)]
    refine ⟨htexts ▸ h.places, ?_⟩
    -- The group that grows is the one whose text stands at the place.
    rw [htexts]
    refine List.ext_getElem? fun i => ?_
    rw [h.groups, List.getElem?_modify, List.getElem?_map, List.getElem?_map]
    cases hi : (textsOf tagged)[i]? with
    | none => rfl
    | some text =>
      have hiff : place = i ↔ item.1 = text := by
        have hinj := List.getElem?_inj
          (List.getElem?_eq_some_iff.mp hat).1 hnodup (j := i)
        rw [← hinj, hat, hi, Option.some.injEq]
      by_cases hsame : place = i <;> simp [itemsOf_concat, hiff.symm, hsame]
  | none =>
    have hnew : item.1 ∉ textsOf tagged := by
      intro hmem
      obtain ⟨place, hat⟩ := List.mem_iff_getElem?.mp hmem
      rw [(h.places item.1 place).mpr hat] at hplace
      cases hplace
    have htexts : textsOf (tagged ++ [item]) = textsOf tagged ++ [item.1] := by
      rw [textsOf_concat, if_neg hnew]
    have hlength : gathering.groups.length = (textsOf tagged).length := by
      rw [h.groups, List.length_map]
    constructor
    · intro text place
      rw [htexts, hlength, getElem?_concat_eq_some, List.lookup_cons]
      by_cases hsame : text = item.1
      · have hnone : (textsOf tagged)[place]? ≠ some text := fun hat =>
          hnew (hsame ▸ List.mem_of_getElem? hat)
        simp [hsame, hsame ▸ hnone, eq_comm]
      · simp [beq_eq_false_iff_ne.mpr hsame, h.places, Ne.symm hsame]
    · have hold : (textsOf tagged).map (itemsOf (tagged ++ [item]))
          = (textsOf tagged).map (itemsOf tagged) := by
        refine List.map_congr_left fun text hmem => ?_
        have hne : item.1 ≠ text := fun hsame => hnew (hsame ▸ hmem)
        rw [itemsOf_concat, if_neg hne]
      rw [htexts, List.map_append, List.map_singleton, hold, itemsOf_concat,
        if_pos rfl, itemsOf_eq_nil hnew]
      exact congrArg (· ++ [[item.2]]) h.groups

/-- Adding the items of a list gathers all of them. -/
theorem Gathering.Holds.foldl_add {behind : List (String × α)} :
    ∀ {gathering : Gathering α} {tagged : List (String × α)},
      gathering.Holds tagged →
        (behind.foldl Gathering.add gathering).Holds (tagged ++ behind) := by
  induction behind with
  | nil =>
    intro gathering tagged h
    rwa [List.append_nil]
  | cons item rest ih =>
    intro gathering tagged h
    rw [List.foldl_cons, List.append_cons]
    exact ih (h.add item)

/-- Gathering makes a group for each text, with the items of this text. -/
theorem gather_eq (texts : List String) (items : List α) :
    gather texts items =
      (textsOf (texts.zip items)).map (itemsOf (texts.zip items)) :=
  (@Gathering.Holds.foldl_add _ (texts.zip items) _ _
    Gathering.holds_empty).groups

end

/-! ## Groups of texts -/

section

variable {α β : Type} (text : α → String) (xs : List α)

theorem gather_map (texts : List String) (f : α → β) :
    gather texts (xs.map f) = (gather texts xs).map (List.map f) := by
  have htexts : textsOf (texts.zip (xs.map f)) = textsOf (texts.zip xs) := by
    rw [textsOf, List.zip_map_right, List.map_map]
    rfl
  rw [gather_eq, gather_eq, List.map_map, htexts]
  refine List.map_congr_left fun t _ => ?_
  rw [List.zip_map_right, itemsOf, List.filter_map, List.map_map,
    Function.comp_apply, itemsOf, List.map_map]
  rfl

/-- There is a group for each text that occurs. -/
theorem gather_texts :
    gather (xs.map text) xs =
      (xs.map text).eraseDups.map fun t => xs.filter (text · == t) := by
  have hzip : (xs.map text).zip xs = xs.map fun x => (text x, x) := by
    simpa using @List.zip_map' _ _ _ text id xs
  have htexts : textsOf (xs.map fun x => (text x, x))
      = (xs.map text).eraseDups := by
    simp [textsOf, Function.comp_def]
  rw [gather_eq, hzip, htexts]
  refine List.map_congr_left fun t _ => ?_
  rw [itemsOf, List.filter_map, List.map_map]
  exact List.map_id _

/-- The groups of some texts have the items with one of these texts. -/
theorem flatten_filters_perm {texts : List String} (h : texts.Nodup) :
    (texts.map fun t => xs.filter (text · == t)).flatten.Perm
      (xs.filter (text · ∈ texts)) := by
  induction texts with
  | nil => simp
  | cons t rest ih =>
    obtain ⟨hnew, hrest⟩ := List.nodup_cons.mp h
    have hfirst : (xs.filter (text · ∈ t :: rest)).filter (text · == t)
        = xs.filter (text · == t) := by
      rw [List.filter_filter]
      refine List.filter_congr fun x _ => ?_
      by_cases hx : text x = t <;> simp [hx]
    have hothers : (xs.filter (text · ∈ t :: rest)).filter
          (fun x => !(text x == t)) = xs.filter (text · ∈ rest) := by
      rw [List.filter_filter]
      refine List.filter_congr fun x _ => ?_
      by_cases hx : text x = t
      · simp [hx, hnew]
      · simp [hx]
    rw [List.map_cons, List.flatten_cons]
    refine ((ih hrest).append_left _).trans ?_
    rw [← hfirst, ← hothers]
    exact List.filter_append_perm _ _

/-- Nothing is lost and nothing is in two groups. -/
theorem flatten_gather_perm : (gather (xs.map text) xs).flatten.Perm xs := by
  rw [gather_texts]
  refine (flatten_filters_perm text xs (nodup_eraseDups _)).trans ?_
  refine List.Perm.of_eq (List.filter_eq_self.mpr fun x hx => ?_)
  exact decide_eq_true (List.mem_eraseDups.mpr (List.mem_map_of_mem hx))

/-- The group of an item has all items with the same text. -/
theorem mem_gather {group : List α} :
    group ∈ gather (xs.map text) xs ↔
      ∃ x ∈ xs, group = xs.filter (text · == text x) := by
  rw [gather_texts, List.mem_map]
  simp only [List.mem_eraseDups, List.mem_map]
  constructor
  · rintro ⟨_, ⟨x, hx, rfl⟩, rfl⟩
    exact ⟨x, hx, rfl⟩
  · rintro ⟨x, hx, rfl⟩
    exact ⟨_, ⟨x, hx, rfl⟩, rfl⟩

end

/-! ## Rows -/

variable {grouping : Grouping} {rows : List Row}

/-- The row has all key columns. -/
def Covers (grouping : Grouping) (row : Row) : Prop :=
  ∀ key ∈ grouping.keys, row.contains key.column

instance (grouping : Grouping) (row : Row) :
    Decidable (grouping.Covers row) :=
  inferInstanceAs (Decidable (∀ key ∈ grouping.keys, row.contains key.column))

def displays (grouping : Grouping) (row : Row) : List String :=
  grouping.keys.filterMap fun key =>
    (row.get? key.column).map Value.display

/-- The texts of the key columns written one after the other. -/
def joined (grouping : Grouping) (row : Row) : String :=
  String.join (grouping.displays row)

theorem groupText_eq {row : Row} (h : grouping.Covers row) :
    groupText (grouping.keys.map FieldRef.column) row =
      .ok (grouping.joined row) := by
  have hmapM : ∀ keys : List FieldRef,
      (∀ key ∈ keys, row.contains key.column) →
      (keys.map FieldRef.column).mapM (keyText row) =
        .ok (keys.filterMap fun key =>
          (row.get? key.column).map Value.display) := by
    intro keys
    induction keys with
    | nil => intro _; rfl
    | cons key rest ih =>
      intro hkeys
      rw [List.forall_mem_cons] at hkeys
      obtain ⟨value, hvalue⟩ := Option.isSome_iff_exists.mp hkeys.1
      rw [List.map_cons, List.mapM_cons, ih hkeys.2, keyText, hvalue,
        List.filterMap_cons, hvalue]
      rfl
  unfold groupText
  rw [hmapM _ h]
  rfl

/-- Rows that have all key columns are gathered by the texts of these. -/
theorem buckets_eq (h : ∀ row ∈ rows, grouping.Covers row) :
    grouping.buckets rows = .ok (gather (rows.map grouping.joined) rows) := by
  have htexts : rows.mapM (groupText (grouping.keys.map FieldRef.column))
      = .ok (rows.map grouping.joined) := by
    rw [mapM_eq_ok, List.forall₂_map_right_iff, List.forall₂_same]
    exact fun row hrow => groupText_eq (h row hrow)
  exact bind_eq_ok.mpr ⟨_, htexts, rfl⟩

/-- The groups of a list of rows as the positions of their rows. -/
structure Groups (grouping : Grouping) (rows : List Row)
    (blocks : List (List (Fin rows.length))) : Prop where
  buckets : grouping.buckets rows = .ok (blocks.map (·.map rows.get))
  perm : blocks.flatten.Perm (List.finRange rows.length)
  nonempty : ∀ block ∈ blocks, block ≠ []
  ordered : ∀ block ∈ blocks, block.Pairwise (· < ·)

/-- A group has rows, all of them from the list. -/
theorem Groups.of_mem {blocks : List (List (Fin rows.length))}
    (h : grouping.Groups rows blocks) {bucket : List Row}
    (hbucket : bucket ∈ blocks.map (·.map rows.get)) :
    bucket ≠ [] ∧ ∀ row ∈ bucket, row ∈ rows := by
  obtain ⟨block, hblock, rfl⟩ := List.mem_map.mp hbucket
  refine ⟨by simpa using h.nonempty block hblock, fun row hrow => ?_⟩
  obtain ⟨place, -, rfl⟩ := List.mem_map.mp hrow
  exact List.get_mem rows place

def Together {n : Nat} (blocks : List (List (Fin n))) (i j : Fin n) : Prop :=
  ∃ block ∈ blocks, i ∈ block ∧ j ∈ block

/-- The positions of the rows of each group. -/
def blocks (grouping : Grouping) (rows : List Row) :
    List (List (Fin rows.length)) :=
  let positions := List.finRange rows.length
  gather (positions.map fun i => grouping.joined (rows.get i)) positions

/-- Rows that have all key columns fall into groups. -/
theorem groups_blocks (h : ∀ row ∈ rows, grouping.Covers row) :
    grouping.Groups rows (grouping.blocks rows) := by
  set positions := List.finRange rows.length
  have hrows : positions.map rows.get = rows := List.map_get_finRange rows
  let text := fun i => grouping.joined (rows.get i)
  have htext : positions.map text = rows.map grouping.joined := by
    rw [← congrArg (List.map grouping.joined) hrows, List.map_map]
    rfl
  refine ⟨?_, flatten_gather_perm text positions, ?_, ?_⟩
  · have hgather := gather_map positions (positions.map text) rows.get
    rw [hrows, htext] at hgather
    rw [buckets_eq h, hgather]
    exact congrArg Except.ok (htext ▸ rfl)
  · intro block hblock
    obtain ⟨i, hi, rfl⟩ := (mem_gather text positions).mp hblock
    exact List.ne_nil_of_mem (List.mem_filter.mpr ⟨hi, beq_self_eq_true _⟩)
  · intro block hblock
    obtain ⟨i, -, rfl⟩ := (mem_gather text positions).mp hblock
    exact (List.pairwise_lt_finRange _).filter _

/-- Two of them are together exactly if the texts of their key columns are the
same when written one after the other. -/
theorem together_blocks {i j : Fin rows.length} :
    Together (grouping.blocks rows) i j ↔
      grouping.joined (rows.get i) = grouping.joined (rows.get j) := by
  let text := fun i => grouping.joined (rows.get i)
  have hblocks : ∀ {block}, block ∈ grouping.blocks rows ↔ _ :=
    mem_gather text (List.finRange rows.length)
  have hmem : ∀ i : Fin rows.length, i ∈ List.finRange rows.length :=
    List.mem_finRange
  constructor
  · rintro ⟨block, hblock, hi, hj⟩
    obtain ⟨k, -, rfl⟩ := hblocks.mp hblock
    exact (eq_of_beq (List.mem_filter.mp hi).2).trans
      (eq_of_beq (List.mem_filter.mp hj).2).symm
  · intro hsame
    refine ⟨_, hblocks.mpr ⟨i, hmem i, rfl⟩, ?_, ?_⟩
    · exact List.mem_filter.mpr ⟨hmem i, beq_self_eq_true _⟩
    · exact List.mem_filter.mpr ⟨hmem j, beq_iff_eq.mpr hsame.symm⟩

theorem exists_groups (h : ∀ row ∈ rows, grouping.Covers row) :
    ∃ blocks, grouping.Groups rows blocks ∧ ∀ i j,
      Together blocks i j ↔
        grouping.joined (rows.get i) = grouping.joined (rows.get j) :=
  ⟨_, groups_blocks h, fun _ _ => together_blocks⟩

/-! ## Rows of groups -/

inductive IsBuilt : Grouping → Prop
  | empty : IsBuilt empty
  | setKeys {grouping after : Grouping} {keys : List FieldRef} :
    IsBuilt grouping → grouping.setKeys keys = .ok after → IsBuilt after
  | addAggregate {grouping after : Grouping} {name : String}
      {op : AggregateOp} {source : FieldRef} :
    IsBuilt grouping → grouping.addAggregate name op source = .ok after →
    IsBuilt after

/-- No name of an aggregate has an underscore. -/
theorem IsBuilt.underscore_not_mem (h : grouping.IsBuilt) :
    ∀ aggregate ∈ grouping.aggregates, '_' ∉ aggregate.name.toList := by
  induction h with
  | empty => simp [Grouping.empty]
  | setKeys _ hset ih =>
    rw [Grouping.setKeys, ite_refuse_eq_ok] at hset
    obtain rfl := Except.ok.inj hset.2
    exact ih
  | addAggregate _ hadd ih =>
    rw [Grouping.addAggregate, ite_refuse_eq_ok, ite_refuse_eq_ok] at hadd
    obtain ⟨hname, -, hadd⟩ := hadd
    obtain ⟨-, -, heq⟩ := bind_eq_ok.mp hadd
    obtain rfl := Except.ok.inj heq
    intro aggregate haggregate
    rcases List.mem_append.mp haggregate with hold | hnew
    · exact ih aggregate hold
    · obtain rfl := List.mem_singleton.mp hnew
      simpa using (not_or.mp hname).2

theorem underscore_mem_column (key : FieldRef) :
    '_' ∈ key.column.toList := by
  have hunderscore : '_' ∈ (toString "_").toList := List.mem_singleton_self _
  simp [FieldRef.column, columnName, hunderscore]

/-- The row of a group has the key columns of the first row. -/
theorem get?_bucketRow (hbuilt : grouping.IsBuilt) {first row : Row}
    {rest : List Row} (hfirst : grouping.Covers first)
    (h : grouping.bucketRow (first :: rest) = .ok row) {key : FieldRef}
    (hkey : key ∈ grouping.keys) :
    row.get? key.column = first.get? key.column := by
  obtain ⟨value, hvalue⟩ := Option.isSome_iff_exists.mp (hfirst key hkey)
  obtain ⟨computed, hcomputed, heq⟩ := bind_eq_ok.mp h
  obtain rfl := pure_eq_ok.mp heq
  rw [mapM_eq_ok] at hcomputed
  rw [hvalue]
  refine Row.get?_ofColumns ?_ ?_
  · refine List.mem_append_left _ (List.mem_filterMap.mpr ⟨key, hkey, ?_⟩)
    simp [hvalue]
  · intro other hother
    rcases List.mem_append.mp hother with hshown | hnew
    · obtain ⟨same, -, hsame⟩ := List.mem_filterMap.mp hshown
      obtain ⟨found, hfound, hpair⟩ := Option.map_eq_some_iff.mp hsame
      obtain ⟨hcolumn, rfl⟩ := Prod.mk.inj hpair
      rw [hcolumn, List.headD_cons, hvalue] at hfound
      exact (Option.some.inj hfound).symm
    · -- Names of aggregates have no underscore, but columns do.
      obtain ⟨aggregate, haggregate, hentry⟩ :=
        exists_of_forall₂ hcomputed.flip hnew
      obtain ⟨_, -, hpair⟩ := bind_eq_ok.mp hentry
      have hname : aggregate.name = key.column :=
        congrArg Prod.fst (pure_eq_ok.mp hpair)
      refine absurd (underscore_mem_column key) ?_
      exact hname ▸ hbuilt.underscore_not_mem aggregate haggregate

end CampusQuery.Query.Grouping
