/-
CampusQuery.Proofs.Query.Partition — grouping divides rows and sums up each
group.

`gather_cons` is the first-seen order: the first item's text makes the first
group, and the items with other texts are gathered behind it. It puts the
first rows of the groups in order (`pairwise_startsBefore_blocks`).
`bucketRow_eq_error` says at which aggregate a group fails, and
`summarizes_of_bucketRow` what its row is otherwise. `apply_partitions` has
all of it for every list of rows with the key columns.
-/
import CampusQuery.Proofs.Query.Columns

namespace CampusQuery.Query.Grouping

open Numeric Outcome

/-! ## The order of groups -/

section

variable {α : Type} (text : α → String)

/-- The first item starts the first group, and the groups behind it are those
of the items with other texts. -/
theorem gather_cons (x : α) (xs : List α) :
    gather ((x :: xs).map text) (x :: xs) =
      (x :: xs.filter (text · == text x)) ::
        gather ((xs.filter fun y => !(text y == text x)).map text)
          (xs.filter fun y => !(text y == text x)) := by
  rw [gather_texts, gather_texts, List.map_cons, List.eraseDups_cons,
    List.map_cons, List.filter_cons_of_pos (by simp), List.filter_map]
  refine congrArg (List.cons _) (List.map_congr_left fun t ht => ?_)
  obtain ⟨y, hy, rfl⟩ := List.mem_map.mp (List.mem_eraseDups.mp ht)
  have hne : text y ≠ text x := by
    simpa using (List.mem_filter.mp hy).2
  rw [List.filter_cons_of_neg (by simpa using hne.symm), List.filter_filter]
  refine List.filter_congr fun z _ => ?_
  by_cases hz : text z = text y <;> simp [hz, hne]

end

/-- The block has a first row, which comes before all rows of the other. -/
def StartsBefore {n : Nat} (block other : List (Fin n)) : Prop :=
  ∃ i, block.head? = some i ∧ ∀ j ∈ other, i < j

theorem pairwise_startsBefore_gather {n : Nat} (text : Fin n → String) :
    ∀ {positions : List (Fin n)}, positions.Pairwise (· < ·) →
      (gather (positions.map text) positions).Pairwise StartsBefore
  | [], _ => .nil
  | i :: rest, h => by
    obtain ⟨hfirst, hrest⟩ := List.pairwise_cons.mp h
    rw [gather_cons, List.pairwise_cons]
    refine ⟨fun other hother => ⟨i, rfl, fun j hj => hfirst j ?_⟩,
      pairwise_startsBefore_gather text (hrest.filter _)⟩
    obtain ⟨k, -, rfl⟩ := (mem_gather text _).mp hother
    exact (List.mem_filter.mp (List.mem_filter.mp hj).1).1
termination_by positions => positions.length
decreasing_by exact Nat.lt_succ_of_le (List.length_filter_le _ _)

variable {grouping : Grouping} {rows : List Row}

/-- Groups come in the order of their first rows. -/
theorem pairwise_startsBefore_blocks :
    (grouping.blocks rows).Pairwise StartsBefore :=
  pairwise_startsBefore_gather _ (List.pairwise_lt_finRange _)

/-! ## The row of a group -/

/-- Groupings that can be built keep the names apart. -/
theorem IsBuilt.separates (h : grouping.IsBuilt) : grouping.Separates := by
  refine ⟨?_, h.underscore_not_mem⟩
  induction h with
  | empty => exact List.nodup_nil
  | setKeys _ hset ih =>
    rw [Grouping.setKeys, ite_refuse_eq_ok] at hset
    obtain rfl := Except.ok.inj hset.2
    exact ih
  | addAggregate _ hadd ih =>
    rw [Grouping.addAggregate, ite_refuse_eq_ok, ite_refuse_eq_ok] at hadd
    obtain ⟨-, hnew, hadd⟩ := hadd
    obtain ⟨-, -, heq⟩ := bind_eq_ok.mp hadd
    obtain rfl := Except.ok.inj heq
    rw [List.map_append, List.map_singleton, List.nodup_append]
    refine ⟨ih, List.nodup_singleton _, ?_⟩
    simpa using hnew

/-- The row sums up the group: it has the key columns as in the first row of
the group, and behind them the aggregates over all its rows. -/
structure Summarizes (grouping : Grouping) (bucket : List Row) (row : Row) :
    Prop where
  names : row.names = (grouping.keys.map FieldRef.column).eraseDups
    ++ grouping.aggregates.map (·.name)
  keys : ∀ key ∈ grouping.keys, ∀ first, bucket.head? = some first →
    row.get? key.column = first.get? key.column
  aggregates : ∀ aggregate ∈ grouping.aggregates, ∃ value,
    aggregate.compute bucket = .ok value ∧
      row.get? aggregate.name = some value

variable {first row : Row} {rest : List Row}

/-- The row of a group has each aggregate over the group. -/
theorem get?_aggregate (hseparates : grouping.Separates)
    (h : grouping.bucketRow (first :: rest) = .ok row)
    {aggregate : Aggregate} (haggregate : aggregate ∈ grouping.aggregates) :
    ∃ value, aggregate.compute (first :: rest) = .ok value ∧
      row.get? aggregate.name = some value := by
  obtain ⟨computed, hcomputed, heq⟩ := bind_eq_ok.mp h
  obtain rfl := pure_eq_ok.mp heq
  have hentries := mapM_eq_ok.mp hcomputed
  obtain ⟨entry, hentry, hmade⟩ := exists_of_forall₂ hentries haggregate
  obtain ⟨value, hvalue, hpair⟩ := bind_eq_ok.mp hmade
  obtain rfl := pure_eq_ok.mp hpair
  refine ⟨value, hvalue, Row.get?_ofColumns ?_ ?_⟩
  · exact List.mem_append_right _ hentry
  · intro other hother
    rcases List.mem_append.mp hother with hshown | hnew
    · obtain ⟨key, -, hkey⟩ := List.mem_filterMap.mp hshown
      obtain ⟨_, -, hpair⟩ := Option.map_eq_some_iff.mp hkey
      have hname : aggregate.name = key.column :=
        (congrArg Prod.fst hpair).symm
      exact absurd (hname ▸ List.mem_map_of_mem haggregate)
        (hseparates.column_not_mem key)
    · obtain ⟨same, hsame, hmade⟩ := exists_of_forall₂ hentries.flip hnew
      obtain ⟨found, hfound, hpair⟩ := bind_eq_ok.mp hmade
      obtain ⟨hname, rfl⟩ := Prod.mk.inj (pure_eq_ok.mp hpair)
      obtain rfl := List.inj_on_of_nodup_map hseparates.nodup hsame
        haggregate hname
      exact Except.ok.inj (hfound.symm.trans hvalue)

theorem summarizes_of_bucketRow (hbuilt : grouping.IsBuilt)
    (hfirst : grouping.Covers first)
    (h : grouping.bucketRow (first :: rest) = .ok row) :
    grouping.Summarizes (first :: rest) row where
  names := names_bucketRow hbuilt.separates hfirst h
  keys := by
    intro key hkey same hsame
    obtain rfl := Option.some.inj hsame
    exact get?_bucketRow hbuilt hfirst h hkey
  aggregates := fun _ haggregate =>
    get?_aggregate hbuilt.separates h haggregate

/-! ## Failing -/

def Computes (grouping : Grouping) (bucket : List Row) : Prop :=
  ∀ aggregate ∈ grouping.aggregates, ∃ value,
    aggregate.compute bucket = .ok value

/-- The first aggregate that cannot be computed over the group, with what is
then reported. -/
def FailsAt (grouping : Grouping) (bucket : List Row) (aggregate : Aggregate)
    (e : Error) : Prop :=
  ∃ before after, grouping.aggregates = before ++ aggregate :: after ∧
    (∀ earlier ∈ before, ∃ value, earlier.compute bucket = .ok value) ∧
    aggregate.compute bucket = .error e

/-- What is reported for the first group over which some aggregate cannot be
computed: the failure of the first such aggregate. -/
def FirstFailure (grouping : Grouping) (buckets : List (List Row))
    (e : Error) : Prop :=
  ∃ before bucket after, buckets = before ++ bucket :: after ∧
    (∀ earlier ∈ before, grouping.Computes earlier) ∧
    ∃ aggregate, grouping.FailsAt bucket aggregate e

/-- A group has a row if every aggregate can be computed over it. -/
theorem exists_bucketRow_iff {bucket : List Row} :
    (∃ row, grouping.bucketRow bucket = .ok row) ↔
      grouping.Computes bucket := by
  constructor
  · rintro ⟨row, h⟩ aggregate haggregate
    obtain ⟨computed, hcomputed, -⟩ := bind_eq_ok.mp h
    obtain ⟨_, -, hmade⟩ :=
      exists_of_forall₂ (mapM_eq_ok.mp hcomputed) haggregate
    obtain ⟨value, hvalue, -⟩ := bind_eq_ok.mp hmade
    exact ⟨value, hvalue⟩
  · intro h
    obtain ⟨computed, hcomputed⟩ := exists_forall₂
      (r := fun (aggregate : Aggregate) entry =>
        (do return (aggregate.name, ← aggregate.compute bucket))
          = Except.ok entry)
      fun aggregate haggregate => by
        obtain ⟨value, hvalue⟩ := h aggregate haggregate
        exact ⟨(aggregate.name, value), bind_eq_ok.mpr ⟨value, hvalue, rfl⟩⟩
    exact ⟨_, bind_eq_ok.mpr ⟨computed, mapM_eq_ok.mpr hcomputed, rfl⟩⟩

/-- Otherwise its first such aggregate is reported. -/
theorem bucketRow_eq_error {bucket : List Row} {e : Error} :
    grouping.bucketRow bucket = .error e ↔
      ∃ aggregate, grouping.FailsAt bucket aggregate e := by
  have hmade : ∀ aggregate : Aggregate,
      (∃ entry : String × Value,
        (do return (aggregate.name, ← aggregate.compute bucket))
          = Except.ok entry) ↔
        ∃ value, aggregate.compute bucket = .ok value := by
    intro aggregate
    cases aggregate.compute bucket <;> simp [bind, Except.bind]
  have hfailed : ∀ aggregate : Aggregate,
      (do return (aggregate.name, ← aggregate.compute bucket) :
        Outcome (String × Value)) = .error e ↔
        aggregate.compute bucket = .error e := by
    intro aggregate
    cases aggregate.compute bucket <;> simp [bind, Except.bind, pure, Except.pure]
  rw [bucketRow, bind_eq_error, mapM_eq_error]
  simp only [hmade, hfailed]
  constructor
  · rintro (⟨before, aggregate, after, hsplit, hbefore, he⟩ | ⟨_, -, h⟩)
    · exact ⟨aggregate, before, after, hsplit, hbefore, he⟩
    · cases h
  · rintro ⟨aggregate, before, after, hsplit, hbefore, he⟩
    exact .inl ⟨before, aggregate, after, hsplit, hbefore, he⟩

/-! ## All groups -/

/-- Grouping makes the rows of the groups. -/
theorem apply_eq {blocks : List (List (Fin rows.length))}
    (hgroups : grouping.Groups rows blocks) :
    grouping.apply rows =
      (blocks.map (·.map rows.get)).mapM grouping.bucketRow := by
  unfold apply
  rw [hgroups.buckets]
  rfl

/-- Each of them sums up its group. -/
theorem forall₂_summarizes {blocks : List (List (Fin rows.length))}
    (hbuilt : grouping.IsBuilt) (hrows : ∀ row ∈ rows, grouping.Covers row)
    (hgroups : grouping.Groups rows blocks) {results : List Row}
    (h : grouping.apply rows = .ok results) :
    List.Forall₂ grouping.Summarizes (blocks.map (·.map rows.get))
      results := by
  rw [apply_eq hgroups, mapM_eq_ok, List.forall₂_iff_zip] at h
  refine List.forall₂_iff_zip.mpr ⟨h.1, ?_⟩
  intro bucket result hpair
  have hmade := h.2 hpair
  obtain ⟨hne, hmem⟩ := hgroups.of_mem (List.of_mem_zip hpair).1
  obtain ⟨first, rest, rfl⟩ := List.exists_cons_of_ne_nil hne
  have hcover := hrows first (hmem first List.mem_cons_self)
  exact summarizes_of_bucketRow hbuilt hcover hmade

/-- Grouping fails with the first failure of its groups. -/
theorem apply_eq_error {blocks : List (List (Fin rows.length))}
    (hgroups : grouping.Groups rows blocks) {e : Error} :
    grouping.apply rows = .error e ↔
      grouping.FirstFailure (blocks.map (·.map rows.get)) e := by
  rw [apply_eq hgroups, mapM_eq_error]
  simp only [exists_bucketRow_iff, bucketRow_eq_error]
  rfl

/-- It fails if and only if some aggregate does for some group. -/
theorem exists_apply_eq_error {blocks : List (List (Fin rows.length))}
    (hgroups : grouping.Groups rows blocks) :
    (∃ e, grouping.apply rows = .error e) ↔
      ∃ block ∈ blocks, ∃ aggregate ∈ grouping.aggregates, ∃ e,
        aggregate.compute (block.map rows.get) = .error e := by
  constructor
  · rintro ⟨e, h⟩
    obtain ⟨before, bucket, after, hsplit, -, aggregate, front, back, hmem, -,
      hfails⟩ := (apply_eq_error hgroups).mp h
    have hbucket : bucket ∈ blocks.map (·.map rows.get) := by
      simp [hsplit]
    obtain ⟨block, hblock, rfl⟩ := List.mem_map.mp hbucket
    exact ⟨block, hblock, aggregate, by simp [hmem], e, hfails⟩
  · rintro ⟨block, hblock, aggregate, haggregate, e, hfails⟩
    cases h : grouping.apply rows with
    | error e => exact ⟨e, rfl⟩
    | ok results =>
      rw [apply_eq hgroups, mapM_eq_ok] at h
      obtain ⟨row, -, hrow⟩ :=
        exists_of_forall₂ h (List.mem_map_of_mem hblock)
      obtain ⟨value, hvalue⟩ :=
        exists_bucketRow_iff.mp ⟨row, hrow⟩ aggregate haggregate
      cases hfails.symm.trans hvalue

/-- The blocks divide the positions of the rows: two of them are together
exactly if the texts of their key columns are the same when written one after
the other, and the block that is seen first comes first. -/
structure Divides (grouping : Grouping) (rows : List Row)
    (blocks : List (List (Fin rows.length))) : Prop
    extends grouping.Groups rows blocks where
  together : ∀ i j, Together blocks i j ↔
    grouping.joined (rows.get i) = grouping.joined (rows.get j)
  first_seen : blocks.Pairwise StartsBefore

/-- Rows that have all key columns are divided into groups. The result has one
row for each of them, in their order, that sums it up. There is none if and
only if some aggregate cannot be computed over some group, and then the first
such failure is reported. -/
theorem apply_partitions (hbuilt : grouping.IsBuilt)
    (hrows : ∀ row ∈ rows, grouping.Covers row) :
    ∃ blocks, grouping.Divides rows blocks ∧
      (∀ results, grouping.apply rows = .ok results →
        List.Forall₂ grouping.Summarizes (blocks.map (·.map rows.get))
          results) ∧
      ((∃ e, grouping.apply rows = .error e) ↔
        ∃ block ∈ blocks, ∃ aggregate ∈ grouping.aggregates, ∃ e,
          aggregate.compute (block.map rows.get) = .error e) ∧
      ∀ e, grouping.apply rows = .error e ↔
        grouping.FirstFailure (blocks.map (·.map rows.get)) e := by
  have hgroups := groups_blocks hrows
  have hdivides : grouping.Divides rows (grouping.blocks rows) :=
    ⟨hgroups, fun _ _ => together_blocks, pairwise_startsBefore_blocks⟩
  refine ⟨_, hdivides, fun results hresults => ?_,
    exists_apply_eq_error hgroups, fun e => apply_eq_error hgroups⟩
  exact forall₂_summarizes hbuilt hrows hgroups hresults

def byDepartment : Grouping where
  keys := [⟨"courses", "dept", .text⟩]
  aggregates := [⟨"count", .count, ⟨"courses", "avg", .numeric⟩⟩,
    ⟨"total", .sum, ⟨"courses", "avg", .numeric⟩⟩]

def averageRows (sections : List (String × Binary64)) : List Row :=
  sections.map fun (dept, avg) =>
    .ofColumns [("courses_dept", .text dept), ("courses_avg", .number avg)]

/-- Three sections of two departments make two rows. A department whose
averages have no sum is reported. -/
theorem apply_partitions_byDepartment :
    (∃ blocks,
      byDepartment.Divides
        (averageRows [("cpsc", .ofInt 80), ("math", .ofInt 70),
          ("cpsc", .ofInt 90)]) blocks ∧
      List.Forall₂ byDepartment.Summarizes
        (blocks.map (·.map (List.get _)))
        [.ofColumns [("courses_dept", .text "cpsc"),
          ("count", .number (.ofInt 2)), ("total", .number (.ofInt 170))],
         .ofColumns [("courses_dept", .text "math"),
          ("count", .number (.ofInt 1)), ("total", .number (.ofInt 70))]]) ∧
    ∃ blocks,
      byDepartment.Divides
        (averageRows [("cpsc", .ofInt 80), ("math", .nan)]) blocks ∧
      byDepartment.FirstFailure (blocks.map (·.map (List.get _)))
        (.invalid (.run (.notFinite .nan))) := by
  have hkeys : empty.setKeys byDepartment.keys
      = .ok ⟨byDepartment.keys, []⟩ := rfl
  have hcount : addAggregate ⟨byDepartment.keys, []⟩ "count" .count
      ⟨"courses", "avg", .numeric⟩
      = .ok ⟨byDepartment.keys, byDepartment.aggregates.take 1⟩ := by decide
  have htotal : addAggregate
      ⟨byDepartment.keys, byDepartment.aggregates.take 1⟩ "total" .sum
      ⟨"courses", "avg", .numeric⟩ = .ok byDepartment := by decide
  have hbuilt : byDepartment.IsBuilt :=
    .addAggregate (.addAggregate (.setKeys .empty hkeys) hcount) htotal
  constructor
  · obtain ⟨blocks, hdivides, hresults, -⟩ := @apply_partitions byDepartment
      (averageRows [("cpsc", .ofInt 80), ("math", .ofInt 70),
          ("cpsc", .ofInt 90)]) hbuilt (by decide)
    exact ⟨blocks, hdivides, hresults _ (by decide +kernel)⟩
  · obtain ⟨blocks, hdivides, -, -, herror⟩ := @apply_partitions byDepartment
      (averageRows [("cpsc", .ofInt 80), ("math", .nan)]) hbuilt (by decide)
    exact ⟨blocks, hdivides, (herror _).mp (by decide +kernel)⟩

end CampusQuery.Query.Grouping
