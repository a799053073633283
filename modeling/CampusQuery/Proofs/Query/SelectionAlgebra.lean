/-
CampusQuery.Proofs.Query.SelectionAlgebra — conditions as sets of positions.

A condition `Selects` the set of the positions at which it is true, provided
that every record has its fields (`selects_iff`). So AND, OR and NOT become
intersection, union and complement, and a condition that says more selects less
(`subset_of_selects`). Conditions with the same fields and the same truth values
select the same in any dataset, and fail in the same way (`select_congr`).
-/
import Mathlib.Data.Finset.Sort
import CampusQuery.Proofs.Query.Answer

namespace CampusQuery

/-! ## Bounds -/

namespace Numeric.Binary64

variable {x low high : Binary64}

/-- Numbers that compare have places in the order. -/
theorem compare?_eq_some {y : Binary64} {order : Ordering} :
    x.compare? y = some order ↔ ∃ a b, x.orderKey? = some a ∧
      y.orderKey? = some b ∧ compare a b = order := by
  unfold compare?
  cases x.orderKey? <;> cases y.orderKey? <;> simp

def AtMost (low high : Binary64) : Prop := low.less high ∨ low.equals high

theorem atMost_iff : AtMost low high ↔ ∃ a b, low.orderKey? = some a ∧
    high.orderKey? = some b ∧ a ≤ b := by
  simp only [AtMost, less, equals, beq_iff_eq, compare?_eq_some,
    compare_lt_iff_lt, compare_eq_iff_eq, Int.le_iff_lt_or_eq, and_or_left,
    exists_or]

/-- What is above a bound is above every lower one. -/
theorem AtMost.greater (h : AtMost low high) (hx : x.greater high) :
    x.greater low := by
  obtain ⟨a, b, ha, hb, hab⟩ := atMost_iff.mp h
  simp only [Binary64.greater, beq_iff_eq, compare?_eq_some, ha, hb,
    compare_gt_iff_gt, Option.some.injEq] at hx ⊢
  obtain ⟨c, _, hc, rfl, hlt⟩ := hx
  exact ⟨c, a, hc, rfl, Int.lt_of_le_of_lt hab hlt⟩

/-- What is below a bound is below every higher one. -/
theorem AtMost.less (h : AtMost low high) (hx : x.less low) :
    x.less high := by
  obtain ⟨a, b, ha, hb, hab⟩ := atMost_iff.mp h
  simp only [Binary64.less, beq_iff_eq, compare?_eq_some, ha, hb,
    compare_lt_iff_lt, Option.some.injEq] at hx ⊢
  obtain ⟨c, _, hc, rfl, hlt⟩ := hx
  exact ⟨c, b, hc, rfl, Int.lt_of_lt_of_le hlt hab⟩

end Numeric.Binary64

namespace Query

open Numeric Outcome

/-! ## Sets of positions -/

def everywhere (dataset : Dataset) : Finset Nat :=
  Finset.range dataset.records.length

/-- The set has the positions that are selected by a condition. -/
def Selects (dataset : Dataset) (predicate : Predicate) (found : Finset Nat) :
    Prop :=
  select dataset (some predicate) = .ok (found.sort (· ≤ ·))

def HasFieldsOf (dataset : Dataset) (predicate : Predicate) : Prop :=
  ∀ record ∈ dataset.records, ∀ ref ∈ predicate.fields,
    ∃ value, record.field ref.field = .ok value

def isTrueAt (dataset : Dataset) (predicate : Predicate) (position : Nat) :
    Bool :=
  dataset.records[position]?.any predicate.isMetBy

variable {dataset : Dataset} {predicate part : Predicate}
variable {parts : List Predicate} {found : Finset Nat}
variable {founds : List (Finset Nat)} {position : Nat}

theorem mem_everywhere :
    position ∈ everywhere dataset ↔ dataset.records[position]?.isSome := by
  rw [everywhere, Finset.mem_range, isSome_getElem?]

theorem lt_length_of_isTrueAt (h : isTrueAt dataset predicate position) :
    position < dataset.records.length := by
  obtain ⟨record, hrecord, -⟩ := (Option.any_eq_true _ _).mp h
  exact (List.getElem?_eq_some_iff.mp hrecord).1

/-- The records that are kept stand where the condition is true. -/
theorem mem_map_filter_zipIdx :
    position ∈ (dataset.records.zipIdx.filter
      (isKept (some predicate) ·.1)).map (·.2) ↔
        isTrueAt dataset predicate position := by
  rw [isTrueAt]
  cases hrecord : dataset.records[position]? <;>
    simp [List.mem_zipIdx_iff_getElem?, hrecord, isKept]

/-- Their positions come in ascending order. -/
theorem map_filter_zipIdx_eq
    (hfound : ∀ position, position ∈ found ↔
      isTrueAt dataset predicate position) :
    (dataset.records.zipIdx.filter (isKept (some predicate) ·.1)).map (·.2)
      = found.sort (· ≤ ·) := by
  refine List.Pairwise.eq_of_mem_iff (r := (· < ·)) ?_ ?_ fun position => ?_
  · have hsub := (List.filter_sublist (l := dataset.records.zipIdx)
      (p := (isKept (some predicate) ·.1))).map (·.2)
    exact List.Pairwise.sublist hsub (by simpa using List.pairwise_lt_range')
  · exact (Finset.sortedLT_sort found).pairwise
  · rw [mem_map_filter_zipIdx, Finset.mem_sort, hfound]

/-- A condition can be evaluated for all records if and only if they have its
fields. -/
theorem hasFieldsOf_iff :
    HasFieldsOf dataset predicate ↔
      ∀ record ∈ dataset.records,
        keeps (some predicate) record
          = .ok (isKept (some predicate) record) := by
  refine forall₂_congr fun record _ => ⟨fun h => ?_, fun h => ?_⟩
  · exact Predicate.holds_eq_ok.mpr ⟨h, rfl⟩
  · exact (Predicate.holds_eq_ok.mp h).1

/-- Positions are selected if and only if every record has the fields of the
condition and they are those at which it is true. -/
theorem selects_iff (hsize : dataset.records.length ≤ positionLimit) :
    Selects dataset predicate found ↔
      HasFieldsOf dataset predicate ∧
        ∀ position, position ∈ found ↔ isTrueAt dataset predicate position := by
  constructor
  · intro h
    have hkeeps : ∀ record ∈ dataset.records,
        keeps (some predicate) record
          = .ok (isKept (some predicate) record) := by
      intro record hrecord
      obtain ⟨kept, hkept⟩ := exists_keeps_of_positionsFrom h record hrecord
      rw [hkept, isKept_of_keeps hkept]
    refine ⟨hasFieldsOf_iff.mpr hkeeps, fun position => ?_⟩
    rw [← Finset.mem_sort (· ≤ ·), ((positionsFrom_eq_ok_iff hkeeps).mp h).1,
      mem_map_filter_zipIdx]
  · rintro ⟨hfields, hfound⟩
    refine (positionsFrom_eq_ok_iff (hasFieldsOf_iff.mp hfields)).mpr
      ⟨(map_filter_zipIdx_eq hfound).symm, fun position hmem => ?_⟩
    rw [Finset.mem_sort, hfound] at hmem
    exact Nat.lt_of_lt_of_le (lt_length_of_isTrueAt hmem) hsize

/-- Records of the right kind have the fields of this kind. -/
theorem hasFieldsOf_of_kind
    (hkind : ∀ record ∈ dataset.records, record.kind = dataset.kind)
    (hfields : ∀ ref ∈ predicate.fields,
      dataset.kind.fieldType? ref.field ≠ none) :
    HasFieldsOf dataset predicate := by
  intro record hrecord ref href
  rw [Record.exists_field_iff, hkind record hrecord]
  exact hfields ref href

/-- A condition on fields that every record has selects a set. -/
theorem exists_selects (hsize : dataset.records.length ≤ positionLimit)
    (hfields : HasFieldsOf dataset predicate) :
    ∃ found, Selects dataset predicate found := by
  refine ⟨(everywhere dataset).filter fun position =>
    isTrueAt dataset predicate position, (selects_iff hsize).mpr
      ⟨hfields, fun position => ?_⟩⟩
  rw [Finset.mem_filter, everywhere, Finset.mem_range, and_iff_right_iff_imp]
  exact lt_length_of_isTrueAt

/-- A condition that says more selects less. -/
theorem subset_of_selects {weaker : Predicate} {wider : Finset Nat}
    (hsize : dataset.records.length ≤ positionLimit)
    (hweaker : ∀ record, predicate.isMetBy record → weaker.isMetBy record)
    (h : Selects dataset predicate found)
    (hwider : Selects dataset weaker wider) : found ⊆ wider := by
  intro position hmem
  rw [((selects_iff hsize).mp h).2, isTrueAt, Option.any_eq_true] at hmem
  obtain ⟨record, hrecord, hmet⟩ := hmem
  rw [((selects_iff hsize).mp hwider).2, isTrueAt, Option.any_eq_true]
  exact ⟨record, hrecord, hweaker record hmet⟩

/-! ## AND, OR and NOT -/

theorem hasFieldsOf_all :
    HasFieldsOf dataset (.all parts) ↔
      ∀ part ∈ parts, HasFieldsOf dataset part := by
  simp only [HasFieldsOf, Predicate.fields, Predicate.mem_fieldsOfEach]
  constructor
  · intro h part hpart record hrecord ref href
    exact h record hrecord ref ⟨part, hpart, href⟩
  · rintro h record hrecord ref ⟨part, hpart, href⟩
    exact h part hpart record hrecord ref href

/-- If every part selects a set, every record has the fields of all parts. -/
theorem hasFieldsOf_of_forall₂ (hsize : dataset.records.length ≤ positionLimit)
    (h : List.Forall₂ (Selects dataset) parts founds) :
    HasFieldsOf dataset (.all parts) := by
  refine hasFieldsOf_all.mpr fun part hpart => ?_
  obtain ⟨found, -, hfound⟩ := exists_of_forall₂ h hpart
  exact ((selects_iff hsize).mp hfound).1

theorem isTrueAt_all :
    isTrueAt dataset (.all parts) position ↔
      position ∈ everywhere dataset ∧
        ∀ part ∈ parts, isTrueAt dataset part position := by
  rw [mem_everywhere]
  unfold isTrueAt
  cases dataset.records[position]? <;>
    simp [Predicate.isMetBy, Predicate.areMetBy_eq]

theorem isTrueAt_any :
    isTrueAt dataset (.any parts) position ↔
      ∃ part ∈ parts, isTrueAt dataset part position := by
  unfold isTrueAt
  cases dataset.records[position]? <;>
    simp [Predicate.isMetBy, Predicate.isOneMetBy_eq]

theorem isTrueAt_negation :
    isTrueAt dataset (.negation part) position ↔
      position ∈ everywhere dataset ∧ ¬isTrueAt dataset part position := by
  rw [mem_everywhere]
  unfold isTrueAt
  cases dataset.records[position]? <;> simp [Predicate.isMetBy]

/-- AND selects what all its parts select. -/
theorem selects_all (hsize : dataset.records.length ≤ positionLimit)
    (h : List.Forall₂ (Selects dataset) parts founds) :
    Selects dataset (.all parts)
      (founds.foldr (· ∩ ·) (everywhere dataset)) := by
  refine (selects_iff hsize).mpr
    ⟨hasFieldsOf_of_forall₂ hsize h, fun position => ?_⟩
  rw [isTrueAt_all]
  induction h with
  | nil => simp
  | cons hpart _ ih =>
    rw [List.foldr_cons, Finset.mem_inter, ih, List.forall_mem_cons,
      ((selects_iff hsize).mp hpart).2]
    exact and_left_comm

/-- OR selects what one of its parts selects. -/
theorem selects_any (hsize : dataset.records.length ≤ positionLimit)
    (h : List.Forall₂ (Selects dataset) parts founds) :
    Selects dataset (.any parts) (founds.foldr (· ∪ ·) ∅) := by
  refine (selects_iff hsize).mpr
    ⟨hasFieldsOf_of_forall₂ hsize h, fun position => ?_⟩
  rw [isTrueAt_any]
  induction h with
  | nil => simp
  | cons hpart _ ih =>
    simp only [List.mem_cons, exists_eq_or_imp]
    rw [List.foldr_cons, Finset.mem_union, ih,
      ((selects_iff hsize).mp hpart).2]

/-- NOT selects what its part does not select. -/
theorem selects_negation (hsize : dataset.records.length ≤ positionLimit)
    (h : Selects dataset part found) :
    Selects dataset (.negation part) (everywhere dataset \ found) := by
  obtain ⟨hfields, hfound⟩ := (selects_iff hsize).mp h
  refine (selects_iff hsize).mpr ⟨hfields, fun position => ?_⟩
  rw [Finset.mem_sdiff, hfound, isTrueAt_negation]

/-- AND selects less than each of its parts. -/
theorem exists_superset_of_selects_all
    (hsize : dataset.records.length ≤ positionLimit)
    (h : Selects dataset (.all parts) found) (hpart : part ∈ parts) :
    ∃ wider, Selects dataset part wider ∧ found ⊆ wider := by
  have hfields := hasFieldsOf_all.mp ((selects_iff hsize).mp h).1 part hpart
  obtain ⟨wider, hwider⟩ := exists_selects hsize hfields
  refine ⟨wider, hwider, ?_⟩
  refine subset_of_selects hsize (fun record hmet => ?_) h hwider
  rw [Predicate.isMetBy, Predicate.areMetBy_eq, List.all_eq_true] at hmet
  exact hmet part hpart

/-! ## Bounds of comparisons -/

/-- A comparison with a bound that fewer numbers pass selects less. -/
theorem subset_of_selects_compare {op : Comparison} {field : FieldRef}
    {bound strict : Binary64} {wider : Finset Nat}
    (hsize : dataset.records.length ≤ positionLimit)
    (hstrict : ∀ x : Binary64, op.holds x strict → op.holds x bound)
    (h : Selects dataset (.compare op field strict) found)
    (hwider : Selects dataset (.compare op field bound) wider) :
    found ⊆ wider := by
  refine subset_of_selects hsize (fun record hmet => ?_) h hwider
  rw [Predicate.isMetBy, Option.any_eq_true] at hmet ⊢
  obtain ⟨value, hvalue, hholds⟩ := hmet
  exact ⟨value, hvalue, hstrict _ hholds⟩

/-! ## Conditions that say the same -/

/-- Conditions that say the same of the same fields select the same, or fail in
the same way. -/
theorem select_congr {other : Predicate}
    (hfields : predicate.fields = other.fields)
    (hmet : ∀ record, predicate.isMetBy record = other.isMetBy record) :
    select dataset (some predicate) = select dataset (some other) := by
  have hkeeps : ∀ record,
      keeps (some predicate) record = keeps (some other) record := by
    intro record
    change predicate.holds record = other.holds record
    rw [Predicate.holds_eq, Predicate.holds_eq, hfields, hmet]
  unfold select
  generalize 0 = start
  induction dataset.records generalizing start with
  | nil => rfl
  | cons record rest ih => simp only [positionsFrom, hkeeps, ih]

theorem select_all_singleton :
    select dataset (some (.all [part])) = select dataset (some part) := by
  refine select_congr ?_ fun record => ?_
  · simp [Predicate.fields, Predicate.fieldsOfEach]
  · simp [Predicate.isMetBy, Predicate.areMetBy_eq]

theorem select_any_singleton :
    select dataset (some (.any [part])) = select dataset (some part) := by
  refine select_congr ?_ fun record => ?_
  · simp [Predicate.fields, Predicate.fieldsOfEach]
  · simp [Predicate.isMetBy, Predicate.isOneMetBy_eq]

theorem select_negation_negation :
    select dataset (some (.negation (.negation part)))
      = select dataset (some part) := by
  refine select_congr rfl fun record => ?_
  simp [Predicate.isMetBy]

/-- Not all parts are true if one is not. -/
theorem select_negation_all :
    select dataset (some (.negation (.all parts)))
      = select dataset (some (.any (parts.map .negation))) := by
  refine select_congr ?_ fun record => ?_
  · simp [Predicate.fields, Predicate.fieldsOfEach_map_negation]
  · rw [Predicate.isMetBy, Predicate.isMetBy, Predicate.isMetBy,
      Predicate.areMetBy_eq, Predicate.isOneMetBy_eq, List.not_all_eq_any_not,
      List.any_map]
    rfl

/-- No part is true if all are not. -/
theorem select_negation_any :
    select dataset (some (.negation (.any parts)))
      = select dataset (some (.all (parts.map .negation))) := by
  refine select_congr ?_ fun record => ?_
  · simp [Predicate.fields, Predicate.fieldsOfEach_map_negation]
  · rw [Predicate.isMetBy, Predicate.isMetBy, Predicate.isMetBy,
      Predicate.areMetBy_eq, Predicate.isOneMetBy_eq, List.not_any_eq_all_not,
      List.all_map]
    rfl

/-! ## The algebra of selections -/

/-- A condition on fields of the kind of a dataset selects a set of positions.
AND selects the intersection of what its parts select, and everything if it has
none; OR selects the union, and nothing if it has no parts; NOT selects the
complement. So AND selects less than each of its parts, AND and OR of one part
and NOT of NOT select what the part does, and NOT of AND and of OR obey De
Morgan. Comparing with a higher bound by GT or with a lower one by LT never
selects anything more. -/
theorem select_boolean_laws (dataset : Dataset)
    (hsize : dataset.records.length ≤ Nat.pow 2 32) :
    (∀ predicate : Predicate,
      (∀ record ∈ dataset.records, record.kind = dataset.kind) →
      (∀ ref ∈ predicate.fields,
        dataset.kind.fieldType? ref.field ≠ none) →
      ∃ found, Selects dataset predicate found) ∧
    (∀ parts founds, List.Forall₂ (Selects dataset) parts founds →
      Selects dataset (.all parts)
        (founds.foldr (· ∩ ·) (everywhere dataset)) ∧
      Selects dataset (.any parts) (founds.foldr (· ∪ ·) ∅)) ∧
    (∀ part found, Selects dataset part found →
      Selects dataset (.negation part) (everywhere dataset \ found)) ∧
    (∀ parts found, Selects dataset (.all parts) found → ∀ part ∈ parts,
      ∃ wider, Selects dataset part wider ∧ found ⊆ wider) ∧
    (∀ part,
      select dataset (some (.all [part])) = select dataset (some part) ∧
      select dataset (some (.any [part])) = select dataset (some part) ∧
      select dataset (some (.negation (.negation part)))
        = select dataset (some part)) ∧
    (∀ parts,
      select dataset (some (.negation (.all parts)))
        = select dataset (some (.any (parts.map .negation))) ∧
      select dataset (some (.negation (.any parts)))
        = select dataset (some (.all (parts.map .negation)))) ∧
    ∀ field low high, Binary64.AtMost low high → ∀ found wider,
      (Selects dataset (.compare .greater field high) found →
        Selects dataset (.compare .greater field low) wider →
          found ⊆ wider) ∧
      (Selects dataset (.compare .less field low) found →
        Selects dataset (.compare .less field high) wider →
          found ⊆ wider) := by
  refine ⟨?_, ?_, ?_, ?_, ?_, ?_, ?_⟩
  · intro predicate hkind hfields
    exact exists_selects hsize (hasFieldsOf_of_kind hkind hfields)
  · intro parts founds h
    exact ⟨selects_all hsize h, selects_any hsize h⟩
  · intro part found h
    exact selects_negation hsize h
  · intro parts found h part hpart
    exact exists_superset_of_selects_all hsize h hpart
  · intro part
    exact ⟨select_all_singleton, select_any_singleton,
      select_negation_negation⟩
  · intro parts
    exact ⟨select_negation_all, select_negation_any⟩
  · intro field low high hbounds found wider
    exact ⟨subset_of_selects_compare hsize fun _ => hbounds.greater,
      subset_of_selects_compare hsize fun _ => hbounds.less⟩

def averageAbove (bound : Int) : Predicate :=
  .compare .greater ⟨"courses", "avg", .numeric⟩ (.ofInt bound)

/-- Three sections have an average above 60, and one of these above 80. With AND
and NOT the other two are selected, and with OR and NOT all but these. -/
theorem select_boolean_laws_offered :
    Selects offered (averageAbove 60) {0, 2, 3} ∧
    Selects offered (averageAbove 80) {2} ∧
    Selects offered (.all [averageAbove 60, .negation (averageAbove 80)])
      {0, 3} ∧
    Selects offered (.any [averageAbove 80, .negation (averageAbove 60)])
      {1, 2} ∧
    ∃ found ⊆ {0, 2, 3}, Selects offered (averageAbove 70) found := by
  obtain ⟨hexists, hparts, hnegation, -, -, -, hbounds⟩ :=
    select_boolean_laws offered (by decide)
  have hlow : Selects offered (averageAbove 60) {0, 2, 3} := by
    have hsort : ({0, 2, 3} : Finset Nat).sort (· ≤ ·) = [0, 2, 3] := by
      simp [Finset.sort_insert]
    rw [Selects, hsort, ← toOption_eq_some]
    decide +kernel
  have hhigh : Selects offered (averageAbove 80) {2} := by
    rw [Selects, Finset.sort_singleton, ← toOption_eq_some]
    decide +kernel
  have hall := (hparts _ _ (.cons hlow (.cons (hnegation _ _ hhigh) .nil))).1
  have hany := (hparts _ _ (.cons hhigh (.cons (hnegation _ _ hlow) .nil))).2
  have hfields : ∀ ref ∈ (averageAbove 70).fields,
      offered.kind.fieldType? ref.field ≠ none := by
    rw [averageAbove, Predicate.fields]
    decide
  obtain ⟨found, hfound⟩ := hexists (averageAbove 70) (by decide) hfields
  have hbetween : Binary64.AtMost (.ofInt 60) (.ofInt 70) := by
    left
    decide +kernel
  refine ⟨hlow, hhigh, ?_, ?_, found, ?_, hfound⟩
  · have hset : {0, 2, 3} ∩ (everywhere offered \ {2} ∩ everywhere offered)
        = ({0, 3} : Finset Nat) := by decide
    exact hset ▸ hall
  · have hset : {2} ∪ (everywhere offered \ {0, 2, 3} ∪ ∅)
        = ({1, 2} : Finset Nat) := by decide
    exact hset ▸ hany
  · exact (hbounds _ _ _ hbetween found _).1 hfound hlow

end Query

end CampusQuery
