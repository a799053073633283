/-
CampusQuery.Proofs.Query.Keyword — a word names what is written so.

One statement for each family of words: reading a word and writing what it
names are inverse to each other. `AggregateOp.accepts_iff` says which
aggregates a field can be used in.
-/
import CampusQuery.Query.Keyword

namespace CampusQuery.Query

theorem Comparison.ofName?_eq_some {word : String} {op : Comparison} :
    Comparison.ofName? word = some op ↔ word = op.name := by
  constructor
  · intro h
    unfold ofName? at h
    split at h <;> cases h <;> rfl
  · rintro rfl
    cases op <;> rfl

theorem FilterWord.ofName?_eq_some {word : String} {filter : FilterWord} :
    FilterWord.ofName? word = some filter ↔ word = filter.name := by
  constructor
  · intro h
    unfold ofName? at h
    split at h
    case h_5 =>
      obtain ⟨op, hop, rfl⟩ := Option.map_eq_some_iff.mp h
      exact Comparison.ofName?_eq_some.mp hop
    all_goals cases h; rfl
  · rintro rfl
    cases filter with
    | comparison op => cases op <;> rfl
    | _ => rfl

theorem AggregateOp.ofName?_eq_some {word : String} {op : AggregateOp} :
    AggregateOp.ofName? word = some op ↔ word = op.name := by
  constructor
  · intro h
    unfold ofName? at h
    split at h <;> cases h <;> rfl
  · rintro rfl
    cases op <;> rfl

theorem AggregateOp.accepts_iff {op : AggregateOp} {type : FieldType} :
    op.accepts type ↔ op = .count ∨ type = .numeric := by
  simp [accepts]

theorem Direction.ofName?_eq_some {word : String} {direction : Direction} :
    Direction.ofName? word = some direction ↔ word = direction.name := by
  constructor
  · intro h
    unfold ofName? at h
    split at h <;> cases h <;> rfl
  · rintro rfl
    cases direction <;> rfl

end CampusQuery.Query
