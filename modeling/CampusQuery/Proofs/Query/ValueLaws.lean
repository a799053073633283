/-
CampusQuery.Proofs.Query.ValueLaws — where values are compared consistently.

Sorting relies on an order, counting distinct values on an equality and on
hashes that go with it. `LawsOn` collects what they take for granted of the
values at hand. Most of it holds of all values: the order of two of them is
turned round with them, it goes over to a third one where values really differ
(`order_lt_trans`), and equal values are hashed as one. The rest fails at "no
number", which is not even equal to itself and level with every number, and
nowhere else: `lawsOn_iff`.
-/
import CampusQuery.Proofs.Query.Distinct
import CampusQuery.Proofs.Query.Ordering

namespace CampusQuery.Value

open Numeric

/-- The laws of equality, order and hashing for the values of some
collection. -/
structure LawsOn (among : Value → Prop) : Prop where
  refl : ∀ a, among a → a.equals a
  swap : ∀ a b, among a → among b → b.order a = (a.order b).swap
  lt_trans : ∀ a b c, among a → among b → among c →
    a.order b = .lt → b.order c = .lt → a.order c = .lt
  eq_trans : ∀ a b c, among a → among b → among c →
    a.order b = .eq → b.order c = .eq → a.order c = .eq
  gt_trans : ∀ a b c, among a → among b → among c →
    a.order b = .gt → b.order c = .gt → a.order c = .gt
  order_eq : ∀ a b, among a → among b → (a.order b = .eq ↔ a.equals b)
  hashed : ∀ a b, among a → among b → a.equals b → a.hashed = b.hashed

/-! ## Laws of all values -/

/-- Only a value that has a place in the order comes behind another one: "no
number" is level with all numbers and in front of all texts. -/
theorem isOrdered_of_order_lt {a b : Value} (h : a.order b = .lt) :
    b.isOrdered := by
  rw [isOrdered_iff]
  rintro rfl
  cases a with
  | text s => cases h
  | number x => cases x <;> cases h

theorem order_lt_trans {a b c : Value} (hab : a.order b = .lt)
    (hbc : b.order c = .lt) : a.order c = .lt := by
  have hle : (a.order c).isLE :=
    order_isLE_trans (isOrdered_of_order_lt hab) (by simp [hab]) (by simp [hbc])
  cases hac : a.order c with
  | lt => rfl
  | gt => simp [hac] at hle
  | eq =>
    -- Then `c` would not be behind `a`, so `b` would not be behind `a` either.
    have hca : (c.order a).isLE := by simp [order_swap c a, hac]
    have hba : (b.order a).isLE :=
      order_isLE_trans (isOrdered_of_order_lt hbc) (by simp [hbc]) hca
    simp [order_swap b a, hab] at hba

theorem order_gt_trans {a b c : Value} (hab : a.order b = .gt)
    (hbc : b.order c = .gt) : a.order c = .gt := by
  have hba : b.order a = .lt := by simp [order_swap b a, hab]
  have hcb : c.order b = .lt := by simp [order_swap c b, hbc]
  rw [order_swap, order_lt_trans hcb hba]
  rfl

/-! ## Laws of values in order -/

theorem equals_self_iff {a : Value} : a.equals a ↔ a ≠ .number .nan := by
  cases a with
  | text s => simp [equals]
  | number x =>
    cases x with
    | nan => simp [equals, Binary64.equals, Binary64.compare?, Binary64.orderKey?]
    | signed negative m => simp [equals, Binary64.equals_signed]

theorem order_eq_trans {a b c : Value} (hb : b.isOrdered)
    (hab : a.order b = .eq) (hbc : b.order c = .eq) : a.order c = .eq := by
  have hac : (a.order c).isLE :=
    order_isLE_trans hb (by simp [hab]) (by simp [hbc])
  have hca : (c.order a).isLE := order_isLE_trans hb
    (by simp [order_swap c b, hbc]) (by simp [order_swap b a, hab])
  rw [order_swap c a] at hca
  cases h : a.order c <;> simp [h] at hac hca ⊢

/-- The laws hold of some values exactly if "no number" is none of them. The
order of two values and the order of three that really differ are kept by all
values, and so is hashing equal values as one. -/
theorem lawsOn_iff (among : Value → Prop) :
    (LawsOn among ↔ ¬among (.number .nan)) ∧
    ∀ a b c : Value, b.order a = (a.order b).swap ∧
      (a.order b = .lt → b.order c = .lt → a.order c = .lt) ∧
      (a.order b = .gt → b.order c = .gt → a.order c = .gt) ∧
      (a.equals b → a.hashed = b.hashed) := by
  refine ⟨⟨fun h hnan => ?_, fun h => ?_⟩, fun a b _ =>
    ⟨order_swap b a, order_lt_trans, order_gt_trans, hashed_eq_of_equals⟩⟩
  · exact equals_self_iff.mp (h.refl _ hnan) rfl
  · have hordered : ∀ a, among a → a.isOrdered := by
      intro a ha
      rw [isOrdered_iff]
      rintro rfl
      exact h ha
    exact {
      refl := fun a ha => equals_self_iff.mpr (isOrdered_iff.mp (hordered a ha))
      swap := fun a b _ _ => order_swap b a
      lt_trans := fun _ _ _ _ _ _ => order_lt_trans
      eq_trans := fun _ b _ _ hb _ => order_eq_trans (hordered b hb)
      gt_trans := fun _ _ _ _ _ _ => order_gt_trans
      order_eq := fun a b ha hb => order_eq_eq_iff (hordered a ha) (hordered b hb)
      hashed := fun _ _ _ _ => hashed_eq_of_equals }

/-- "No number" is not equal to itself, although it is level with itself. It is
level with one and with zero as well, and these are not. -/
theorem not_lawsOn_all :
    ¬LawsOn (fun _ => True) ∧
    (number .nan).equals (.number .nan) = false ∧
    (number .nan).order (.number .nan) = .eq ∧
    (number (.ofInt 1)).order (.number .nan) = .eq ∧
    (number .nan).order (.number (.ofInt 0)) = .eq ∧
    (number (.ofInt 1)).order (.number (.ofInt 0)) = .gt := by
  refine ⟨fun h => ?_, rfl, rfl, rfl, rfl, by decide +kernel⟩
  exact equals_self_iff.mp (h.refl (.number .nan) trivial) rfl

end CampusQuery.Value
