/-
CampusQuery.Proofs.Outcome — when requests succeed, and how they fail.

`bind_eq_ok` takes a chain of steps apart, and `mapM_eq_ok` turns a step
that is done for each member of a list into a relation between two lists. `Ends`
says what a request gives if it succeeds and which errors it has if it fails,
`OnlyRefuses` that it can fail by a refusal only; each of them holds of a chain
if it holds of every step.
-/
import Mathlib.Data.List.Forall2
import CampusQuery.Error.Basic

namespace CampusQuery.Outcome

variable {ε α β : Type}

/-! ## Related lists -/

/-- Every member of a list is related to one of the other list. -/
theorem exists_of_forall₂ {r : α → β → Prop} {xs : List α} {ys : List β}
    (h : List.Forall₂ r xs ys) {x : α} (hx : x ∈ xs) : ∃ y ∈ ys, r x y := by
  induction h with
  | nil => cases hx
  | cons hxy _ ih =>
    rcases List.mem_cons.mp hx with rfl | hrest
    · exact ⟨_, List.mem_cons_self, hxy⟩
    · obtain ⟨y, hy, hr⟩ := ih hrest
      exact ⟨y, List.mem_cons_of_mem _ hy, hr⟩

/-- What is related to something, member by member, is related as a list. -/
theorem exists_forall₂ {r : α → β → Prop} :
    ∀ {xs : List α}, (∀ x ∈ xs, ∃ y, r x y) → ∃ ys, List.Forall₂ r xs ys
  | [], _ => ⟨[], .nil⟩
  | x :: xs, h => by
    rw [List.forall_mem_cons] at h
    obtain ⟨⟨y, hy⟩, hrest⟩ := h
    obtain ⟨ys, hys⟩ := exists_forall₂ hrest
    exact ⟨y :: ys, .cons hy hys⟩

/-- Two relations between the same lists hold together. -/
theorem forall₂_and {r s : α → β → Prop} {xs : List α} {ys : List β}
    (hr : List.Forall₂ r xs ys) (hs : List.Forall₂ s xs ys) :
    List.Forall₂ (fun x y => r x y ∧ s x y) xs ys := by
  induction hr with
  | nil => exact .nil
  | cons hxy _ ih =>
    cases hs with
    | cons hxy' hs => exact .cons ⟨hxy, hxy'⟩ (ih hs)

/-! ## Success -/

/-- A chain succeeds if its first step does and the others do after it. -/
theorem bind_eq_ok {x : Except ε α} {f : α → Except ε β} {b : β} :
    (x >>= f) = .ok b ↔ ∃ a, x = .ok a ∧ f a = .ok b := by
  cases x with
  | error e => simp [bind, Except.bind]
  | ok a => simp [bind, Except.bind]

/-- A check in front of other steps. -/
theorem bind_unit_eq_ok {x : Except ε Unit} {f : Unit → Except ε β} {b : β} :
    (x >>= f) = .ok b ↔ x = .ok () ∧ f () = .ok b :=
  bind_eq_ok.trans ⟨fun ⟨_, h⟩ => h, fun h => ⟨(), h⟩⟩

/-- Steps that give the same for every result of the first one give the same
behind it. -/
theorem bind_congr_of_ok {x : Except ε α} {f g : α → Except ε β}
    (h : ∀ a, x = .ok a → f a = g a) : (x >>= f) = x >>= g := by
  cases x with
  | error e => rfl
  | ok a => exact h a rfl

theorem map_eq_ok {x : Except ε α} {f : α → β} {b : β} :
    (f <$> x) = .ok b ↔ ∃ a, x = .ok a ∧ f a = b := by
  cases x with
  | error e => simp [Functor.map, Except.map]
  | ok a => simp [Functor.map, Except.map]

@[simp] theorem pure_eq_ok {a b : α} :
    (pure a : Except ε α) = .ok b ↔ a = b := by
  simp [pure, Except.pure]

theorem toOption_eq_some {x : Except ε α} {a : α} :
    x.toOption = some a ↔ x = .ok a := by
  cases x <;> simp [Except.toOption]

theorem mapError_eq_ok {δ : Type} {x : Except ε α} {f : ε → δ} {a : α} :
    x.mapError f = .ok a ↔ x = .ok a := by
  cases x <;> simp [Except.mapError]

@[simp] theorem refuse_ne_ok {cause : Invalid} {a : α} :
    (refuse cause : Outcome α) ≠ .ok a := by
  simp [refuse]

/-- A test in front of a request. -/
theorem ite_refuse_eq_ok {p : Prop} [Decidable p] {cause : Invalid}
    {x : Outcome α} {a : α} :
    (if p then refuse cause else x) = .ok a ↔ ¬p ∧ x = .ok a := by
  by_cases h : p <;> simp [h]

/-- A step done for each member succeeds if it does for every one. -/
theorem mapM_eq_ok {f : α → Except ε β} {xs : List α} {ys : List β} :
    xs.mapM f = .ok ys ↔ List.Forall₂ (fun x y => f x = .ok y) xs ys := by
  induction xs generalizing ys with
  | nil =>
    rw [List.mapM_nil, pure_eq_ok, List.forall₂_nil_left_iff]
    exact eq_comm
  | cons x xs ih =>
    rw [List.mapM_cons, bind_eq_ok, List.forall₂_cons_left_iff]
    constructor
    · rintro ⟨y, hy, h⟩
      obtain ⟨rest, hrest, heq⟩ := bind_eq_ok.mp h
      exact ⟨y, rest, hy, ih.mp hrest, (pure_eq_ok.mp heq).symm⟩
    · rintro ⟨y, rest, hy, hrest, rfl⟩
      exact ⟨y, hy, bind_eq_ok.mpr ⟨rest, ih.mpr hrest, rfl⟩⟩

theorem forM_eq_ok {f : α → Except ε Unit} {xs : List α} :
    xs.forM f = .ok () ↔ ∀ x ∈ xs, f x = .ok () := by
  induction xs with
  | nil => simp [List.forM]
  | cons x xs ih =>
    rw [List.forM, bind_eq_ok, List.forall_mem_cons]
    constructor
    · rintro ⟨⟨⟩, hx, hrest⟩
      exact ⟨hx, ih.mp hrest⟩
    · rintro ⟨hx, hrest⟩
      exact ⟨(), hx, ih.mpr hrest⟩

theorem option_forM_eq_ok {f : α → Outcome Unit} {found : Option α}
    {done : Unit} :
    found.forM f = .ok done ↔ ∀ x, found = some x → f x = .ok () := by
  cases found with
  | none => simp [Option.forM]
  | some x => simp [Option.forM]

/-- A step that succeeds for whatever is related to something succeeds for
each member of a related list. -/
theorem forM_of_forall₂ {r : α → β → Prop} {f : β → Outcome Unit}
    (hf : ∀ x y, r x y → f y = .ok ()) {xs : List α} {ys : List β}
    (h : List.Forall₂ r xs ys) : ys.forM f = .ok () := by
  induction h with
  | nil => rfl
  | cons hxy _ ih => exact bind_eq_ok.mpr ⟨(), hf _ _ hxy, ih⟩

/-! ## Failure -/

/-- A chain fails if its first step does, or one of the others after it. -/
theorem bind_eq_error {x : Except ε α} {f : α → Except ε β} {e : ε} :
    (x >>= f) = .error e ↔
      x = .error e ∨ ∃ a, x = .ok a ∧ f a = .error e := by
  cases x with
  | error e => simp [bind, Except.bind]
  | ok a => simp [bind, Except.bind]

theorem map_eq_error {x : Except ε α} {f : α → β} {e : ε} :
    (f <$> x) = .error e ↔ x = .error e := by
  cases x <;> simp [Functor.map, Except.map]

theorem mapError_eq_error {δ : Type} {x : Except ε α} {f : ε → δ} {d : δ} :
    x.mapError f = .error d ↔ ∃ e, x = .error e ∧ f e = d := by
  cases x <;> simp [Except.mapError]

/-- A step done for each member fails at the first one for which it does. -/
theorem mapM_eq_error {f : α → Except ε β} {xs : List α} {e : ε} :
    xs.mapM f = .error e ↔ ∃ before x after, xs = before ++ x :: after ∧
      (∀ y ∈ before, ∃ b, f y = .ok b) ∧ f x = .error e := by
  induction xs with
  | nil => simp [pure, Except.pure]
  | cons x xs ih =>
    simp only [List.mapM_cons, bind_eq_error, ih]
    constructor
    · rintro (hx | ⟨b, hb, ⟨before, y, after, rfl, hbefore, hy⟩ | ⟨_, _, h⟩⟩)
      · exact ⟨[], x, xs, rfl, by simp, hx⟩
      · refine ⟨x :: before, y, after, rfl, ?_, hy⟩
        exact List.forall_mem_cons.mpr ⟨⟨b, hb⟩, hbefore⟩
      · cases h
    · rintro ⟨before, y, after, hxs, hbefore, hy⟩
      cases before with
      | nil =>
        obtain ⟨rfl, rfl⟩ := List.cons.inj hxs
        exact .inl hy
      | cons z before =>
        obtain ⟨rfl, rfl⟩ := List.cons.inj hxs
        rw [List.forall_mem_cons] at hbefore
        obtain ⟨⟨b, hb⟩, hrest⟩ := hbefore
        exact .inr ⟨b, hb, .inl ⟨before, y, after, rfl, hrest, hy⟩⟩

/-! ## Either way -/

/-- The request has a good result, or fails with one of some errors. -/
def Ends (good : α → Prop) (bad : Error → Prop) : Outcome α → Prop
  | .ok a => good a
  | .error e => bad e

variable {good : α → Prop} {bad : Error → Prop}

theorem ends_ok {a : α} : Ends good bad (.ok a) ↔ good a := Iff.rfl

/-- A chain ends well if its first step does, and the others do after it. -/
theorem Ends.bind {next : β → Prop} {x : Outcome α} {f : α → Outcome β}
    (hx : Ends good bad x) (hf : ∀ a, x = .ok a → good a → Ends next bad (f a)) :
    Ends next bad (x >>= f) := by
  cases x with
  | error e => exact hx
  | ok a => exact hf a rfl hx

theorem Ends.imp {weaker : α → Prop} {x : Outcome α} (hx : Ends good bad x)
    (h : ∀ a, good a → weaker a) : Ends weaker bad x := by
  cases x with
  | error e => exact hx
  | ok a => exact h a hx

theorem Ends.imp_error {worse : Error → Prop} {x : Outcome α}
    (hx : Ends good bad x) (h : ∀ e, bad e → worse e) : Ends good worse x := by
  cases x with
  | error e => exact h e hx
  | ok a => exact hx

/-- A step done for each member ends well if it does for every one. -/
theorem ends_mapM {related : α → β → Prop} {f : α → Outcome β} :
    ∀ {xs : List α}, (∀ x ∈ xs, Ends (related x) bad (f x)) →
      Ends (List.Forall₂ related xs) bad (xs.mapM f)
  | [], _ => .nil
  | x :: xs, h => by
    rw [List.forall_mem_cons] at h
    rw [List.mapM_cons]
    refine h.1.bind fun y _ hy => ?_
    exact (ends_mapM h.2).bind fun ys _ hys => .cons hy hys

/-- If every single result is good, then all of them are. -/
theorem ends_mapM_all {next : β → Prop} {f : α → Outcome β} {xs : List α}
    (h : ∀ x ∈ xs, Ends next bad (f x)) :
    Ends (fun ys => ∀ y ∈ ys, next y) bad (xs.mapM f) := by
  refine Ends.imp (@ends_mapM _ _ bad (fun _ => next) f xs h) fun ys hys => ?_
  intro y hy
  obtain ⟨_, -, hnext⟩ := exists_of_forall₂ hys.flip hy
  exact hnext

/-! ## Refusals -/

/-- The request fails by a refusal if it fails. -/
def OnlyRefuses (x : Outcome α) : Prop :=
  ∀ e, x = .error e → ∃ cause, e = .invalid cause

@[simp] theorem onlyRefuses_ok (a : α) : OnlyRefuses (.ok a) := by
  intro e h
  cases h

@[simp] theorem onlyRefuses_pure (a : α) : OnlyRefuses (pure a) :=
  onlyRefuses_ok a

@[simp] theorem onlyRefuses_refuse (cause : Invalid) :
    OnlyRefuses (refuse cause : Outcome α) := by
  intro e h
  cases h
  exact ⟨cause, rfl⟩

theorem onlyRefuses_mapError {x : Except ε α} {f : ε → Error}
    (hf : ∀ e, ∃ cause, f e = .invalid cause) :
    OnlyRefuses (x.mapError f) := by
  intro e h
  cases x with
  | ok a => cases h
  | error e' =>
    obtain ⟨cause, hcause⟩ := hf e'
    exact ⟨cause, (Except.error.inj h).symm.trans hcause⟩

/-- A chain only refuses if every step that is reached does. -/
@[simp] theorem onlyRefuses_bind {x : Outcome α} {f : α → Outcome β} :
    OnlyRefuses (x >>= f) ↔
      OnlyRefuses x ∧ ∀ a, x = .ok a → OnlyRefuses (f a) := by
  cases x with
  | error e => simp [OnlyRefuses, bind, Except.bind]
  | ok a => simp [bind, Except.bind]

@[simp] theorem onlyRefuses_map {x : Outcome α} {f : α → β} :
    OnlyRefuses (f <$> x) ↔ OnlyRefuses x := by
  cases x with
  | error e => simp [OnlyRefuses, Functor.map, Except.map]
  | ok a => simp [Functor.map, Except.map]

theorem onlyRefuses_mapM {f : α → Outcome β} (hf : ∀ a, OnlyRefuses (f a)) :
    ∀ xs : List α, OnlyRefuses (xs.mapM f)
  | [] => by simp
  | x :: xs => by simp [hf x, onlyRefuses_mapM hf xs]

theorem onlyRefuses_forM {f : α → Outcome Unit}
    (hf : ∀ a, OnlyRefuses (f a)) : ∀ xs : List α, OnlyRefuses (xs.forM f)
  | [] => onlyRefuses_pure _
  | x :: xs => onlyRefuses_bind.mpr ⟨hf x, fun _ _ => onlyRefuses_forM hf xs⟩

theorem onlyRefuses_foldlM {f : β → α → Outcome β}
    (hf : ∀ b a, OnlyRefuses (f b a)) :
    ∀ (xs : List α) (b : β), OnlyRefuses (xs.foldlM f b)
  | [], b => by simp
  | x :: xs, b => by simp [hf b x, onlyRefuses_foldlM hf xs]

theorem onlyRefuses_option_forM {f : α → Outcome Unit}
    (hf : ∀ a, OnlyRefuses (f a)) :
    ∀ found : Option α, OnlyRefuses (forM found f)
  | none => onlyRefuses_pure _
  | some x => hf x

theorem onlyRefuses_option_mapM {f : α → Outcome β}
    (hf : ∀ a, OnlyRefuses (f a)) :
    ∀ found : Option α, OnlyRefuses (found.mapM f)
  | none => onlyRefuses_pure _
  | some x => onlyRefuses_bind.mpr ⟨hf x, fun _ _ => onlyRefuses_pure _⟩

end CampusQuery.Outcome
