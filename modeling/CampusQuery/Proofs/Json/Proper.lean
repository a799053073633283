/-
CampusQuery.Proofs.Json.Proper — no text has "no number" in it.

A numeral is read as a number (`readNumber?_ne_nan`), and no other token
brings one in. A reader only puts together what its tokens bring, so every
number in the values that are still open is one after each token
(`Reader.isProper_of_step?`), and in the value that is read from a text
(`isProper_of_readBefore?`).
-/
import CampusQuery.Json.Reader
import CampusQuery.Proofs.Numeric.Moving

namespace CampusQuery.Json

open Numeric

/-! ## Numerals -/

theorem readReal?_ne_nan {parts : Numeral.Parts} {x : Binary64}
    (h : readReal? parts = some x) : x ≠ .nan := by
  obtain ⟨size, hsize, hx⟩ := Option.bind_eq_some_iff.mp h
  have hne : size ≠ .nan :=
    Binary64.moved?_ne_nan (x := .ofInt _) Binary64.noConfusion hsize
  obtain rfl := Option.some.inj hx
  split
  · exact Binary64.negate_ne_nan hne
  · exact hne

theorem readNumber?_ne_nan {lexeme : List Char} {n : JsonNumber}
    (h : readNumber? lexeme = some n) : n.toBinary64 ≠ .nan := by
  obtain ⟨parts, -, h⟩ := Option.bind_eq_some_iff.mp h
  extract_lets numeral whole at h
  split at h
  · obtain rfl := Option.some.inj h
    exact Binary64.noConfusion
  · obtain ⟨x, hx, rfl⟩ := Option.map_eq_some_iff.mp h
    exact readReal?_ne_nan hx

/-! ## Values -/

/-- Every number in the value is one. -/
inductive IsProper : Json → Prop
  | null : IsProper .null
  | bool (value : Bool) : IsProper (.bool value)
  | number {n : JsonNumber} : n.toBinary64 ≠ .nan → IsProper (.number n)
  | string (text : String) : IsProper (.string text)
  | array {items : List Json} :
      (∀ item ∈ items, IsProper item) → IsProper (.array items)
  | object {members : List (String × Json)} :
      (∀ member ∈ members, IsProper member.2) → IsProper (.object members)

theorem mem_insertMember {key : String} {value : Json}
    {members : List (String × Json)} {member : String × Json}
    (h : member ∈ insertMember key value members) :
    member = (key, value) ∨ member ∈ members := by
  induction members with
  | nil => simpa [insertMember] using h
  | cons head rest ih =>
    rw [insertMember] at h
    split at h
    · exact List.mem_cons.mp h
    · split at h
      · exact (List.mem_cons.mp h).imp_right (List.mem_cons_of_mem _)
      · rcases List.mem_cons.mp h with rfl | hrest
        · exact .inr List.mem_cons_self
        · exact (ih hrest).imp_right (List.mem_cons_of_mem _)

/-- Sorting brings no member in. -/
theorem mem_of_mem_sortMembers {members : List (String × Json)}
    {member : String × Json} (h : member ∈ sortMembers members) :
    member ∈ members := by
  have hfold : ∀ (rest sorted : List (String × Json)),
      member ∈ rest.foldl (fun sorted member =>
        insertMember member.1 member.2 sorted) sorted →
      member ∈ sorted ∨ member ∈ rest := by
    intro rest
    induction rest with
    | nil => exact fun sorted h => .inl h
    | cons head rest ih =>
      intro sorted h
      rcases ih _ h with hinserted | hrest
      · rcases mem_insertMember hinserted with rfl | hsorted
        · exact .inr List.mem_cons_self
        · exact .inl hsorted
      · exact .inr (List.mem_cons_of_mem _ hrest)
  exact (hfold members [] h).resolve_left List.not_mem_nil

theorem IsProper.ofMembers {members : List (String × Json)}
    (h : ∀ member ∈ members, IsProper member.2) :
    (Json.ofMembers members).IsProper :=
  .object fun member hmember => h member (mem_of_mem_sortMembers hmember)

/-! ## Tokens -/

def Token.IsProper : Token → Prop
  | .literal value => value.IsProper
  | _ => True

theorem isProper_of_readWord? {lexeme : List Char} {value : Json}
    (h : readWord? lexeme = some value) : value.IsProper := by
  unfold readWord? at h
  split at h <;> cases h <;> constructor

theorem isProper_of_mark? {c : Char} {token : Token}
    (h : mark? c = some token) : token.IsProper := by
  unfold mark? at h
  split at h <;> cases h <;> trivial

namespace Mode

variable {mode after : Mode} {c : Char} {token : Token}

theorem isProper_of_begin? (h : begin? c = some (after, some token)) :
    token.IsProper := by
  unfold begin? at h
  split at h
  · cases h
  · split at h
    · cases h
    · split at h
      · cases h
      · split at h
        · cases h
        · obtain ⟨mark, hmark, hfound⟩ := Option.map_eq_some_iff.mp h
          cases hfound
          exact isProper_of_mark? hmark

/-- A word is the only literal that ends with a character of its own. -/
theorem isProper_of_step? (h : mode.step? c = some (after, some token)) :
    token.IsProper := by
  cases mode with
  | between => exact isProper_of_begin? h
  | word reversed =>
    simp only [step?] at h
    split at h
    · split at h
      · rename_i value hvalue
        cases h
        exact isProper_of_readWord? hvalue
      · cases h
    · cases h
  | numeral place reversed =>
    obtain ⟨_, -, h⟩ := Option.bind_eq_some_iff.mp h
    cases h
  | text reversed high =>
    simp only [step?] at h
    split at h
    · cases h
    · split at h
      · cases h
      · split at h <;> cases h
        trivial
  | escape reversed high =>
    simp only [step?] at h
    split at h
    · cases h
    · split at h
      · cases h
      · obtain ⟨_, -, h⟩ := Option.bind_eq_some_iff.mp h
        cases h
  | code reversed high digits value =>
    obtain ⟨_, -, h⟩ := Option.bind_eq_some_iff.mp h
    dsimp only at h
    split at h
    · cases h
    · obtain ⟨_, -, h⟩ := Option.bind_eq_some_iff.mp h
      cases h

theorem isProper_of_complete? (h : mode.complete? = some token) :
    token.IsProper := by
  unfold complete? at h
  split at h
  · obtain ⟨-, h⟩ := Option.ite_none_right_eq_some.mp h
    obtain ⟨n, hn, rfl⟩ := Option.map_eq_some_iff.mp h
    exact .number (readNumber?_ne_nan hn)
  · cases h

end Mode

/-! ## Readers -/

def Frame.IsProper : Frame → Prop
  | .array reversed => ∀ item ∈ reversed, item.IsProper
  | .object reversed _ => ∀ member ∈ reversed, member.2.IsProper

namespace Reader

def IsProper : Reader → Prop
  | .reading stack _ => ∀ frame ∈ stack, frame.IsProper
  | .done value => value.IsProper

variable {stack : List Frame} {value : Json} {token : Token}
  {reader after : Reader} {maxDepth : Nat}

theorem isProper_place (hstack : ∀ frame ∈ stack, frame.IsProper)
    (hvalue : value.IsProper) : (place value stack).IsProper := by
  cases stack with
  | nil => exact hvalue
  | cons frame rest =>
    rw [List.forall_mem_cons] at hstack
    obtain ⟨hframe, hrest⟩ := hstack
    cases frame with
    | array reversed =>
      exact List.forall_mem_cons.mpr
        ⟨List.forall_mem_cons.mpr ⟨hvalue, hframe⟩, hrest⟩
    | object reversed key =>
      exact List.forall_mem_cons.mpr
        ⟨List.forall_mem_cons.mpr ⟨hvalue, hframe⟩, hrest⟩

theorem isProper_of_open? {frame : Frame} {next : Expected}
    (hstack : ∀ frame ∈ stack, frame.IsProper) (hframe : frame.IsProper)
    (h : open? maxDepth stack frame next = some after) : after.IsProper := by
  obtain ⟨-, h⟩ := Option.ite_none_right_eq_some.mp h
  cases h
  exact List.forall_mem_cons.mpr ⟨hframe, hstack⟩

theorem isProper_of_beginValue? (hstack : ∀ frame ∈ stack, frame.IsProper)
    (htoken : token.IsProper)
    (h : beginValue? maxDepth stack token = some after) : after.IsProper := by
  cases token with
  | text text => exact Option.some.inj h ▸ isProper_place hstack (.string text)
  | literal value => exact Option.some.inj h ▸ isProper_place hstack htoken
  | openArray => exact isProper_of_open? hstack (by simp [Frame.IsProper]) h
  | openObject => exact isProper_of_open? hstack (by simp [Frame.IsProper]) h
  | _ => cases h

theorem isProper_of_closeArray? (hstack : ∀ frame ∈ stack, frame.IsProper)
    (h : closeArray? stack = some after) : after.IsProper := by
  unfold closeArray? at h
  split at h
  · cases h
    rw [List.forall_mem_cons] at hstack
    exact isProper_place hstack.2 (.array fun item hitem =>
      hstack.1 item (List.mem_reverse.mp hitem))
  · cases h

theorem isProper_of_closeObject? (hstack : ∀ frame ∈ stack, frame.IsProper)
    (h : closeObject? stack = some after) : after.IsProper := by
  unfold closeObject? at h
  split at h
  · cases h
    rw [List.forall_mem_cons] at hstack
    exact isProper_place hstack.2 (.ofMembers fun member hmember =>
      hstack.1 member (List.mem_reverse.mp hmember))
  · cases h

theorem isProper_of_takeKey? {key : String}
    (hstack : ∀ frame ∈ stack, frame.IsProper)
    (h : takeKey? key stack = some after) : after.IsProper := by
  unfold takeKey? at h
  split at h <;> cases h
  rw [List.forall_mem_cons] at hstack
  exact List.forall_mem_cons.mpr hstack

theorem isProper_of_continue? (hstack : ∀ frame ∈ stack, frame.IsProper)
    (h : continue? stack = some after) : after.IsProper := by
  unfold continue? at h
  split at h <;> cases h <;> exact hstack

/-- One token keeps what has been read proper. -/
theorem isProper_of_step? (hreader : reader.IsProper)
    (htoken : token.IsProper) (h : reader.step? maxDepth token = some after) :
    after.IsProper := by
  cases reader with
  | done value => cases h
  | reading stack next =>
    cases next with
    | value => exact isProper_of_beginValue? hreader htoken h
    | firstItem =>
      simp only [step?] at h
      split at h
      · exact isProper_of_closeArray? hreader h
      · exact isProper_of_beginValue? hreader htoken h
    | firstKey =>
      simp only [step?] at h
      split at h
      · exact isProper_of_closeObject? hreader h
      · exact isProper_of_takeKey? hreader h
      · cases h
    | key =>
      simp only [step?] at h
      split at h
      · exact isProper_of_takeKey? hreader h
      · cases h
    | colon =>
      simp only [step?] at h
      split at h <;> cases h
      exact hreader
    | separator =>
      simp only [step?] at h
      split at h
      · exact isProper_of_continue? hreader h
      · exact isProper_of_closeArray? hreader h
      · exact isProper_of_closeObject? hreader h
      · cases h

theorem isProper_of_value? (hreader : reader.IsProper)
    (h : reader.value? = some value) : value.IsProper := by
  cases reader with
  | reading stack next => cases h
  | done value => exact Option.some.inj h ▸ hreader

end Reader

/-! ## Texts -/

namespace Progress

variable {progress after : Progress} {maxDepth : Nat} {c : Char}

theorem isProper_of_settle? (hreader : progress.reader.IsProper)
    (h : progress.settle? maxDepth = some after) : after.reader.IsProper := by
  obtain ⟨token, htoken, h⟩ := Option.bind_eq_some_iff.mp h
  obtain ⟨reader, hstep, h⟩ := Option.bind_eq_some_iff.mp h
  cases h
  exact Reader.isProper_of_step? hreader (Mode.isProper_of_complete? htoken)
    hstep

theorem isProper_of_advance? (hreader : progress.reader.IsProper)
    (h : progress.advance? maxDepth c = some after) :
    after.reader.IsProper := by
  obtain ⟨⟨mode, found⟩, hmode, h⟩ := Option.bind_eq_some_iff.mp h
  cases found with
  | none =>
    cases h
    exact hreader
  | some token =>
    obtain ⟨reader, hstep, h⟩ := Option.bind_eq_some_iff.mp h
    cases h
    exact Reader.isProper_of_step? hreader (Mode.isProper_of_step? hmode) hstep

/-- One character keeps what has been read proper. -/
theorem isProper_of_step? {follows : Char → Bool}
    (hreader : progress.reader.IsProper)
    (h : progress.step? follows maxDepth c = some after) :
    after.reader.IsProper := by
  unfold step? at h
  extract_lets goOn at h
  have hgoOn : ∀ settled : Progress, settled.reader.IsProper →
      goOn settled = some after → after.reader.IsProper := by
    intro settled hsettled h
    dsimp only [goOn] at h
    split at h
    · obtain ⟨-, h⟩ := Option.ite_none_right_eq_some.mp h
      exact Option.some.inj h ▸ hsettled
    · exact isProper_of_advance? hsettled h
  split at h
  · obtain ⟨settled, hsettled, h⟩ := Option.bind_eq_some_iff.mp h
    exact hgoOn settled (isProper_of_settle? hreader hsettled) h
  · exact hgoOn progress hreader h

/-- So do any number of characters. -/
theorem isProper_of_foldlM {follows : Char → Bool} {chars : List Char}
    (hreader : progress.reader.IsProper)
    (h : chars.foldlM (step? follows maxDepth) progress = some after) :
    after.reader.IsProper := by
  induction chars generalizing progress with
  | nil => exact Option.some.inj h ▸ hreader
  | cons c rest ih =>
    rw [List.foldlM_cons] at h
    obtain ⟨next, hnext, h⟩ := Option.bind_eq_some_iff.mp h
    exact ih (isProper_of_step? hreader hnext) h

theorem isProper_of_value? {value : Json} (hreader : progress.reader.IsProper)
    (h : progress.value? maxDepth = some value) : value.IsProper := by
  unfold value? at h
  split at h
  · exact Reader.isProper_of_value? hreader h
  · obtain ⟨settled, hsettled, h⟩ := Option.bind_eq_some_iff.mp h
    exact Reader.isProper_of_value? (isProper_of_settle? hreader hsettled) h

end Progress

/-- Every number in a value that is read from a text is one. -/
theorem isProper_of_readBefore? {follows : Char → Bool} {maxDepth : Nat}
    {text : String} {value : Json}
    (h : readBefore? follows maxDepth text = some value) :
    value.IsProper := by
  obtain ⟨progress, hprogress, hvalue⟩ := Option.bind_eq_some_iff.mp h
  have hstart : Progress.start.reader.IsProper := by
    simp [Progress.start, Reader.start, Reader.IsProper]
  exact Progress.isProper_of_value?
    (Progress.isProper_of_foldlM hstart hprogress) hvalue

end CampusQuery.Json
