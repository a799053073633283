/-
CampusQuery.Proofs.Json.RoundTrip — reading what was written.

Not everything survives being written and read. An object comes back with
its keys in ascending order and each of them once, a number that is not
finite as `null`, and any other number as whatever its literal is read as,
which may be another number or nothing at all. `reread` says all this value
by value, and `readBefore?_text` shows that it is right for every value that
is not nested too deep.
-/
import CampusQuery.Proofs.Json.Scanning

namespace CampusQuery.Json

open Numeric

/-! ## What comes back -/

def rereadNumber : JsonNumber → Option Json
  | .integer n => (readNumber? (wholeChars n)).map .number
  | .real .nan => some .null
  | .real (.signed negative magnitude) =>
    if magnitude.isFinite then
      (readNumber? (Binary64.literalChars negative magnitude)).map .number
    else some .null

/-- The literal of a number is read as the number itself. -/
def ReadsBack (x : Binary64) : Prop :=
  (readNumber? (numberChars (.real x))).map JsonNumber.toBinary64 = some x

instance (x : Binary64) : Decidable (ReadsBack x) :=
  inferInstanceAs (Decidable (_ = _))

mutual

/-- What is read of a value that was written. -/
def reread : Json → Option Json
  | null => some .null
  | bool value => some (.bool value)
  | number n => rereadNumber n
  | string text => some (.string text)
  | array items => (rereadItems items).map .array
  | object members => (rereadMembers members).map .ofMembers

def rereadItems : List Json → Option (List Json)
  | [] => some []
  | item :: rest =>
    (reread item).bind fun value => (rereadItems rest).map (value :: ·)

def rereadMembers : List (String × Json) → Option (List (String × Json))
  | [] => some []
  | (key, value) :: rest =>
    (reread value).bind fun value =>
      (rereadMembers rest).map ((key, value) :: ·)

end

mutual

/-- How many arrays and objects lie inside each other. -/
def depth : Json → Nat
  | null | bool _ | number _ | string _ => 0
  | array items => depthOfItems items + 1
  | object members => depthOfMembers members + 1

def depthOfItems : List Json → Nat
  | [] => 0
  | item :: rest => max (depth item) (depthOfItems rest)

def depthOfMembers : List (String × Json) → Nat
  | [] => 0
  | (_, value) :: rest => max (depth value) (depthOfMembers rest)

end

/-! ## Numbers -/

/-- The text has a first character, which ends a numeral. -/
def EndsNumeral (text : List Char) : Prop :=
  ∃ c rest, text = c :: rest ∧ (c = ',' ∨ c = ']' ∨ c = '\x7d')

theorem endsNumeral_moreItems (items : List Json) (rest : List Char) :
    EndsNumeral (moreItems items ++ rest) := by
  cases items with
  | nil => exact ⟨']', rest, by simp [moreItems], by simp⟩
  | cons item items =>
    exact ⟨',', _, by rw [moreItems, List.cons_append, List.cons_append],
      by simp⟩

theorem endsNumeral_moreMembers (members : List (String × Json))
    (rest : List Char) : EndsNumeral (moreMembers members ++ rest) := by
  cases members with
  | nil => exact ⟨'\x7d', rest, by simp [moreMembers], by simp⟩
  | cons member members =>
    exact ⟨',', _, by simp only [moreMembers, List.cons_append]; rfl, by simp⟩

namespace Progress

variable {follows : Char → Bool} {maxDepth : Nat}

/-- Where a value may start. -/
def StartsValue (next : Expected) : Prop :=
  next = .value ∨ next = .firstItem

/-- A token that closes no array starts a value there. -/
theorem step?_eq_beginValue? {stack : List Frame} {next : Expected}
    (hnext : StartsValue next) {token : Token}
    (htoken : token ≠ .closeArray) :
    (Reader.reading stack next).step? maxDepth token =
      Reader.beginValue? maxDepth stack token := by
  rcases hnext with rfl | rfl
  · rfl
  · cases token <;> first | rfl | exact absurd rfl htoken

theorem run?_numberChars {stack : List Frame} {next : Expected}
    (hnext : StartsValue next) (n : JsonNumber) {rest : List Char}
    (hrest : EndsNumeral rest) :
    run? follows maxDepth ⟨.between, .reading stack next⟩
        (numberChars n ++ rest) =
      (rereadNumber n).bind fun value =>
        run? follows maxDepth ⟨.between, Reader.place value stack⟩ rest := by
  obtain ⟨c, rest, rfl, hc⟩ := hrest
  have hnumeral : ∀ {lexeme : List Char}, IsNumeral lexeme →
      run? follows maxDepth ⟨.between, .reading stack next⟩
          (lexeme ++ c :: rest) =
        ((readNumber? lexeme).map .number).bind fun value =>
          run? follows maxDepth ⟨.between, Reader.place value stack⟩
            (c :: rest) := by
    intro lexeme h
    rw [run?_number h hc, Option.bind_map]
    congr 1
    funext n
    rw [step?_eq_beginValue? hnext (by simp)]
    rfl
  have hnull :
      run? follows maxDepth ⟨.between, .reading stack next⟩
          ("null".toList ++ c :: rest) =
        run? follows maxDepth ⟨.between, Reader.place .null stack⟩
          (c :: rest) := by
    rw [run?_null, step?_eq_beginValue? hnext (by simp)]
    rfl
  cases n with
  | integer n => exact hnumeral (isNumeral_wholeChars n)
  | real x =>
    cases x with
    | nan => exact hnull
    | signed negative magnitude =>
      rw [numberChars, rereadNumber]
      split
      · exact hnumeral (isNumeral_literalChars negative magnitude)
      · exact hnull

/-! ## Values -/

theorem open?_eq_some {stack : List Frame} {frame : Frame} {next : Expected}
    (h : stack.length < maxDepth) :
    Reader.open? maxDepth stack frame next
      = some (.reading (frame :: stack) next) := if_pos h

mutual

/-- A value that is written is read as `reread` says, unless that takes the
reader too deep. Only a number needs something behind it that ends it. -/
theorem run?_chars : ∀ (value : Json) (stack : List Frame) (next : Expected)
    (rest : List Char), StartsValue next →
    stack.length + value.depth ≤ maxDepth →
    ((∃ n, value = .number n) → EndsNumeral rest) →
    run? follows maxDepth ⟨.between, .reading stack next⟩
        (value.chars ++ rest) =
      value.reread.bind fun read =>
        run? follows maxDepth ⟨.between, Reader.place read stack⟩ rest
  | .null, stack, next, rest, hnext, _, _ => by
    rw [chars, run?_null, step?_eq_beginValue? hnext (by simp)]
    rfl
  | .bool true, stack, next, rest, hnext, _, _ => by
    rw [chars, run?_true, step?_eq_beginValue? hnext (by simp)]
    rfl
  | .bool false, stack, next, rest, hnext, _, _ => by
    rw [chars, run?_false, step?_eq_beginValue? hnext (by simp)]
    rfl
  | .number n, stack, next, rest, hnext, _, hrest =>
    run?_numberChars hnext n (hrest ⟨n, rfl⟩)
  | .string text, stack, next, rest, hnext, _, _ => by
    rw [chars, run?_quoteChars, step?_eq_beginValue? hnext (by simp)]
    rfl
  | .array [], stack, next, rest, hnext, hdepth, _ => by
    rw [chars, List.cons_append, run?_mark rfl,
      step?_eq_beginValue? hnext (by simp), Reader.beginValue?,
      open?_eq_some (by simp [depth] at hdepth; omega), Option.bind_some,
      List.cons_append, List.nil_append, run?_mark rfl]
    rfl
  | .array (item :: items), stack, next, rest, hnext, hdepth, _ => by
    simp only [depth, depthOfItems] at hdepth
    rw [chars, List.cons_append, List.cons_append, run?_mark rfl,
      step?_eq_beginValue? hnext (by simp), Reader.beginValue?,
      open?_eq_some (by omega), Option.bind_some, List.append_assoc,
      run?_chars item (.array [] :: stack) .firstItem _ (.inr rfl)
        (by simp; omega) fun _ => endsNumeral_moreItems items rest,
      reread, rereadItems, Option.map_bind, Option.bind_assoc]
    congr 1
    funext read
    rw [Reader.place, run?_moreItems items [read] stack rest (by omega)]
    simp [Option.bind_map, Function.comp_def]
  | .object [], stack, next, rest, hnext, hdepth, _ => by
    rw [chars, List.cons_append, run?_mark rfl,
      step?_eq_beginValue? hnext (by simp), Reader.beginValue?,
      open?_eq_some (by simp [depth] at hdepth; omega), Option.bind_some,
      List.cons_append, List.nil_append, run?_mark rfl]
    rfl
  | .object ((key, value) :: members), stack, next, rest, hnext, hdepth, _ => by
    simp only [depth, depthOfMembers] at hdepth
    rw [chars]
    simp only [List.cons_append, List.append_assoc]
    rw [run?_mark rfl, step?_eq_beginValue? hnext (by simp),
      Reader.beginValue?, open?_eq_some (by omega), Option.bind_some,
      run?_quoteChars]
    simp only [Reader.step?, Reader.takeKey?, Option.bind_some]
    rw [run?_mark rfl]
    simp only [Reader.step?, Option.bind_some]
    rw [run?_chars value (.object [] key :: stack) .value _ (.inl rfl)
        (by simp; omega) fun _ => endsNumeral_moreMembers members rest,
      reread, rereadMembers, Option.map_bind, Option.bind_assoc]
    congr 1
    funext read
    rw [Reader.place,
      run?_moreMembers members [(key, read)] key stack rest (by omega)]
    simp [Option.bind_map, Function.comp_def]

theorem run?_moreItems : ∀ (items reversed : List Json) (stack : List Frame)
    (rest : List Char),
    stack.length + (depthOfItems items + 1) ≤ maxDepth →
    run? follows maxDepth
        ⟨.between, .reading (.array reversed :: stack) .separator⟩
        (moreItems items ++ rest) =
      (rereadItems items).bind fun read =>
        run? follows maxDepth
          ⟨.between, Reader.place (.array (reversed.reverse ++ read)) stack⟩
          rest
  | [], reversed, stack, rest, _ => by
    rw [moreItems, List.cons_append, List.nil_append, run?_mark rfl]
    simp [Reader.step?, Reader.closeArray?, rereadItems]
  | item :: items, reversed, stack, rest, hdepth => by
    simp only [depthOfItems] at hdepth
    rw [moreItems, List.cons_append, List.cons_append, run?_mark rfl]
    simp only [Reader.step?, Reader.continue?, Option.bind_some]
    rw [List.append_assoc,
      run?_chars item (.array reversed :: stack) .value _ (.inl rfl)
        (by simp; omega) fun _ => endsNumeral_moreItems items rest,
      rereadItems, Option.bind_assoc]
    congr 1
    funext read
    rw [Reader.place, run?_moreItems items (read :: reversed) stack rest
      (by omega), Option.bind_map]
    simp only [List.reverse_cons, List.append_assoc,
      List.singleton_append]
    rfl

theorem run?_moreMembers : ∀ (members reversed : List (String × Json))
    (last : String) (stack : List Frame) (rest : List Char),
    stack.length + (depthOfMembers members + 1) ≤ maxDepth →
    run? follows maxDepth
        ⟨.between, .reading (.object reversed last :: stack) .separator⟩
        (moreMembers members ++ rest) =
      (rereadMembers members).bind fun read =>
        run? follows maxDepth
          ⟨.between,
            Reader.place (.ofMembers (reversed.reverse ++ read)) stack⟩ rest
  | [], reversed, last, stack, rest, _ => by
    rw [moreMembers, List.cons_append, List.nil_append, run?_mark rfl]
    simp [Reader.step?, Reader.closeObject?, rereadMembers]
  | (key, value) :: members, reversed, last, stack, rest, hdepth => by
    simp only [depthOfMembers] at hdepth
    rw [moreMembers]
    simp only [List.cons_append, List.append_assoc]
    rw [run?_mark rfl]
    simp only [Reader.step?, Reader.continue?, Option.bind_some]
    rw [run?_quoteChars]
    simp only [Reader.step?, Reader.takeKey?, Option.bind_some]
    rw [run?_mark rfl]
    simp only [Reader.step?, Option.bind_some]
    rw [run?_chars value (.object reversed key :: stack) .value _ (.inl rfl)
        (by simp; omega) fun _ => endsNumeral_moreMembers members rest,
      rereadMembers, Option.bind_assoc]
    congr 1
    funext read
    rw [Reader.place,
      run?_moreMembers members ((key, read) :: reversed) key stack rest
        (by omega), Option.bind_map]
    simp only [List.reverse_cons, List.append_assoc,
      List.singleton_append]
    rfl

end

end Progress

/-! ## Texts -/

/-- What is read of the text of a value that is no number, unless it is
nested too deep. -/
theorem readBefore?_text {follows : Char → Bool} {maxDepth : Nat}
    {value : Json} (hvalue : ∀ n, value ≠ .number n)
    (hdepth : value.depth ≤ maxDepth) :
    readBefore? follows maxDepth value.text = value.reread := by
  have hrun := @Progress.run?_chars follows maxDepth value [] .value []
    (.inl rfl) (by simpa using hdepth) fun ⟨n, hn⟩ => absurd hn (hvalue n)
  rw [List.append_nil] at hrun
  rw [readBefore?, text, String.toList_ofList]
  change (Progress.run? follows maxDepth _ _).bind _ = _
  rw [Progress.start, Reader.start, hrun]
  cases value.reread <;> rfl

end CampusQuery.Json
