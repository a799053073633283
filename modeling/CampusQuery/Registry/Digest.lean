/-
CampusQuery.Registry.Digest — the checksum of a stored text.

The checksum is the BLAKE3 hash of the UTF-8 bytes of the text, as 64
hexadecimal digits. The bytes are cut into chunks of 1024 bytes, each chunk
is chained through its blocks of 64 bytes, and the results are joined in
pairs up a binary tree whose left parts are complete.
-/

namespace CampusQuery.Digest

/-! ## Compression -/

/-- Sixteen words: a block of a message, or a compression state. -/
abbrev Block := Vector UInt32 16

/-- Eight words that stand for everything hashed so far. -/
abbrev Chain := Vector UInt32 8

def initialChain : Chain :=
  #v[0x6A09E667, 0xBB67AE85, 0x3C6EF372, 0xA54FF53A,
    0x510E527F, 0x9B05688C, 0x1F83D9AB, 0x5BE0CD19]

/-- The order in which a round takes the words of the round before. -/
def schedule : Vector (Fin 16) 16 :=
  #v[2, 6, 3, 10, 7, 0, 4, 13, 1, 11, 12, 5, 9, 14, 15, 8]

def rotateRight (word count : UInt32) : UInt32 :=
  (word >>> count) ||| (word <<< (32 - count))

/-- Mixes two message words into four words of the state. -/
def mix (state : Block) (a b c d : Fin 16) (x y : UInt32) : Block :=
  let wa := state[a] + state[b] + x
  let wd := rotateRight (state[d] ^^^ wa) 16
  let wc := state[c] + wd
  let wb := rotateRight (state[b] ^^^ wc) 12
  let wa := wa + wb + y
  let wd := rotateRight (wd ^^^ wa) 8
  let wc := wc + wd
  let wb := rotateRight (wb ^^^ wc) 7
  (((state.set a wa).set b wb).set c wc).set d wd

/-- Mixes the columns of the state and then its diagonals. -/
def round (state message : Block) : Block :=
  let state := mix state 0 4 8 12 message[0] message[1]
  let state := mix state 1 5 9 13 message[2] message[3]
  let state := mix state 2 6 10 14 message[4] message[5]
  let state := mix state 3 7 11 15 message[6] message[7]
  let state := mix state 0 5 10 15 message[8] message[9]
  let state := mix state 1 6 11 12 message[10] message[11]
  let state := mix state 2 7 8 13 message[12] message[13]
  mix state 3 4 9 14 message[14] message[15]

def permute (message : Block) : Block := schedule.map fun i => message[i]

/-- A number of rounds, the words reordered between them. -/
def rounds : Nat → Block → Block → Block
  | 0, state, _ => state
  | count + 1, state, message =>
    rounds count (round state message) (permute message)

/-- A compression that is ready to run. -/
structure Node where
  chain : Chain
  block : Block
  counter : Nat
  length : Nat
  flags : UInt32

namespace Node

/-- The chain that comes out of a compression with more flags set. -/
def compress (node : Node) (flags : UInt32) : Chain :=
  let h := node.chain
  let v := initialChain
  let state : Block :=
    #v[h[0], h[1], h[2], h[3], h[4], h[5], h[6], h[7],
      v[0], v[1], v[2], v[3],
      node.counter.toUInt32, (node.counter / 4294967296).toUInt32,
      node.length.toUInt32, node.flags ||| flags]
  let state := rounds 7 state node.block
  Vector.ofFn fun i : Fin 8 =>
    state.get ⟨i.val, by omega⟩ ^^^ state.get ⟨i.val + 8, by omega⟩

end Node

/-! ## Chunks -/

def chunkStart : UInt32 := 1

def chunkEnd : UInt32 := 2

def parentFlag : UInt32 := 4

def rootFlag : UInt32 := 8

def byteAt (bytes : ByteArray) (i : Nat) : UInt32 :=
  if h : i < bytes.size then bytes[i].toUInt32 else 0

/-- The word whose lowest byte is at a position. -/
def wordAt (bytes : ByteArray) (i : Nat) : UInt32 :=
  byteAt bytes i ||| (byteAt bytes (i + 1) <<< 8) |||
    (byteAt bytes (i + 2) <<< 16) ||| (byteAt bytes (i + 3) <<< 24)

def blockAt (bytes : ByteArray) (start : Nat) : Block :=
  Vector.ofFn fun i : Fin 16 => wordAt bytes (start + 4 * i.val)

/-- The last compression of a chunk, of which `more` blocks follow the one
at `start`. -/
def lastOfChunk (bytes : ByteArray) (counter stop : Nat) :
    Nat → Chain → Nat → UInt32 → Node
  | 0, chain, start, flags =>
    { chain, block := blockAt bytes start, counter
      length := stop - start, flags := flags ||| chunkEnd }
  | more + 1, chain, start, flags =>
    let node : Node :=
      { chain, block := blockAt bytes start, counter, length := 64, flags }
    lastOfChunk bytes counter stop more (node.compress 0) (start + 64) 0

def chunkNode (bytes : ByteArray) (counter : Nat) : Node :=
  let start := 1024 * counter
  let stop := min bytes.size (start + 1024)
  lastOfChunk bytes counter stop ((stop - start - 1) / 64) initialChain start
    chunkStart

/-! ## Trees -/

/-- How many of a row of chunks go to the left: the largest power of two
that leaves something for the right. -/
def leftSize (count : Nat) : Nat :=
  if count ≤ 2 then 1 else 2 * leftSize ((count + 1) / 2)
termination_by count

/-- Both sides of a row of two chunks or more get some. -/
theorem leftSize_bounds (count : Nat) (h : 2 ≤ count) :
    0 < leftSize count ∧ leftSize count < count := by
  induction count using Nat.strongRecOn with
  | ind count ih =>
    rw [leftSize]
    split
    · omega
    · have := ih ((count + 1) / 2) (by omega) (by omega)
      omega

/-- The last compression of a row of chunks. -/
def treeNode (bytes : ByteArray) (first count : Nat) : Node :=
  if count ≤ 1 then chunkNode bytes first
  else
    let left := leftSize count
    let a := (treeNode bytes first left).compress 0
    let b := (treeNode bytes (first + left) (count - left)).compress 0
    { chain := initialChain, block := a ++ b, counter := 0, length := 64
      flags := parentFlag }
termination_by count
decreasing_by
  · exact (leftSize_bounds count (Nat.lt_of_not_le ‹_›)).2
  · have bounds := leftSize_bounds count (Nat.lt_of_not_le ‹_›)
    exact Nat.sub_lt (Nat.lt_trans bounds.1 bounds.2) bounds.1

def hash (bytes : ByteArray) : Chain :=
  (treeNode bytes 0 ((bytes.size + 1023) / 1024)).compress rootFlag

/-! ## Text -/

/-- The two hexadecimal digits of a byte of a word. -/
def hexByte (word : UInt32) (index : Nat) : List Char :=
  let byte := (word >>> (8 * index).toUInt32).toNat % 256
  [Nat.digitChar (byte / 16), Nat.digitChar (byte % 16)]

def ofText (text : String) : String :=
  String.ofList <| (hash text.toUTF8).toList.flatMap fun word =>
    (List.range 4).flatMap (hexByte word)

end CampusQuery.Digest
