/-
CampusQuery.Numeric.DoubleLength — numbers held as a sum of two.

The head is a floating-point number and the tail another one that says what
the head is short of, so both together have about twice as many bits.
`times` multiplies two such numbers with the arithmetic of floating-point
numbers alone: it cuts both heads in two, since a product of halves loses at
most its last bit, and gathers in the tail what the head of the product has
lost. `scaled` moves the decimal point by strides of a hundred, ten and one
places. Every stride is one more product, so the last bits of a number that
was moved far are not exact, and they depend on the strides.
-/
import CampusQuery.Numeric.Binary64

namespace CampusQuery.Numeric

namespace Binary64

/-- How many bits the lower half of a number has. -/
def lowerBits : Nat := 26

/-- The number with the bits of its lower half cleared. -/
def upperHalf : Binary64 → Binary64
  | nan => nan
  | signed negative magnitude =>
    signed negative
      ⟨magnitude.rank - magnitude.rank % twoTo lowerBits,
        Nat.le_trans (Nat.sub_le _ _) magnitude.rank_le⟩

def lowerHalf (x : Binary64) : Binary64 := x.subtract x.upperHalf

end Binary64

/-- A number `head + tail`, the tail small beside the head. -/
structure DoubleLength where
  head : Binary64
  tail : Binary64
deriving DecidableEq

namespace DoubleLength

/-! ## Constants -/

def ofRatio (num den : Nat) : DoubleLength :=
  let head := Magnitude.nearest (num * unitsPerOne) den
  let rest : Int := num * unitsPerOne - head.units * den
  ⟨.signed false head, .signed (rest < 0) (.nearest rest.natAbs den)⟩

def tenPower (places : Int) : DoubleLength :=
  ofRatio (tenTo places.toNat) (tenTo (-places).toNat)

/-! ## Products -/

def product (x y : Binary64) : DoubleLength :=
  let upper := x.upperHalf.multiply y.upperHalf
  let middle :=
    (x.upperHalf.multiply y.lowerHalf).add (x.lowerHalf.multiply y.upperHalf)
  let lower := x.lowerHalf.multiply y.lowerHalf
  let head := upper.add middle
  ⟨head, ((upper.subtract head).add middle).add lower⟩

/-- The product of two numbers, without the product of their tails. -/
def times (x y : DoubleLength) : DoubleLength :=
  let main := product x.head y.head
  let crossed := (x.head.multiply y.tail).add (x.tail.multiply y.head)
  let rest := crossed.add main.tail
  let head := main.head.add rest
  ⟨head, (main.head.subtract head).add rest⟩

/-- The number with its point moved by so many places, in strides. -/
def scaled (x : DoubleLength) (places : Int) : DoubleLength :=
  let stride (size : Nat) : DoubleLength :=
    tenPower (if places < 0 then -(size : Int) else size)
  let go (size count : Nat) (x : DoubleLength) : DoubleLength :=
    let factor := stride size
    Nat.repeat (·.times factor) count x
  let count := places.natAbs
  go 1 (count % 10) (go 10 (count % 100 / 10) (go 100 (count / 100) x))

/-- The floating-point number nearest to the sum. -/
def value (x : DoubleLength) : Binary64 := x.head.add x.tail

end DoubleLength

end CampusQuery.Numeric
