/-
CampusQuery.Numeric.Binary64 — binary floating-point numbers of 53
significant bits, held exactly.

A finite number is a whole number of units of 2 ^ -1074, so every
operation here is arithmetic on `Nat` and `Int` followed by one rounding.
Magnitudes are numbered upwards from zero: `Magnitude.rank` is that number,
`Magnitude.units` the value it stands for, and infinity comes directly
after the largest finite magnitude. Comparison needs the rank and the sign
only, because the numbering keeps the order of the values.
-/
import CampusQuery.Numeric.Rounding

namespace CampusQuery.Numeric

/-! ## Magnitudes -/

/-- How many magnitudes there are from a power of two up to the next. -/
def binade : Nat := twoTo 52

/-- The rank of infinity, the last of all magnitudes. -/
def infinityRank : Nat := 2047 * binade

def unitsPerOne : Nat := twoTo 1074

/-- The size of a number without its sign, numbered from zero upwards. -/
structure Magnitude where
  rank : Nat
  rank_le : rank ≤ infinityRank
deriving DecidableEq

namespace Magnitude

/-- The value of the magnitude of a rank, in units. In the first two binades
magnitudes are one unit apart; after that the step doubles with each. -/
def unitsAt (rank : Nat) : Nat :=
  if rank / binade = 0 then rank
  else (binade + rank % binade) * twoTo (rank / binade - 1)

def units (m : Magnitude) : Nat := unitsAt m.rank

def isFinite (m : Magnitude) : Bool := m.rank < infinityRank

def zero : Magnitude := ⟨0, Nat.zero_le _⟩

def infinity : Magnitude := ⟨infinityRank, Nat.le_refl _⟩

/-- The magnitude nearest to `num / den` units; halfway it is the one of
even rank, and from half a step above the largest finite one on it is
infinity. -/
def nearest (num den : Nat) : Magnitude :=
  let shift := (num / den).log2 - 52
  ⟨min infinityRank (shift * binade + roundHalfEven num (den * twoTo shift)),
    Nat.min_le_left _ _⟩

end Magnitude

/-! ## Numbers -/

/-- A floating-point number: no number at all, or a sign and a magnitude. -/
inductive Binary64
  | nan
  | signed (negative : Bool) (magnitude : Magnitude)
deriving DecidableEq

namespace Binary64

def zero : Binary64 := .signed false .zero

def infinity (negative : Bool) : Binary64 := .signed negative .infinity

instance : Inhabited Binary64 := ⟨zero⟩

def ofRatio (negative : Bool) (num den : Nat) : Binary64 :=
  .signed negative (.nearest (num * unitsPerOne) den)

def ofInt (n : Int) : Binary64 :=
  ofRatio (n < 0) n.natAbs 1

def isFinite : Binary64 → Bool
  | nan => false
  | signed _ magnitude => magnitude.isFinite

def units? : Binary64 → Option Int
  | nan => none
  | signed negative magnitude =>
    if magnitude.isFinite then
      some (if negative then -(magnitude.units : Int) else magnitude.units)
    else none

/-! ### Comparison -/

/-- The place of a number in the order of the values; both zeros share one. -/
def orderKey? : Binary64 → Option Int
  | nan => none
  | signed negative magnitude =>
    some (if negative then -(magnitude.rank : Int) else magnitude.rank)

/-- How two numbers compare; nothing compares with "no number". -/
def compare? (x y : Binary64) : Option Ordering :=
  match x.orderKey?, y.orderKey? with
  | some a, some b => some (compare a b)
  | _, _ => none

/-- Equal as values: the two zeros are equal, "no number" equals nothing. -/
def equals (x y : Binary64) : Bool := x.compare? y == some .eq

def less (x y : Binary64) : Bool := x.compare? y == some .lt

def greater (x y : Binary64) : Bool := x.compare? y == some .gt

/-! ### Addition -/

/-- The nearest number to a sum of units. A sum of zero is negative only
when both summands are. -/
def ofUnits (total : Int) (bothNegative : Bool) : Binary64 :=
  if total = 0 then .signed bothNegative .zero
  else .signed (total < 0) (.nearest total.natAbs 1)

/-- The sum, rounded once. Infinities of opposite sign have none. -/
def add : Binary64 → Binary64 → Binary64
  | signed s a, signed t b =>
    match (signed s a).units?, (signed t b).units? with
    | some x, some y => ofUnits (x + y) (s && t)
    | none, some _ => signed s a
    | some _, none => signed t b
    | none, none => if s = t then signed s a else nan
  | _, _ => nan

def sum (numbers : List Binary64) : Binary64 := numbers.foldl add zero

def negate : Binary64 → Binary64
  | nan => nan
  | signed negative magnitude => signed (!negative) magnitude

def subtract (x y : Binary64) : Binary64 := x.add y.negate

/-! ### Multiplication and division -/

/-- The product, rounded once. Zero times infinity has none. -/
def multiply : Binary64 → Binary64 → Binary64
  | signed s a, signed t b =>
    if a.isFinite && b.isFinite then
      signed (s != t) (.nearest (a.units * b.units) unitsPerOne)
    else if a = .zero ∨ b = .zero then nan
    else infinity (s != t)
  | _, _ => nan

/-- The quotient, rounded once. Neither zero by zero nor infinity by infinity
has one. -/
def divide : Binary64 → Binary64 → Binary64
  | signed s a, signed t b =>
    if b.isFinite then
      if a.isFinite && b ≠ .zero then
        signed (s != t) (.nearest (a.units * unitsPerOne) b.units)
      else if a = .zero then nan
      else infinity (s != t)
    else if a.isFinite then signed (s != t) .zero
    else nan
  | _, _ => nan

/-! ### Whole numbers -/

/-- Whole numbers are told from others below this size, 2 ^ 53. -/
def wholeBound : Nat := twoTo 53

def exactInt? (x : Binary64) : Option Int := do
  let units ← x.units?
  if units % unitsPerOne = 0 then some (units / unitsPerOne) else none

/-- The whole number that a number of size below 2 ^ 53 is, if it is one. -/
def toWhole? (x : Binary64) : Option Int :=
  x.exactInt?.filter fun whole => whole.natAbs < wholeBound

end Binary64

end CampusQuery.Numeric
