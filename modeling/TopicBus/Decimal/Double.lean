/-!
Double-precision numbers as bit patterns. A finite magnitude is a natural number of units of
2^-1074, so order and distance of magnitudes are questions about natural numbers.
-/

namespace TopicBus

/-- A double-precision number, by its 64 bits: sign, 11 bits of exponent, 52 of fraction. -/
structure Double where
  bits : UInt64
  deriving DecidableEq, Repr

namespace Double

/-- The bits below the sign. Finite magnitudes are in the order of these numbers. -/
def rank (x : Double) : Nat := x.bits.toNat % 0x8000000000000000

def negative (x : Double) : Bool := 0x8000000000000000 ≤ x.bits.toNat

/-- The rank of infinity; larger ranks are not numbers. -/
def infinityRank : Nat := 0x7FF0000000000000

def isFinite (x : Double) : Bool := x.rank < infinityRank

def ofRank (negative : Bool) (rank : Nat) : Double :=
  ⟨UInt64.ofNat (if negative then 0x8000000000000000 + rank else rank)⟩

def infinity (negative : Bool) : Double := ofRank negative infinityRank

def nan : Double := ofRank false (0x7FF8000000000000)

def zero : Double := ofRank false 0

def negativeZero : Double := ofRank true 0

/-- How many fractions there are. -/
def fractions : Nat := 0x10000000000000

/-- The magnitude of rank `r` in units of 2^-1074. -/
def units (r : Nat) : Nat :=
  if r < fractions then r
  else (fractions + r % fractions) * Nat.pow 2 (r / fractions - 1)

/-- The nearest integer, a half going away from zero; infinity counts as the largest power of two
that no finite double reaches, and what is no number as zero. -/
def round (x : Double) : Int :=
  let magnitude : Nat :=
    if infinityRank < x.rank then 0 else (units x.rank + Nat.pow 2 1073) / Nat.pow 2 1074
  if x.negative then -(magnitude : Int) else magnitude

/-- Equality of numbers: the two zeros are equal, and what is not a number equals nothing. -/
def equal (x y : Double) : Bool :=
  (x.rank ≤ infinityRank && y.rank ≤ infinityRank) &&
    (x == y || (x.rank == 0 && y.rank == 0))

end Double

end TopicBus
