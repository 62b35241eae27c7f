import TopicBus.Decimal.Double

/-!
Reading a decimal as the nearest double, a tie going to the even neighbour. `above` asks on which
side of the point halfway between two neighbouring magnitudes a decimal lies; it turns false once
along the ranks, and `nearestRank` finds that place.
-/

namespace TopicBus

/-- The decimal `digits · 10^exponent`. -/
structure Decimal where
  digits : Nat
  exponent : Int
  deriving DecidableEq, Repr

namespace Decimal

/-- Whether the decimal rounds to a magnitude above rank `r`: it lies above the point halfway to the
next rank, or on it while `r` is odd. -/
def above (x : Decimal) (r : Nat) : Bool :=
  let half := Double.units r + Double.units (r + 1)
  let scaled := x.digits * Nat.pow 2 1075
  let (left, right) :=
    if 0 ≤ x.exponent then (scaled * Nat.pow 10 x.exponent.toNat, half)
    else (scaled, half * Nat.pow 10 (-x.exponent).toNat)
  right < left || (right == left && r % 2 == 1)

/-- The least rank in `[low, low + 2^steps)` that the decimal does not lie above, if any is. -/
def search (x : Decimal) : Nat → Nat → Nat
  | 0, low => low
  | steps + 1, low =>
    let middle := low + Nat.pow 2 steps
    if x.above (middle - 1) then x.search steps middle else x.search steps low

/-- The rank of the nearest magnitude, up to the rank of infinity. Exponents far outside the range
of doubles are settled without computing powers of ten. -/
def nearestRank (x : Decimal) : Nat :=
  if x.digits = 0 then 0
  else if 400 < x.exponent then Double.infinityRank
  else if x.exponent < -400 - (x.digits.log2 + 1 : Nat) then 0
  else if x.above (Double.infinityRank - 1) then Double.infinityRank
  else x.search 63 0

/-- The nearest double, unless the decimal rounds to infinity. -/
def toDouble? (negative : Bool) (x : Decimal) : Option Double :=
  let r := x.nearestRank
  if r < Double.infinityRank then some (.ofRank negative r) else none

end Decimal

/-- The double nearest to an integer; those of 64 bits never reach infinity. -/
def Double.ofInt (n : Int) : Double :=
  .ofRank (n < 0) (Decimal.nearestRank ⟨n.natAbs, 0⟩)

end TopicBus
