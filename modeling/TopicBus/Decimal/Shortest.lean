import TopicBus.Decimal.Nearest

/-!
The shortest decimal that reads back as a given magnitude. Grids of multiples of a power of ten are
tried from coarse to fine; the first with a point that reads back gives the digits, of two such
points the nearer, of two equally near ones the even.
-/

namespace TopicBus.Decimal

/-- Whether the decimal reads as the magnitude of rank `r`. -/
def readsAs (x : Decimal) (r : Nat) : Bool :=
  !x.above r && (r == 0 || x.above (r - 1))

/-- The point of the grid `10^exponent` that reads as rank `r` and is nearest to it. -/
def onGrid? (r : Nat) (exponent : Int) : Option Decimal :=
  let (value, step) :=
    if 0 ≤ exponent then (Double.units r, Nat.pow 2 1074 * Nat.pow 10 exponent.toNat)
    else (Double.units r * Nat.pow 10 (-exponent).toNat, Nat.pow 2 1074)
  let floor : Nat := value / step
  let rest := value % step
  let below : Decimal := ⟨floor, exponent⟩
  let above : Decimal := ⟨floor + 1, exponent⟩
  match below.readsAs r, above.readsAs r with
  | true, true =>
    let upper := step < 2 * rest || (2 * rest == step && floor % 2 == 1)
    some (if upper then above else below)
  | true, false => some below
  | false, true => some above
  | false, false => none

/-- The first grid from `exponent` downwards that holds a point for rank `r`. -/
def finerGrids (r : Nat) : Nat → Int → Decimal
  | 0, exponent => ⟨Double.units r, exponent⟩
  | fuel + 1, exponent => (onGrid? r exponent).getD (finerGrids r fuel (exponent - 1))

/-- An exponent of ten whose power is above the magnitude of rank `r`. -/
def coarse (r : Nat) : Int := ((Double.units r).log2 - 1074 : Int) * 30103 / 100000 + 2

/-- The shortest decimal for the magnitude of rank `r > 0`. On the grid of 10^-1074 every magnitude
is a point, so the search ends there at the latest. -/
def shortest (r : Nat) : Decimal := finerGrids r (coarse r + 1075).toNat (coarse r)

end TopicBus.Decimal
