import RuleLowering.Binary64.Basic

/-!
# Shortest digits

The decimal with the fewest digits that rounds to a given binary64 number, and of those the
nearest one. The number is held against the grids of the powers of ten from coarse to fine:
on the first grid that has a point among the reals that round to it, one of its two
neighbours is the answer.
-/
namespace RuleLowering.Binary64

/-- The reals that round to one positive number: `low`, `value` and `high` over one denominator.
The ends belong to it when `closed`. -/
structure Cell where
  low : Nat
  value : Nat
  high : Nat
  den : Nat
  closed : Bool
  deriving Repr

/-- The cell of `significand * 2 ^ exponent`. Below a power of two the neighbour is half as far. -/
def cell (significand : Nat) (exponent : Int) : Cell :=
  let below := if significand = pow2 52 ∧ -1074 < exponent then 1 else 2
  let up := pow2 exponent.toNat
  { low := (4 * significand - below) * up
    value := 4 * significand * up
    high := (4 * significand + 2) * up
    den := 4 * pow2 (-exponent).toNat
    closed := significand % 2 == 0 }

namespace Cell

def overPower (c : Cell) (k : Int) : Cell :=
  if 0 ≤ k then { c with den := c.den * pow10 k.toNat }
  else
    let p := pow10 (-k).toNat
    { c with low := c.low * p, value := c.value * p, high := c.high * p }

def has (c : Cell) (n : Nat) : Bool :=
  if c.closed then c.low ≤ n * c.den && n * c.den ≤ c.high
  else c.low < n * c.den && n * c.den < c.high

/-- The positive whole number in the cell that is nearest to its value, a tie to the even one. -/
def nearest? (c : Cell) : Option Nat :=
  let lower := c.value / c.den
  let upper := lower + 1
  let lowerFits := lower ≠ 0 && c.has lower
  if lowerFits && c.has upper then some (roundHalfEven c.value c.den)
  else if lowerFits then some lower
  else if c.has upper then some upper
  else none

/-- Tries the grids `10 ^ k`, `10 ^ (k - 1)`, … in turn. -/
def search (c : Cell) : (grids : Nat) → (k : Int) → Option (Nat × Int)
  | 0, _ => none
  | grids + 1, k =>
    match (c.overPower k).nearest? with
    | some digits => some (digits, k)
    | none => c.search grids (k - 1)

end Cell

/-- Digits and power of ten of the shortest decimal for a positive number. -/
def shortest (significand : Nat) (exponent : Int) : Nat × Int :=
  let top := (significand.log2 + exponent) * 30103 / 100000 + 2
  ((cell significand exponent).search 24 top).getD (significand, exponent)

end RuleLowering.Binary64
