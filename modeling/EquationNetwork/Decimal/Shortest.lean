import EquationNetwork.Decimal.Binary
import EquationNetwork.Decimal.Positional

/-!
# The shortest decimal text of a double

The reals that round to a double form an interval around it. Its shortest text comes from the
coarsest grid of multiples of a power of ten that has a point in this interval: of the grid's points
there the nearest to the double is written, and of two equally near the upper one.

* `gridPoint` is the chosen multiple of `10 ^ k`, if the grid has a point in the interval.
* `shortest` is the first hit when the grids are refined step by step.
* `shortestText` is the text; it is always positional, and a whole number has no point.

The interval is measured in quarters of the mantissa's unit, so that its ends are whole numbers.
-/

namespace EquationNetwork.Decimal

namespace Binary

/-- How far the interval reaches below the double, in quarter units. It is half as far at a power of
two, whose lower neighbour has a finer unit. -/
def reachBelow (b : Binary) : Nat :=
  if b.mantissa = hiddenBit ∧ leastExponent < b.exponent then 1 else 2

/-- How far the interval reaches above the double, in quarter units. -/
def reachAbove : Nat := 2

/-- The factor that brings quarter units to the scale on which they meet the grid `10 ^ k`. -/
def unitScale (b : Binary) (k : Int) : Nat :=
  Nat.pow 2 (b.exponent - 2).toNat * Nat.pow 10 (-k).toNat

/-- The factor that brings multiples of `10 ^ k` to the same scale. -/
def gridScale (b : Binary) (k : Int) : Nat :=
  Nat.pow 10 k.toNat * Nat.pow 2 (2 - b.exponent).toNat

/-- Does `d · 10 ^ k` round to this double? The ends of the interval do exactly if the mantissa is
even. -/
def roundsHere (b : Binary) (k : Int) (d : Nat) : Bool :=
  let low := (4 * b.mantissa - b.reachBelow) * b.unitScale k
  let high := (4 * b.mantissa + reachAbove) * b.unitScale k
  let point := d * b.gridScale k
  if b.mantissa % 2 = 0 then low ≤ point && point ≤ high else low < point && point < high

/-- The multiple of `10 ^ k` nearest to the double among those that round to it, the upper one of
two equally near. Only the multiples next to the double need a look. -/
def gridPoint (b : Binary) (k : Int) : Option Nat :=
  let exact := 4 * b.mantissa * b.unitScale k
  let grid := b.gridScale k
  let below := exact / grid
  match b.roundsHere k below, b.roundsHere k (below + 1) with
  | false, false => none
  | true, false => some below
  | false, true => some (below + 1)
  | true, true =>
      if exact - below * grid < (below + 1) * grid - exact then some below else some (below + 1)

/-- An exponent of ten above every grid that can have a point in the interval. -/
def coarseExponent (b : Binary) : Int :=
  (b.exponent + (b.mantissa.log2 + 1 : Nat)) * 30103 / 100000 + 2

/-- The first hit among the grids `10 ^ k`, `10 ^ (k - 1)`, …, tried `steps` times. -/
def refine (b : Binary) : (steps : Nat) → (k : Int) → Nat × Int
  | 0, k => (4 * b.mantissa * b.unitScale k / b.gridScale k, k)
  | steps + 1, k =>
      match b.gridPoint k with
      | some d => (d, k)
      | none => b.refine steps (k - 1)

/-- The shortest `digits · 10 ^ exponent` that rounds to the double. Seventeen digits always do, and
the search starts at most three places too high, so that the steps suffice. -/
def shortest (b : Binary) : Nat × Int := b.refine 24 b.coarseExponent

end Binary

/-- The text of a double. NaN has no sign, and the sign of zero is kept. -/
def shortestChars (x : Float) : List Char :=
  match Parts.ofFloat x with
  | .nan => "NaN".toList
  | .infinity negative => signed negative "inf".toList
  | .finite b =>
      signed b.negative
        (if b.mantissa = 0 then ['0'] else positional b.shortest.1 b.shortest.2)

/-- The shortest text that reads back as the same double. -/
def shortestText (x : Float) : String := String.ofList (shortestChars x)

end EquationNetwork.Decimal
