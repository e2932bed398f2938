import LoxLang.Decimal.Binary

/-!
# Shortest decimals

A finite positive number is the nearest one to all decimals in an interval around it. The shortest
decimal of the number is the one on the coarsest decimal grid that has a point in this interval, of
two points the nearer to the number, and of two equally near ones the even one. If a grid has a
point in the interval, then one of the two neighbours of the number on that grid is such a point,
so that it is enough to look at these.
-/

namespace LoxLang
namespace Decimal

-- Powers are those of the core library, whichever other instances are in scope.
attribute [local instance (high)] instPowNat

/-- A positive decimal `digits · 10 ^ exponent`. -/
structure Scaled where
  digits : Nat
  exponent : Int

/-- The interval of the decimals that are read as one number. Its ends `low` and `high` and the
number `value` itself are multiples of `2 ^ exponent`, and `closed` says whether the ends belong to
the interval. -/
structure Rounding where
  low : Nat
  value : Nat
  high : Nat
  exponent : Int
  closed : Bool

namespace Rounding

/-- The interval around `significand · 2 ^ exponent`. It reaches half way to the neighbouring
numbers, of which the lower one is nearer at a power of two; a half is rounded to even, so the ends
belong to the numbers with an even significand. -/
def around (significand : Nat) (exponent : Int) : Rounding where
  low :=
    if significand == 2 ^ Binary.fractionBits && Binary.leastExponent < exponent then
      4 * significand - 1
    else 4 * significand - 2
  value := 4 * significand
  high := 4 * significand + 2
  exponent := exponent - 2
  closed := significand % 2 == 0

/-- The factor that turns a multiple of `2 ^ exponent` into one of the common unit of this
interval and the grid `10 ^ grid`. -/
def binaryUnit (interval : Rounding) (grid : Int) : Nat :=
  2 ^ interval.exponent.toNat * 10 ^ (-grid).toNat

/-- The factor that turns a multiple of `10 ^ grid` into one of the common unit of this interval
and the grid. -/
def decimalUnit (interval : Rounding) (grid : Int) : Nat :=
  10 ^ grid.toNat * 2 ^ (-interval.exponent).toNat

/-- Whether the decimal `digits · 10 ^ grid` lies in the interval. -/
def contains (interval : Rounding) (grid : Int) (digits : Nat) : Bool :=
  let point := digits * interval.decimalUnit grid
  let low := interval.low * interval.binaryUnit grid
  let high := interval.high * interval.binaryUnit grid
  if interval.closed then low ≤ point && point ≤ high else low < point && point < high

/-- The point of the grid `10 ^ grid` in the interval that is nearest to its number. -/
def nearestOn? (interval : Rounding) (grid : Int) : Option Nat :=
  let unit := interval.decimalUnit grid
  let value := interval.value * interval.binaryUnit grid
  let below := value / unit
  match interval.contains grid below, interval.contains grid (below + 1) with
  | false, false => none
  | true, false => some below
  | false, true => some (below + 1)
  | true, true => some (divideToEven value unit)

/-- The nearest point on the coarsest of the grids `10 ^ grid`, `10 ^ (grid - 1)`, … that has one
in the interval, among at most `fuel` grids before the last. -/
def shortestFrom (interval : Rounding) (grid : Int) : Nat → Scaled
  | 0 => ⟨interval.value * interval.binaryUnit grid / interval.decimalUnit grid, grid⟩
  | fuel + 1 =>
      match interval.nearestOn? grid with
      | some digits => ⟨digits, grid⟩
      | none => interval.shortestFrom (grid - 1) fuel

end Rounding

/-- The shortest decimal of the positive number `significand · 2 ^ exponent`. The search starts at
a power of ten above the number; a decimal with seventeen digits is always in the interval. -/
def shortest (significand : Nat) (exponent : Int) : Scaled :=
  let magnitude : Int := (significand.log2 + 1 : Nat) + exponent
  (Rounding.around significand exponent).shortestFrom (magnitude * 30103 / 100000 + 1) 20

end Decimal
end LoxLang
