import GpuPlacement.Number.Binary
/-!
The fewest decimal digits that read back to a given word. On each decimal grid, from coarse to
fine, the two neighbours of the value are tested against the interval of numbers that round to the
word; the first grid with a hit decides, and of two hits the nearer one.
-/
namespace GpuPlacement

/-- Which of two equally near decimals is taken. -/
inductive DecimalTie where
  | upward
  | toEven
  deriving DecidableEq

/-- The magnitude `digits * 10 ^ exponent`. -/
structure DecimalDigits where
  digits : Nat
  exponent : Int
  deriving DecidableEq

namespace DecimalDigits

/-- A positive value and the numbers that round to it, all in quarters of a unit of the value's
last place; the unit is `2 ^ exponent`. -/
structure Rounding where
  value : Nat
  low : Nat
  high : Nat
  inclusive : Bool
  exponent : Int

/-- The numbers nearer to a significand than to its neighbours. Below a power of two the
neighbour is only half as far, and an even significand also owns the two midpoints. -/
def Rounding.around (format : BinaryFormat) (significand : Nat) (exponent : Int) : Rounding where
  value := 4 * significand
  low :=
    if significand = Nat.pow 2 format.fractionBits && format.leastExponent < exponent then
      4 * significand - 1
    else 4 * significand - 2
  high := 4 * significand + 2
  inclusive := significand % 2 = 0
  exponent := exponent - 2

/-- A step `10 ^ place` of a decimal grid and a quarter unit of a value, brought to one unit. -/
structure Scale where
  step : Nat
  quarter : Nat

def Rounding.scale (rounding : Rounding) (place : Int) : Scale where
  step := Nat.pow 10 place.toNat * Nat.pow 2 (-rounding.exponent).toNat
  quarter := Nat.pow 2 rounding.exponent.toNat * Nat.pow 10 (-place).toNat

def Rounding.contains (rounding : Rounding) (scale : Scale) (multiple : Nat) : Bool :=
  let point := multiple * scale.step
  if rounding.inclusive then
    decide (rounding.low * scale.quarter ≤ point ∧ point ≤ rounding.high * scale.quarter)
  else decide (rounding.low * scale.quarter < point ∧ point < rounding.high * scale.quarter)

/-- The neighbour of the value on one grid that reads back, if there is one. -/
def Rounding.candidate? (rounding : Rounding) (tie : DecimalTie) (place : Int) : Option Nat :=
  let scale := rounding.scale place
  let value := rounding.value * scale.quarter
  let below := value / scale.step
  let twice := 2 * (value % scale.step)
  match rounding.contains scale below && decide (0 < below),
      rounding.contains scale (below + 1) with
  | true, true =>
    if twice < scale.step then some below
    else if scale.step < twice then some (below + 1)
    else
      match tie with
      | .upward => some (below + 1)
      | .toEven => some (below + below % 2)
  | true, false => some below
  | false, true => some (below + 1)
  | false, false => none

/-- The first place, from coarse to fine, with a candidate; seventeen digits always suffice. -/
def Rounding.search (rounding : Rounding) (tie : DecimalTie) : Nat → Int → DecimalDigits
  | 0, place =>
    let scale := rounding.scale place
    ⟨rounding.value * scale.quarter / scale.step, place⟩
  | grids + 1, place =>
    match rounding.candidate? tie place with
    | some digits => ⟨digits, place⟩
    | none => rounding.search tie grids (place - 1)

/-- A place at or just above the value's leading decimal digit. -/
def Rounding.leadingPlace (rounding : Rounding) : Int :=
  let digitCount := fun n => ((Nat.toDigits 10 n).length : Int)
  digitCount (rounding.value * Nat.pow 2 rounding.exponent.toNat)
    - digitCount (Nat.pow 2 (-rounding.exponent).toNat)

/-- Without trailing zeros. -/
def normalize : Nat → DecimalDigits → DecimalDigits
  | 0, decimal => decimal
  | steps + 1, decimal =>
    if decimal.digits ≠ 0 && decimal.digits % 10 = 0 then
      normalize steps ⟨decimal.digits / 10, decimal.exponent + 1⟩
    else decimal

/-- The fewest digits that read back to `significand * 2 ^ exponent` in a format. -/
def shortest (format : BinaryFormat) (tie : DecimalTie) (significand : Nat) (exponent : Int) :
    DecimalDigits :=
  let rounding := Rounding.around format significand exponent
  normalize 20 (rounding.search tie 20 rounding.leadingPlace)

end DecimalDigits

end GpuPlacement
