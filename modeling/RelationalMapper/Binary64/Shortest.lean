import RelationalMapper.Binary64.Basic

/-!
The fewest decimal digits that read back to a real. A decimal reads back when it lies among the reals
that round to this one, which reach halfway to either neighbour and include their ends when the
significand is even. On each decimal grid, coarsest first, only the two points next to the real can
be the nearest that reads back.
-/

set_option autoImplicit false

namespace RelationalMapper

structure Decimal where
  digits : Nat
  exponent : Int
deriving DecidableEq

namespace Decimal

-- Without an exponent, and with a fraction only where it is not zero.
def positional (decimal : Decimal) : String :=
  let digits := (Nat.repr decimal.digits).toList
  let shift := (-decimal.exponent).toNat
  let padded := List.replicate (shift + 1 - digits.length) '0' ++ digits ++
    List.replicate decimal.exponent.toNat '0'
  let whole := padded.take (padded.length - shift)
  let fraction := ((padded.drop (padded.length - shift)).reverse.dropWhile (· = '0')).reverse
  String.ofList (if fraction.isEmpty then whole else whole ++ '.' :: fraction)

end Decimal

/-- The reals that round to one positive real: `middle`, `low` and `high` over `denominator`. -/
structure RoundingRange where
  low : Nat
  middle : Nat
  high : Nat
  denominator : Nat
  closed : Bool

namespace RoundingRange

def of (real : Binary64) : RoundingRange :=
  let quarter := real.exponent - 2
  let scale := Nat.pow 2 quarter.toNat
  let significand := 4 * real.significand
  -- In quarters of a unit of the significand, halfway to a neighbour is a whole number.
  { low := (if real.closeBelow then significand - 1 else significand - 2) * scale
    middle := significand * scale
    high := (significand + 2) * scale
    denominator := Nat.pow 2 (-quarter).toNat
    closed := real.significand % 2 = 0 }

-- Whether `digits` times the grid's unit reads back; both sides are multiplied out.
def holds (range : RoundingRange) (unit stretch digits : Nat) : Bool :=
  if range.closed then
    range.low * stretch ≤ digits * unit && digits * unit ≤ range.high * stretch
  else range.low * stretch < digits * unit && digits * unit < range.high * stretch

-- The nearest multiple of `10 ^ exponent` that reads back; the larger of two equally near.
def onGrid? (range : RoundingRange) (exponent : Int) : Option Nat :=
  let unit := range.denominator * Nat.pow 10 exponent.toNat
  let stretch := Nat.pow 10 (-exponent).toNat
  let below := range.middle * stretch / unit
  match range.holds unit stretch below, range.holds unit stretch (below + 1) with
  | true, true =>
    -- The real lies between the two; its distance decides.
    if 2 * range.middle * stretch < (2 * below + 1) * unit then some below else some (below + 1)
  | true, false => some below
  | false, true => some (below + 1)
  | false, false => none

def magnitude (range : RoundingRange) : Int :=
  if range.denominator ≤ range.middle then
    ((Nat.toDigits 10 (range.middle / range.denominator)).length : Int)
  else 1 - ((Nat.toDigits 10 ((range.denominator - 1) / range.middle)).length : Int)

-- Seventeen digits always suffice; the middle itself stands in for an eighteenth.
def shortest (range : RoundingRange) : Decimal :=
  let grids := (List.range 17).map fun (place : Nat) => range.magnitude - 1 - (place : Int)
  match grids.findSome? fun exponent => (range.onGrid? exponent).map (⟨·, exponent⟩) with
  | some decimal => decimal
  | none =>
    let places := range.denominator.log2
    ⟨range.middle * Nat.pow 5 places, -(places : Int)⟩

end RoundingRange

def Binary64.display (real : Binary64) : String :=
  if real.isNaN then "NaN"
  else
    let magnitude :=
      if !real.isFinite then "inf"
      else if real.significand = 0 then "0"
      else (RoundingRange.of real).shortest.positional
    if real.negative then "-" ++ magnitude else magnitude

end RelationalMapper
