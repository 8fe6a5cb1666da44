import RelationalMapper.Json.Basic
import RelationalMapper.Text.Digits

set_option autoImplicit false

namespace RelationalMapper.Json

structure NumberLiteral where
  negative : Bool
  whole : List Char
  fraction : List Char
  exponent : Option (Bool × List Char)

namespace NumberLiteral

/-- Appends digits while the number stays below `2 ^ 64`; with it, how many were taken. -/
def absorb : Nat × Nat → List Char → Nat × Nat
  | taken, [] => taken
  | (number, count), char :: rest =>
    let next := number * 10 + Text.numberOf 10 [char]
    if next < Nat.pow 2 64 then absorb (next, count + 1) rest else (number, count)

def largestExponent : Nat := Nat.pow 2 31 - 1

def clamp (exponent : Int) : Int :=
  max (-(Nat.pow 2 31 : Int)) (min (largestExponent : Int) exponent)

def powerOfTen (exponent : Nat) : Float :=
  Float.ofScientific 1 false exponent

-- No power of ten above the 308th is a real; smaller reals take several divisions.
def scale? (significand : Nat) (exponent : Int) : Option Float :=
  let number := (UInt64.ofNat significand).toFloat
  if significand = 0 then some number
  else if 308 < exponent then none
  else if 0 ≤ exponent then
    let scaled := number * powerOfTen exponent.toNat
    if scaled.isInf then none else some scaled
  else if -308 ≤ exponent then some (number / powerOfTen (-exponent).toNat)
  else if -616 ≤ exponent then
    some (number / powerOfTen 308 / powerOfTen (-exponent - 308).toNat)
  else some 0

def signed (negative : Bool) (number : Float) : Json :=
  .real ⟨(if negative then -number else number).toBits⟩

def scaled (literal : NumberLiteral) (significand : Nat) (shift : Int) : Json :=
  match literal.exponent with
  | none => (scale? significand shift).elim .unrepresentable (signed literal.negative)
  | some (down, digits) =>
    let exponent := Text.numberOf 10 digits
    -- Such an exponent decides alone; zero stays zero.
    if largestExponent < exponent then
      if significand ≠ 0 ∧ !down then .unrepresentable else signed literal.negative 0
    else
      let exponent := clamp (if down then shift - exponent else shift + exponent)
      (scale? significand exponent).elim .unrepresentable (signed literal.negative)

-- A negative zero is a real, as is every integer outside sixty-four bits.
def value (literal : NumberLiteral) : Json :=
  -- Digits that no longer fit only shift the power of ten.
  let (significand, taken) := absorb (0, 0) literal.whole
  let dropped := literal.whole.length - taken
  if literal.fraction.isEmpty ∧ literal.exponent.isNone ∧ dropped = 0 then
    if literal.negative then
      if significand = 0 ∨ Nat.pow 2 63 < significand then
        signed true (UInt64.ofNat significand).toFloat
      else .integer (-significand)
    else .integer significand
  else
    let (significand, places) := absorb (significand, 0) literal.fraction
    literal.scaled significand ((dropped : Int) - places)

end NumberLiteral

end RelationalMapper.Json
