set_option autoImplicit false

namespace RelationalMapper

structure Binary64 where
  bits : UInt64
deriving DecidableEq, Inhabited

namespace Binary64

def negative (real : Binary64) : Bool :=
  real.bits >>> 63 != 0

def biasedExponent (real : Binary64) : Nat :=
  ((real.bits >>> 52) &&& 0x7FF).toNat

def fraction (real : Binary64) : Nat :=
  (real.bits &&& 0xFFFFFFFFFFFFF).toNat

def isFinite (real : Binary64) : Bool :=
  real.biasedExponent < 0x7FF

def isNaN (real : Binary64) : Bool :=
  !real.isFinite && real.fraction != 0

def exponent (real : Binary64) : Int :=
  if real.biasedExponent = 0 then -1074 else (real.biasedExponent : Int) - 1075

def significand (real : Binary64) : Nat :=
  if real.biasedExponent = 0 then real.fraction else Nat.pow 2 52 + real.fraction

-- The neighbour towards zero is only half as far as the one away from zero.
def closeBelow (real : Binary64) : Bool :=
  real.fraction = 0 && real.biasedExponent > 1

def ofFields (negative : Bool) (biasedExponent fraction : Nat) : Binary64 :=
  ⟨UInt64.ofNat ((if negative then Nat.pow 2 63 else 0) + biasedExponent * Nat.pow 2 52 + fraction)⟩

-- The double of the same value as a single; a NaN keeps its payload and becomes quiet.
def ofSingle (single : UInt32) : Binary64 :=
  let negative := single >>> 31 != 0
  let biased := ((single >>> 23) &&& 0xFF).toNat
  let fraction := (single &&& 0x7FFFFF).toNat
  if biased = 0xFF then
    if fraction = 0 then ofFields negative 0x7FF 0
    else ofFields negative 0x7FF (Nat.pow 2 51 + fraction % Nat.pow 2 22 * Nat.pow 2 29)
  else if biased = 0 then
    if fraction = 0 then ofFields negative 0 0
    else
      -- The exponent range of a double holds every subnormal single with a leading one.
      let top := fraction.log2
      ofFields negative (top + 874) ((fraction - Nat.pow 2 top) * Nat.pow 2 (52 - top))
  else ofFields negative (biased + 896) (fraction * Nat.pow 2 29)

end Binary64

end RelationalMapper
