set_option autoImplicit false

namespace RelationalMapper.Text

def digitValue? (char : Char) : Option Nat :=
  if '0' ≤ char ∧ char ≤ '9' then some (char.toNat - '0'.toNat)
  else if 'a' ≤ char ∧ char ≤ 'f' then some (char.toNat - 'a'.toNat + 10)
  else if 'A' ≤ char ∧ char ≤ 'F' then some (char.toNat - 'A'.toNat + 10)
  else none

def isDigit (base : Nat) (char : Char) : Bool :=
  (digitValue? char).any (· < base)

-- The number that a list of digits spells; characters that are no digits are passed over.
def numberOf (base : Nat) (digits : List Char) : Nat :=
  digits.foldl (fun number char => (digitValue? char).elim number (number * base + ·)) 0

def hexNumber? (digits : List Char) : Option Nat :=
  if digits.all (isDigit 16) then some (numberOf 16 digits) else none

-- Surrogates and numbers beyond the last plane name no character.
def charAt? (code : Nat) : Option Char :=
  if code.isValidChar then some (Char.ofNat code) else none

def isHighSurrogate (code : Nat) : Bool :=
  0xD800 ≤ code && code < 0xDC00

def isLowSurrogate (code : Nat) : Bool :=
  0xDC00 ≤ code && code < 0xE000

def joinSurrogates (high low : Nat) : Nat :=
  0x10000 + (high - 0xD800) * 0x400 + (low - 0xDC00)

end RelationalMapper.Text
