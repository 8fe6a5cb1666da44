import RelationalMapper.Text.Digits
import RelationalMapper.Toml.Document

set_option autoImplicit false

namespace RelationalMapper.Toml

-- A literal without its underscores, each of which must stand between two digits.
def joined? (base : Nat) : List Char → Option (List Char)
  | [] => some []
  | '_' :: _ => none
  | before :: '_' :: after :: rest =>
    if Text.isDigit base before && Text.isDigit base after then
      (joined? base (after :: rest)).map (before :: ·)
    else none
  | char :: rest => (joined? base rest).map (char :: ·)

def digitGroups? (base : Nat) (chars : List Char) : Option (List Char) :=
  (joined? base chars).filter fun digits =>
    !digits.isEmpty && digits.all (Text.isDigit base)

def plainDigits? (chars : List Char) : Option (List Char) :=
  match digitGroups? 10 chars with
  | some ('0' :: _ :: _) => none
  | found => found

def sign : List Char → Bool × List Char
  | '-' :: rest => (true, rest)
  | '+' :: rest => (false, rest)
  | chars => (false, chars)

def fitsInteger (number : Int) : Bool :=
  -(Nat.pow 2 127 : Int) ≤ number && number < Nat.pow 2 128

def integerOf (literal : List Char) (base : Nat) (negative : Bool) (digits : List Char) : Item :=
  let magnitude : Int := Text.numberOf base digits
  let number := if negative then -magnitude else magnitude
  if !digits.isEmpty && digits.all (Text.isDigit base) && fitsInteger number then .integer number
  else .unreadable (String.ofList literal)

-- Digits behind the mark of a base. There may be none, but nothing else either.
def based? (literal : List Char) (base : Nat) (chars : List Char) : Option Item :=
  (joined? base chars).bind fun digits =>
    if digits.all (Text.isDigit base) then some (integerOf literal base false digits) else none

-- Whether a literal begins as a decimal integer and has no mark of a real. Behind an underscore
-- other characters may follow, which then leave it without a value.
def isDecimal (chars : List Char) : Bool :=
  match chars.span (Text.isDigit 10) with
  | ([], _) => false
  | (['0'], rest) => rest.isEmpty
  | ('0' :: _, _) => false
  | (_, []) => true
  | (_, '_' :: rest) => !rest.any ([' ', '.', 'e', 'E'].contains ·)
  | _ => false

def integer? (literal : List Char) : Option Item :=
  match literal with
  | '0' :: 'x' :: rest => based? literal 16 rest
  | '0' :: 'o' :: rest => based? literal 8 rest
  | '0' :: 'b' :: rest => based? literal 2 rest
  | _ =>
    let (negative, chars) := sign literal
    -- Underscores may also part the letters that are digits of the largest base.
    if isDecimal chars then (joined? 16 chars).map (integerOf literal 10 negative) else none

def realParts? (chars : List Char) : Option (List Char × Int) := do
  let chars := (sign chars).2
  let (whole, rest) := chars.span fun char => Text.isDigit 10 char || char = '_'
  let whole ← plainDigits? whole
  let (fraction, rest) ← match rest with
    | '.' :: rest =>
      let (fraction, rest) := rest.span fun char => Text.isDigit 10 char || char = '_'
      (digitGroups? 10 fraction).map fun digits => (digits, rest)
    | rest => some ([], rest)
  match rest with
  | [] => if fraction.isEmpty then none else some (whole ++ fraction, -(fraction.length : Int))
  | char :: rest =>
    if char = 'e' ∨ char = 'E' then
      let (negative, rest) := sign rest
      let digits ← digitGroups? 10 rest
      let exponent : Int := Text.numberOf 10 digits
      some (whole ++ fraction, (if negative then -exponent else exponent) - fraction.length)
    else none

def overflowBound : Nat :=
  Nat.pow 2 1024 - Nat.pow 2 970

def fitsReal (digits : List Char) (exponent : Int) : Bool :=
  let significand := Text.numberOf 10 digits
  let magnitude := (Nat.toDigits 10 significand).length + exponent
  -- Only near the bound is it worth multiplying out.
  significand = 0 || magnitude < 300 ||
    (magnitude < 400 &&
      significand * Nat.pow 10 exponent.toNat < overflowBound * Nat.pow 10 (-exponent).toNat)

def real? (literal : List Char) : Option Item :=
  (realParts? literal).map fun (digits, exponent) =>
    if fitsReal digits exponent then .real (String.ofList literal)
    else .unreadable (String.ofList literal)

def isSpecialReal (chars : List Char) : Bool :=
  let name := (sign chars).2
  name = ['i', 'n', 'f'] || name = ['n', 'a', 'n']

def twoDigits? : List Char → Option (Nat × List Char)
  | a :: b :: rest =>
    if [a, b].all (Text.isDigit 10) then some (Text.numberOf 10 [a, b], rest) else none
  | _ => none

def leap (year : Nat) : Bool :=
  year % 4 = 0 && (year % 100 ≠ 0 || year % 400 = 0)

def daysIn (year : Nat) : Nat → Nat
  | 2 => if leap year then 29 else 28
  | 4 | 6 | 9 | 11 => 30
  | _ => 31

def date? (chars : List Char) : Option (List Char) := do
  let (century, chars) ← twoDigits? chars
  let (year, chars) ← twoDigits? chars
  let '-' :: chars := chars | none
  let (month, chars) ← twoDigits? chars
  let '-' :: chars := chars | none
  let (day, chars) ← twoDigits? chars
  if 1 ≤ month ∧ month ≤ 12 ∧ 1 ≤ day ∧ day ≤ daysIn (century * 100 + year) month then some chars
  else none

-- Seconds and their fraction may be left out; a sixtieth second is allowed.
def time? (chars : List Char) : Option (List Char) := do
  let (hour, chars) ← twoDigits? chars
  let ':' :: chars := chars | none
  let (minute, chars) ← twoDigits? chars
  if 23 < hour ∨ 59 < minute then none
  else
    match chars with
    | ':' :: chars => do
      let (second, chars) ← twoDigits? chars
      if 60 < second then none
      else
        match chars with
        | '.' :: chars =>
          let (fraction, chars) := chars.span (Text.isDigit 10)
          if fraction.isEmpty then none else some chars
        | chars => some chars
    | chars => some chars

def offset? : List Char → Option (List Char)
  | [] => some []
  | char :: rest =>
    if char = 'Z' ∨ char = 'z' then some rest
    else if char = '+' ∨ char = '-' then do
      let (hour, rest) ← twoDigits? rest
      let ':' :: rest := rest | none
      let (minute, rest) ← twoDigits? rest
      if hour ≤ 23 ∧ minute ≤ 59 then some rest else none
    else some (char :: rest)

def isMoment (chars : List Char) : Bool :=
  match date? chars with
  | some [] => true
  | some (mark :: rest) =>
    (mark = 'T' || mark = 't' || mark = ' ') && ((time? rest).bind offset?) == some []
  | none => time? chars == some []

def scalar? (chars : List Char) : Option Item :=
  if chars = "true".toList then some (.bool true)
  else if chars = "false".toList then some (.bool false)
  else if isMoment chars then some (.moment (String.ofList chars))
  else if isSpecialReal chars then some (.real (String.ofList chars))
  else (integer? chars).or (real? chars)

end RelationalMapper.Toml
