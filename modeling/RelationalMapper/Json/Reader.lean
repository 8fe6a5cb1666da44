import RelationalMapper.Json.Number

set_option autoImplicit false

namespace RelationalMapper.Json

def isSpace (char : Char) : Bool :=
  char = ' ' || char = '\t' || char = '\n' || char = '\r'

def skipSpace (chars : List Char) : List Char :=
  chars.dropWhile isSpace

def joinUnits : List (Nat ⊕ Char) → Option (List Char)
  | [] => some []
  | .inr char :: rest => (joinUnits rest).map (char :: ·)
  | .inl high :: .inl low :: rest =>
    if Text.isHighSurrogate high then
      if Text.isLowSurrogate low then do
        let char ← Text.charAt? (Text.joinSurrogates high low)
        (joinUnits rest).map (char :: ·)
      else none
    else do
      let char ← Text.charAt? high
      (joinUnits (.inl low :: rest)).map (char :: ·)
  | .inl code :: rest => do
    let char ← Text.charAt? code
    (joinUnits rest).map (char :: ·)

def stringBody : List Char → Option (List (Nat ⊕ Char) × List Char)
  | [] => none
  | '"' :: rest => some ([], rest)
  | '\\' :: 'u' :: a :: b :: c :: d :: rest => do
    let code ← Text.hexNumber? [a, b, c, d]
    let (units, rest) ← stringBody rest
    return (.inl code :: units, rest)
  | '\\' :: char :: rest => do
    let meant ← match char with
      | '"' => some '"'
      | '\\' => some '\\'
      | '/' => some '/'
      | 'b' => some '\x08'
      | 'f' => some '\x0c'
      | 'n' => some '\n'
      | 'r' => some '\r'
      | 't' => some '\t'
      | _ => none
    let (units, rest) ← stringBody rest
    return (.inr meant :: units, rest)
  | char :: rest => do
    if char.toNat < 0x20 ∨ char = '\\' then none
    else
      let (units, rest) ← stringBody rest
      return (.inr char :: units, rest)

def textOf (units : List (Nat ⊕ Char)) : Option String :=
  (joinUnits units).map String.ofList

def digits? (chars : List Char) : Option (List Char × List Char) :=
  match chars.span (Text.isDigit 10) with
  | ([], _) => none
  | found => some found

def wholePart? : List Char → Option (List Char × List Char)
  | '0' :: rest => if rest.head?.any (Text.isDigit 10) then none else some (['0'], rest)
  | chars => digits? chars

def fractionPart? : List Char → Option (List Char × List Char)
  | '.' :: rest => digits? rest
  | chars => some ([], chars)

def exponentDigits? : List Char → Option ((Bool × List Char) × List Char)
  | '+' :: rest => (digits? rest).map fun (found, rest) => ((false, found), rest)
  | '-' :: rest => (digits? rest).map fun (found, rest) => ((true, found), rest)
  | chars => (digits? chars).map fun (found, rest) => ((false, found), rest)

def exponentPart? : List Char → Option (Option (Bool × List Char) × List Char)
  | char :: rest =>
    if char = 'e' ∨ char = 'E' then
      (exponentDigits? rest).map fun (exponent, rest) => (some exponent, rest)
    else some (none, char :: rest)
  | [] => some (none, [])

def number? (negative : Bool) (chars : List Char) : Option (Json × List Char) := do
  let (whole, rest) ← wholePart? chars
  let (fraction, rest) ← fractionPart? rest
  let (exponent, rest) ← exponentPart? rest
  return (NumberLiteral.value ⟨negative, whole, fraction, exponent⟩, rest)

abbrev Item := List Char → Option (Json × List Char)

def moreItems (item : Item) : Nat → List Char → Option (List Json × List Char)
  | 0, _ => none
  | fuel + 1, chars =>
    match skipSpace chars with
    | ']' :: rest => some ([], rest)
    | ',' :: rest => do
      let (first, rest) ← item rest
      let (others, rest) ← moreItems item fuel rest
      return (first :: others, rest)
    | _ => none

abbrev Member := Option String × Json

def member? (item : Item) (chars : List Char) : Option (Member × List Char) :=
  match skipSpace chars with
  | '"' :: rest => do
    let (units, rest) ← stringBody rest
    match skipSpace rest with
    | ':' :: rest => do
      let (value, rest) ← item rest
      return ((textOf units, value), rest)
    | _ => none
  | _ => none

def moreMembers (item : Item) : Nat → List Char → Option (List Member × List Char)
  | 0, _ => none
  | fuel + 1, chars =>
    match skipSpace chars with
    | '}' :: rest => some ([], rest)
    | ',' :: rest => do
      let (first, rest) ← member? item rest
      let (others, rest) ← moreMembers item fuel rest
      return (first :: others, rest)
    | _ => none

def named? : Member → Option (String × Json)
  | (name, value) => name.map (·, value)

def objectOf (members : List Member) : Json :=
  (members.mapM named?).elim .unrepresentable .object

def value? : Nat → Item
  | 0, _ => none
  | depth + 1, chars =>
    match skipSpace chars with
    | 'n' :: 'u' :: 'l' :: 'l' :: rest => some (.null, rest)
    | 't' :: 'r' :: 'u' :: 'e' :: rest => some (.bool true, rest)
    | 'f' :: 'a' :: 'l' :: 's' :: 'e' :: rest => some (.bool false, rest)
    | '"' :: rest => do
      let (units, rest) ← stringBody rest
      return ((textOf units).elim .unrepresentable .text, rest)
    | '-' :: rest => number? true rest
    | '[' :: rest =>
      match skipSpace rest with
      | ']' :: rest => some (.array [], rest)
      | _ => do
        let (first, rest) ← value? depth rest
        let (others, rest) ← moreItems (value? depth) rest.length rest
        return (.array (first :: others), rest)
    | '{' :: rest =>
      match skipSpace rest with
      | '}' :: rest => some (.object [], rest)
      | _ => do
        let (first, rest) ← member? (value? depth) rest
        let (others, rest) ← moreMembers (value? depth) rest.length rest
        return (objectOf (first :: others), rest)
    | chars => number? false chars

-- A text nests no deeper than it is long.
def parse? (text : String) : Option Json := do
  let (document, rest) ← value? (text.toList.length + 1) text.toList
  if (skipSpace rest).isEmpty then some document else none

end RelationalMapper.Json
