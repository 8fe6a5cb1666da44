import RelationalMapper.Toml.Scalar
import RelationalMapper.Toml.Text

set_option autoImplicit false

namespace RelationalMapper.Toml

def isKeyChar (char : Char) : Bool :=
  char.isAlphanum || char = '-' || char = '_'

def keyPart? (chars : List Char) : Option (String × List Char) :=
  match chars.span isKeyChar with
  | ([], _) => shortString? chars
  | (name, rest) => some (String.ofList name, rest)

def keyParts? : Nat → List Char → Option (List String × List Char)
  | 0, _ => none
  | room + 1, chars => do
    let (part, rest) ← keyPart? (skipBlanks chars)
    match skipBlanks rest with
    | '.' :: rest =>
      let (parts, rest) ← keyParts? room rest
      return (part :: parts, rest)
    | rest => return ([part], rest)

-- How many parts a key may have, and how deep values may be nested.
def deepest : Nat := 80

def key? (chars : List Char) : Option ((List String × String) × List Char) := do
  let (parts, rest) ← keyParts? deepest chars
  let last ← parts.getLast?
  return ((parts.dropLast, last), rest)

def endsScalar (char : Char) : Bool :=
  [',', ']', '}', '#', '=', '[', '{', '\n', '\r'].contains char

def wordsRun (afterBlank : Bool) : List Char → List Char × List Char
  | [] => ([], [])
  | char :: rest =>
    if endsScalar char || (afterBlank && ['"', '\''].contains char) then ([], char :: rest)
    else
      let (run, rest) := wordsRun (isBlank char) rest
      (char :: run, rest)

-- A scalar without quotes may have a blank inside, as between a date and a time.
def scalarRun (chars : List Char) : List Char × List Char :=
  let (run, rest) := wordsRun false chars
  ((run.reverse.dropWhile isBlank).reverse, rest)

abbrev Reads (α : Type) := List Char → Option (α × List Char)

def arrayItems (item : Reads Item) : Nat → Reads (List Item)
  | 0, _ => none
  | fuel + 1, chars =>
    match skipAll chars with
    | ']' :: rest => some ([], rest)
    | chars => do
      let (first, rest) ← item chars
      match skipAll rest with
      | ']' :: rest => return ([first], rest)
      | ',' :: rest =>
        let (others, rest) ← arrayItems item fuel rest
        return (first :: others, rest)
      | _ => none

def pair? (skip : List Char → List Char) (item : Reads Item) (chars : List Char) :
    Option (((List String × String) × Item) × List Char) := do
  let (key, rest) ← key? chars
  let '=' :: rest := skip rest | none
  let (value, rest) ← item (skip rest)
  return ((key, value), rest)

def inlineEntries (item : Reads Item) : Nat → Entries → Reads Entries
  | 0, _, _ => none
  | fuel + 1, entries, chars =>
    match skipAll chars with
    | '}' :: rest => some (entries, rest)
    | chars => do
      let (((path, key), value), rest) ← pair? skipAll item chars
      let entries ← entries.assign .inline path key value
      match skipAll rest with
      | '}' :: rest => return (entries, rest)
      | ',' :: rest => inlineEntries item fuel entries rest
      | _ => none

def value? : Nat → Reads Item
  | depth, chars =>
    match chars with
    | '[' :: rest =>
      match depth with
      | 0 => none
      | depth + 1 => do
        let (items, rest) ← arrayItems (value? depth) chars.length rest
        return (.array false items, rest)
    | '{' :: rest =>
      match depth with
      | 0 => none
      | depth + 1 => do
        let (entries, rest) ← inlineEntries (value? depth) chars.length [] rest
        return (.table .inline entries, rest)
    | '"' :: _ | '\'' :: _ => do
      let (content, rest) ← string? chars
      return (.text content, rest)
    | _ => do
      let (run, rest) := scalarRun chars
      return (← scalar? run, rest)

def header? (ofTables : Bool) (chars : List Char) : Option (Header × List Char) := do
  let ((path, key), rest) ← key? chars
  match ofTables, rest with
  | true, ']' :: ']' :: rest => return (⟨path, key, true⟩, rest)
  | false, ']' :: rest => return (⟨path, key, false⟩, rest)
  | _, _ => none

def line? (draft : Draft) (chars : List Char) : Option (Draft × List Char) :=
  match skipBlanks chars with
  | '[' :: '[' :: rest => do
    let (header, rest) ← header? true rest
    return (← draft.start header, ← restOfLine? rest)
  | '[' :: rest => do
    let (header, rest) ← header? false rest
    return (← draft.start header, ← restOfLine? rest)
  | chars =>
    match restOfLine? chars with
    -- An empty line, or a comment alone.
    | some rest => some (draft, rest)
    | none => do
      let (((path, key), value), rest) ← pair? skipBlanks (value? deepest) chars
      return (← draft.assign path key value, ← restOfLine? rest)

def lines? : Nat → Draft → List Char → Option Draft
  | _, draft, [] => some draft
  | 0, _, _ => none
  | fuel + 1, draft, chars => do
    let (draft, rest) ← line? draft chars
    lines? fuel draft rest

-- A byte-order mark may stand in front.
def parse? (text : String) : Option Entries :=
  let chars := match text.toList with
    | '\uFEFF' :: rest => rest
    | chars => chars
  (lines? chars.length .empty chars).bind Draft.close

end RelationalMapper.Toml
