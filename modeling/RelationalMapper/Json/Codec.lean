import RelationalMapper.Config.Settings
import RelationalMapper.Json.Basic
import RelationalMapper.Query.Qualifier
import RelationalMapper.Value

set_option autoImplicit false

namespace RelationalMapper

namespace Json

def byte? : Json → Option UInt8
  | .integer number =>
    if 0 ≤ number ∧ number < 256 then some (UInt8.ofNat number.toNat) else none
  | _ => none

-- A keyword stands alone, or as the one member of an object whose value is null.
def keyword? : Json → Option String
  | .text keyword => some keyword
  | .object [(keyword, .null)] => some keyword
  | _ => none

end Json

namespace Value

def fitsInteger (number : Int) : Bool :=
  -(Nat.pow 2 63 : Int) ≤ number && number < Nat.pow 2 63

-- An integer beyond sixty-four bits is read as the nearest real.
def ofJson? : Json → Option Value
  | .null => some .null
  | .bool truth => some (.bool truth)
  | .integer number =>
    if fitsInteger number then some (.integer (Int64.ofInt number))
    else some (.real ⟨(UInt64.ofNat number.toNat).toFloat.toBits⟩)
  | .real number => some (.real number)
  | .text content => some (.text content)
  | .array items => (items.mapM Json.byte?).map .blob
  | .object _ => none
  | .unrepresentable => none

def toJson : Value → Json
  | .null => .null
  | .bool truth => .bool truth
  | .integer number => .integer number.toInt
  | .real number => if number.isFinite then .real number else .null
  | .text content => .text content
  | .blob bytes => .array (bytes.map fun byte => .integer byte.toNat)

end Value

def Dialect.ofJson? (json : Json) : Option Dialect :=
  json.keyword?.bind Dialect.ofKeyword?

def Dialect.toJson (dialect : Dialect) : Json :=
  .text dialect.name

def LockStrategy.ofJson? (json : Json) : Option LockStrategy :=
  json.keyword?.bind LockStrategy.ofKeyword?

def LockStrategy.toJson (strategy : LockStrategy) : Json :=
  .text strategy.name

def SortDirection.ofJson? (json : Json) : Option SortDirection :=
  json.keyword?.bind SortDirection.ofKeyword?

def SortDirection.toJson (direction : SortDirection) : Json :=
  .text direction.keyword

namespace Settings

def bool? : Json → Option Bool
  | .bool truth => some truth
  | _ => none

-- The one member of a name, or none; a name that comes twice is refused.
def member? (members : List (String × Json)) (name : String) : Option (Option Json) :=
  match members.filter (·.1 = name) with
  | [] => some none
  | [(_, json)] => some (some json)
  | _ => none

def ofParts? (dialect quoteIdentifiers : Option Json) : Option Settings := do
  let dialect ← match dialect with
    | none => some Dialect.ansi
    | some json => Dialect.ofJson? json
  let quoteIdentifiers ← match quoteIdentifiers with
    | none => some true
    | some json => bool? json
  return ⟨dialect, quoteIdentifiers⟩

def ofJson? : Json → Option Settings
  | .object members => do
    let dialect ← member? members "dialect"
    let quoteIdentifiers ← member? members "quote_identifiers"
    ofParts? dialect quoteIdentifiers
  | .array [] => ofParts? none none
  | .array [dialect] => ofParts? (some dialect) none
  | .array [dialect, quoteIdentifiers] => ofParts? (some dialect) (some quoteIdentifiers)
  | _ => none

def toJson (settings : Settings) : Json :=
  .object [("dialect", settings.dialect.toJson),
    ("quote_identifiers", .bool settings.quoteIdentifiers)]

end Settings

end RelationalMapper
