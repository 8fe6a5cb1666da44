import RelationalMapper.Binary64.Shortest

set_option autoImplicit false

namespace RelationalMapper

inductive Value where
  | null
  | bool (truth : Bool)
  | integer (number : Int64)
  | real (number : Binary64)
  | text (content : String)
  | blob (bytes : List UInt8)
deriving DecidableEq, Inhabited

namespace Value

def isNull : Value → Bool
  | null => true
  | _ => false

def integer? : Value → Option Int64
  | integer number => some number
  | _ => none

def text? : Value → Option String
  | text content => some content
  | _ => none

def typeName : Value → String
  | null => "null"
  | bool _ => "bool"
  | integer _ => "integer"
  | real _ => "real"
  | text _ => "text"
  | blob _ => "blob"

def display : Value → String
  | null => "NULL"
  | bool truth => if truth then "true" else "false"
  | integer number => toString number.toInt
  | real number => number.display
  | text content => "'" ++ content ++ "'"
  | blob bytes => "<" ++ toString bytes.length ++ " bytes>"

@[simp] theorem isNull_iff (value : Value) : value.isNull = true ↔ value = null := by
  cases value <;> simp [isNull]

end Value

end RelationalMapper
