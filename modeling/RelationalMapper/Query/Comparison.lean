import RelationalMapper.Value

set_option autoImplicit false

namespace RelationalMapper

inductive Comparison where
  | equals
  | notEqual
  | lessThan
  | lessOrEqual
  | greaterThan
  | greaterOrEqual
  | like
  | caseInsensitiveEquals
deriving DecidableEq, Inhabited

namespace Comparison

def all : List Comparison :=
  [equals, notEqual, lessThan, lessOrEqual, greaterThan, greaterOrEqual, like,
    caseInsensitiveEquals]

def name : Comparison → String
  | equals => "Equals"
  | notEqual => "NotEqual"
  | lessThan => "LessThan"
  | lessOrEqual => "LessOrEqual"
  | greaterThan => "GreaterThan"
  | greaterOrEqual => "GreaterOrEqual"
  | like => "Like"
  | caseInsensitiveEquals => "CaseInsensitiveEquals"

-- The case-insensitive form is told from plain equality by the blanks of its operator.
def operator : Comparison → String
  | equals => "="
  | notEqual => "<>"
  | lessThan => "<"
  | lessOrEqual => "<="
  | greaterThan => ">"
  | greaterOrEqual => ">="
  | like => "LIKE"
  | caseInsensitiveEquals => " = "

inductive NullTest where
  | isNull
  | isNotNull
deriving DecidableEq

def NullTest.text : NullTest → String
  | isNull => "IS NULL"
  | isNotNull => "IS NOT NULL"

def nullTest? : Comparison → Option NullTest
  | equals => some .isNull
  | notEqual => some .isNotNull
  | _ => none

end Comparison

structure Predicate where
  comparison : Comparison
  value : Value
deriving DecidableEq, Inhabited

end RelationalMapper
