import RelationalMapper.Assoc
import RelationalMapper.Identity

set_option autoImplicit false

namespace RelationalMapper

structure RowReader where
  entity : String
  value? : String → RowVersion → Option Value

structure RowValues where
  entity : String
  current : Assoc String Value
  original : Option (Assoc String Value)
deriving DecidableEq

namespace RowValues

def empty (entity : String) : RowValues :=
  ⟨entity, .empty, none⟩

def withCurrent (row : RowValues) (column : String) (value : Value) : RowValues :=
  { row with current := row.current.insert column value }

def withOriginal (row : RowValues) (column : String) (value : Value) : RowValues :=
  { row with original := some ((row.original.getD .empty).insert column value) }

-- A column without an original value has its current one.
def value? (row : RowValues) (column : String) : RowVersion → Option Value
  | .current => row.current.get? column
  | .original =>
    match row.original with
    | none => row.current.get? column
    | some original => (original.get? column).or (row.current.get? column)

def reader (row : RowValues) : RowReader :=
  ⟨row.entity, row.value?⟩

-- The same entity with the same values, in whatever order they were set.
def agrees (first second : RowValues) : Bool :=
  first.entity = second.entity && first.current.agrees second.current &&
    match first.original, second.original with
    | none, none => true
    | some original, some original' => original.agrees original'
    | _, _ => false

end RowValues

end RelationalMapper
