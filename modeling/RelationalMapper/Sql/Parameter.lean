import RelationalMapper.Schema.Entity

set_option autoImplicit false

namespace RelationalMapper.Sql

structure Operand where
  column : Column
  value : Value
deriving DecidableEq

structure Parameter where
  column : Column
  name : String
  value : Value
deriving DecidableEq

def boundName (column : String) (number : Nat) : String :=
  column ++ toString number

/-- The least number above `last` whose name is not among the taken ones. Every name that is in the way
is met once, so it can be struck out. -/
def nextNumber (column : String) (last : Nat) (taken : List String) : Nat :=
  if boundName column (last + 1) ∈ taken then
    nextNumber column (last + 1) (taken.erase (boundName column (last + 1)))
  else last + 1
termination_by taken.length
decreasing_by
  rename_i met
  have := List.length_erase_of_mem met
  have := List.length_pos_of_mem met
  omega

structure Binder where
  last : Nat
  parameters : List Parameter

namespace Binder

def empty : Binder :=
  ⟨0, []⟩

def bind (binder : Binder) (operand : Operand) : Binder :=
  let number := nextNumber operand.column.name binder.last (binder.parameters.map (·.name))
  ⟨number, binder.parameters ++
    [⟨operand.column, boundName operand.column.name number, operand.value⟩]⟩

def bindAll (binder : Binder) (operands : List Operand) : Binder :=
  operands.foldl bind binder

end Binder

end RelationalMapper.Sql
