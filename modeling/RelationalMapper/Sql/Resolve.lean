import RelationalMapper.Schema.Model
import RelationalMapper.Sql.Parameter
import RelationalMapper.Sql.Statement

set_option autoImplicit false

namespace RelationalMapper

structure Hop where
  localKey : String
  targetKey : String
  target : Entity

-- An entity that is both ends of a relation stands at the parent's.
def Model.hop (model : Model) (entity : Entity) (name : String) : Except Fault Hop := do
  let relation ← entity.relation name
  if relation.parent = entity.name then
    return ⟨relation.parentKey, relation.childKey, ← model.entity relation.child⟩
  else return ⟨relation.childKey, relation.parentKey, ← model.entity relation.parent⟩

namespace Sql

def comparison (column : Column) (predicate : Predicate) : Except Fault (Condition Operand) :=
  if predicate.value.isNull then
    match predicate.comparison.nullTest? with
    | some test => .ok (.nullTest column.name test)
    | none => .error (.nullComparison predicate.comparison column.name)
  else .ok (.compare column.name predicate.comparison ⟨column, predicate.value⟩)

def columnComparison (entity : Entity) (name : String) (predicate : Predicate) :
    Except Fault (Condition Operand) := do
  comparison (← entity.column name) predicate

/-- Follows the relations one by one and closes each subquery around what lies beyond it. -/
def along (model : Model) (finish : Entity → Except Fault (Condition Operand)) :
    Entity → List String → Except Fault (Condition Operand)
  | entity, [] => finish entity
  | entity, name :: rest => do
    -- What lies beyond is resolved on the far side, never on this entity.
    let hop ← model.hop entity name
    let inner ← along model finish hop.target rest
    return .within hop.localKey hop.targetKey hop.target.table inner

mutual

def resolve (model : Model) (entity : Entity) : Qualifier → Except Fault (Condition Operand)
  | .column name predicate => columnComparison entity name predicate
  | .property name predicate => do
    columnComparison entity (← entity.columnOf name).name predicate
  | .all children => return .all (← resolveAll model entity children)
  | .any children => return .any (← resolveAll model entity children)
  | .path relations terminal =>
    along model (fun target => resolve model target terminal) entity relations

def resolveAll (model : Model) (entity : Entity) :
    List Qualifier → Except Fault (List (Condition Operand))
  | [] => return []
  | child :: rest => return (← resolve model entity child) :: (← resolveAll model entity rest)

end

end Sql

end RelationalMapper
