import RelationalMapper.RowValues
import RelationalMapper.Sql.Command
import RelationalMapper.Sql.Resolve

set_option autoImplicit false

namespace RelationalMapper.Sql

def resolveCondition (model : Model) (entity : Entity) :
    Option Qualifier → Except Fault (Option (Condition Operand))
  | none => return none
  | some qualifier => return some (← resolve model entity qualifier)

def selectStatement (model : Model) (writer : Writer) (fetch : Fetch) :
    Except Fault (Statement Operand) := do
  let entity ← model.entity fetch.entity
  let condition ← resolveCondition model entity fetch.qualifier
  let orderings ← fetch.orderings.mapM fun ordering =>
    return ((← entity.columnOf ordering.property).name, ordering.direction)
  if let some limit := fetch.limit then
    writer.checkLimit limit
  return .select (entity.columns.map (·.name)) entity.table condition orderings fetch.limit

-- The order and the limit of a fetch do not change how many rows there are to count.
def countStatement (model : Model) (fetch : Fetch) : Except Fault (Statement Operand) := do
  let entity ← model.entity fetch.entity
  let condition ← resolveCondition model entity fetch.qualifier
  return .count entity.table condition

def operand (entity : Entity) (row : RowReader) (column : Column) (version : RowVersion) :
    Except Fault Operand :=
  match row.value? column.name version with
  | some value => .ok ⟨column, value⟩
  | none => .error (.noValue entity.name column.name)

def assignment (entity : Entity) (row : RowReader) (column : Column) :
    Except Fault (String × Operand) :=
  return (column.name, ← operand entity row column .current)

def lockMatches (entity : Entity) (row : RowReader) :
    List Column → Except Fault (List (LockMatch Operand))
  | [] => return []
  | column :: rest => do
    -- A word that is no strategy is a fault even in a row that lacks the value.
    let strategy ← column.lockStrategy
    match strategy.operator? with
    | none => lockMatches entity row rest
    | some operator =>
      let original ← operand entity row column .original
      return ⟨column.name, operator, original⟩ :: (← lockMatches entity row rest)

-- A statement without anything to match would reach every row of the table.
def guards (entity : Entity) (row : RowReader) : Except Fault (List (LockMatch Operand)) := do
  let locks ← lockMatches entity row entity.columns
  if locks.isEmpty then throw (.nothingToMatch entity.name)
  return locks

def insertStatement (model : Model) (row : RowReader) (columns : List String) :
    Except Fault (Statement Operand) := do
  let entity ← model.entity row.entity
  let columns ← columns.mapM entity.column
  return .insert entity.table (← columns.mapM (assignment entity row))

def updateStatement (model : Model) (row : RowReader) : Except Fault (Statement Operand) := do
  let entity ← model.entity row.entity
  let writable := entity.columns.filter (!·.generated)
  -- A missing value is reported before an entity without anything to write or to match.
  let assignments ← writable.mapM (assignment entity row)
  if assignments.isEmpty then throw (.nothingWritable entity.name)
  return .update entity.table assignments (← guards entity row)

def deleteStatement (model : Model) (row : RowReader) : Except Fault (Statement Operand) := do
  let entity ← model.entity row.entity
  return .delete entity.table (← guards entity row)

structure Compiler where
  model : Model
  writer : Writer
  quoting : Bool

namespace Compiler

def finish (compiler : Compiler) (statement : Except Fault (Statement Operand)) :
    Except Fault Command :=
  statement.map (·.command compiler.writer compiler.quoting)

def select (compiler : Compiler) (fetch : Fetch) : Except Fault Command :=
  compiler.finish (selectStatement compiler.model compiler.writer fetch)

def count (compiler : Compiler) (fetch : Fetch) : Except Fault Command :=
  compiler.finish (countStatement compiler.model fetch)

def insert (compiler : Compiler) (row : RowReader) (columns : List String) : Except Fault Command :=
  compiler.finish (insertStatement compiler.model row columns)

def update (compiler : Compiler) (row : RowReader) : Except Fault Command :=
  compiler.finish (updateStatement compiler.model row)

def delete (compiler : Compiler) (row : RowReader) : Except Fault Command :=
  compiler.finish (deleteStatement compiler.model row)

end Compiler

end RelationalMapper.Sql
