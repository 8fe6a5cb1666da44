import RelationalMapper.Cache.Action
import RelationalMapper.Cache.ViewUpkeep

set_option autoImplicit false

namespace RelationalMapper.Cache

variable {σ : Type}

def tellChange (calls : Callbacks σ) (change : ColumnChange) : List Subscriber → Action σ Unit
  | [] => pure ()
  | .view id :: rest => do
    let unit ← Action.ask (·.followChange id change)
    Action.change fun _ => unit
    tellChange calls change rest
  | .listener key :: rest => do
    calls.columnChanging key change
    tellChange calls change rest

def tellDeletion (calls : Callbacks σ) (deletion : RowDeletion) : List Subscriber → Action σ Unit
  | [] => pure ()
  | .view id :: rest => do
    let unit ← Action.ask (·.followDeletion id deletion)
    Action.change fun _ => unit
    tellDeletion calls deletion rest
  | .listener key :: rest => do
    calls.rowDeleting key deletion
    tellDeletion calls deletion rest

def announceChange (calls : Callbacks σ) (change : ColumnChange) : Action σ Unit := do
  let unit ← Action.look
  tellChange calls change (unit.channels.subscribers .columnChanging change.table)

def announceDeletion (calls : Callbacks σ) (deletion : RowDeletion) : Action σ Unit := do
  let unit ← Action.look
  tellDeletion calls deletion (unit.channels.subscribers .rowDeleting deletion.table)

namespace UnitOfWork

-- A stored row enters once; an identity that is known, live or deleted, keeps its row.
def attach (unit : UnitOfWork) (entityName : String) (values : List Value) :
    Except Fault (RowId × UnitOfWork) := do
  let entity ← unit.model.entity entityName
  if values.length ≠ entity.columns.length then
    throw (.wrongWidth entity.name entity.columns.length values.length)
  let identity ← entity.identityOf values
  match unit.store.resolve? identity with
  | some row => return (row, unit)
  | none =>
    let (row, store) := unit.store.register
      { entity := entity.name, table := entity.table, identity,
        current := values, original := some values, state := .unchanged }
    return (row, { unit with store })

-- One value per column, from pairs of which a later one wins.
def arrange (entity : Entity) (values : List (String × Value)) : Except Fault (List Value) :=
  values.foldlM (fun arranged (column, value) =>
    return arranged.set (← entity.columnIndex column) value)
    (List.replicate entity.columns.length .null)

def pendingValues (entity : Entity) (values : List Value) : List (String × Value) :=
  (((entity.columns.zip values).filter fun (column, value) =>
    !column.primaryKey && !value.isNull)).map fun (column, value) => (column.name, value)

def keyValues (entity : Entity) (values : List Value) : List Value :=
  (entity.columns.zip values).map fun (column, value) => if column.primaryKey then value else .null

def beginInsert (unit : UnitOfWork) (entityName : String) (values : List (String × Value)) :
    Except Fault ((RowId × String × List (String × Value)) × UnitOfWork) := do
  let entity ← unit.model.entity entityName
  let values ← arrange entity values
  let identity ← entity.identityOf values
  -- The identity of a deleted row may be used again.
  if unit.store.live.contains identity then throw (.alreadyTracked identity)
  let (row, store) := unit.store.register
    { entity := entity.name, table := entity.table, identity,
      current := keyValues entity values, original := none, state := .fresh }
  return ((row, entity.table, pendingValues entity values),
    { unit with store, inserting := some row })

def changeOf (unit : UnitOfWork) (row : RowId) (column : String) (value : Value) :
    Except Fault (ColumnChange × Nat) := do
  let record ← unit.store.liveRecord row
  let entity ← unit.model.entity record.entity
  let index ← entity.columnIndex column
  if (entity.columns[index]?).any (·.primaryKey) then
    throw (.immutableKey column record.identity)
  return (⟨row, record.table, column, value, record.current.getD index .null⟩, index)

def deletionOf (unit : UnitOfWork) (row : RowId) : Except Fault RowDeletion := do
  let record ← unit.store.liveRecord row
  return ⟨row, record.table, record.state⟩

def applyChange (unit : UnitOfWork) (row : RowId) (index : Nat) (value : Value) :
    Except Fault UnitOfWork := do
  let _ ← unit.store.liveRecord row
  return { unit with store := unit.store.write row index value }

-- A row that a listener has already deleted is left as it is.
def applyDeletion (unit : UnitOfWork) (row : RowId) : Except Fault UnitOfWork := do
  let record ← unit.store.record row
  if record.state.isLive then return { unit with store := unit.store.delete row record }
  else return unit

def forget (unit : UnitOfWork) (row : RowId) : UnitOfWork :=
  { unit with store := unit.store.forget row }

def accept (unit : UnitOfWork) : UnitOfWork :=
  { unit with store := unit.store.accept }

end UnitOfWork

def attachRow (entity : String) (values : List Value) : Action σ RowId := do
  let (row, unit) ← Action.ask (·.attach entity values)
  Action.change fun _ => unit
  return row

def writeColumn (calls : Callbacks σ) (row : RowId) (column : String) (value : Value) :
    Action σ Unit := do
  -- The announced current value is the one from before the announcement.
  let (change, index) ← Action.ask (·.changeOf row column value)
  announceChange calls change
  let unit ← Action.ask (·.applyChange row index value)
  Action.change fun _ => unit

def deleteRow (calls : Callbacks σ) (row : RowId) : Action σ Unit := do
  let deletion ← Action.ask (·.deletionOf row)
  announceDeletion calls deletion
  let unit ← Action.ask (·.applyDeletion row)
  Action.change fun _ => unit

def writeColumns (calls : Callbacks σ) (row : RowId) : List (String × Value) → Action σ Unit
  | [] => pure ()
  | (column, value) :: rest => do
    writeColumn calls row column value
    writeColumns calls row rest

-- Listeners have seen some columns of the row, so they hear that it goes; none can keep it.
def abandonInsert (calls : Callbacks σ) (row : RowId) (table : String) : Action σ Unit := do
  let _ ← Action.attempt (announceDeletion calls ⟨row, table, .fresh⟩)
  Action.change (·.forget row)

-- A new row is written column by column; if one write fails, the row is forgotten.
def insertRow (calls : Callbacks σ) (entity : String) (values : List (String × Value)) :
    Action σ RowId := do
  let outer := (← Action.look).inserting
  let ((row, table, pending), unit) ← Action.ask (·.beginInsert entity values)
  Action.change fun _ => unit
  let written ← Action.attempt (writeColumns calls row pending)
  -- The outer insert is back in place before listeners hear that the row goes.
  Action.change fun unit => { unit with inserting := outer }
  match written with
  | .ok () => return row
  | .error fault =>
    abandonInsert calls row table
    Action.given (.error fault)

def acceptChanges : Action σ Unit :=
  Action.change (·.accept)

end RelationalMapper.Cache
