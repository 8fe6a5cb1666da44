import RelationalMapper.Assoc
import RelationalMapper.Fault

set_option autoImplicit false

namespace RelationalMapper.Cache

structure RowRecord where
  entity : String
  table : String
  identity : ObjectIdentity
  current : List Value
  original : Option (List Value)
  state : RowState
deriving DecidableEq

structure RowStore where
  nextNumber : Nat
  records : Assoc RowId RowRecord
  byTable : Assoc String (List RowId)
  live : Assoc ObjectIdentity RowId
  tombstones : Assoc ObjectIdentity RowId
deriving DecidableEq

namespace RowRecord

-- The values of a version; a row that was never stored has only current ones.
def version (record : RowRecord) : RowVersion → List Value
  | .current => record.current
  | .original => record.original.getD record.current

def write (record : RowRecord) (index : Nat) (value : Value) : RowRecord :=
  { record with
    current := record.current.set index value
    state := if record.state = .unchanged then .modified else record.state }

-- A row that was never stored leaves with its deletion, any other waits to be accepted.
def deletedState (record : RowRecord) : RowState :=
  if record.state = .fresh then .detached else .deleted

def settled (record : RowRecord) : RowRecord :=
  match record.state with
  | .fresh | .modified => { record with original := some record.current, state := .unchanged }
  | .unchanged | .deleted | .detached => record

end RowRecord

namespace RowStore

def empty : RowStore :=
  ⟨0, .empty, .empty, .empty, .empty⟩

def rows (store : RowStore) (table : String) : List RowId :=
  (store.byTable.get? table).getD []

def register (store : RowStore) (record : RowRecord) : RowId × RowStore :=
  let row : RowId := ⟨store.nextNumber⟩
  (row,
    { nextNumber := store.nextNumber + 1
      records := store.records.insert row record
      byTable := store.byTable.insert record.table (store.rows record.table ++ [row])
      live := store.live.insert record.identity row
      tombstones := store.tombstones })

def record (store : RowStore) (row : RowId) : Except Fault RowRecord :=
  match store.records.get? row with
  | some record => .ok record
  | none => .error (.untracked row)

def liveRecord (store : RowStore) (row : RowId) : Except Fault RowRecord := do
  let record ← store.record row
  if record.state.isLive then return record else throw (.notLive row record.state)

def state (store : RowStore) (row : RowId) : RowState :=
  ((store.records.get? row).map (·.state)).getD .detached

def resolve? (store : RowStore) (identity : ObjectIdentity) : Option RowId :=
  (store.live.get? identity).or (store.tombstones.get? identity)

def write (store : RowStore) (row : RowId) (index : Nat) (value : Value) : RowStore :=
  { store with records := store.records.modify row (·.write index value) }

def dropFromTable (store : RowStore) (table : String) (row : RowId) : RowStore :=
  { store with byTable := store.byTable.modify table (·.filter (· ≠ row)) }

def delete (store : RowStore) (row : RowId) (record : RowRecord) : RowStore :=
  let gone := record.deletedState
  let store :=
    { store with
      records := store.records.insert row { record with state := gone }
      live := store.live.erase record.identity
      tombstones := store.tombstones.insert record.identity row }
  -- A deleted row stays in its table until changes are accepted; a detached one goes at once.
  if gone = .detached then store.dropFromTable record.table row else store

def eraseIfAt (map : Assoc ObjectIdentity RowId) (identity : ObjectIdentity) (row : RowId) :
    Assoc ObjectIdentity RowId :=
  if map.get? identity = some row then map.erase identity else map

-- Forgets a row altogether; identities that lead elsewhere are kept.
def forget (store : RowStore) (row : RowId) : RowStore :=
  match store.records.get? row with
  | none => store
  | some record =>
    { store with
      records := store.records.erase row
      live := eraseIfAt store.live record.identity row
      tombstones := eraseIfAt store.tombstones record.identity row }.dropFromTable record.table row

def settleRow (store : RowStore) (row : RowId) : RowStore :=
  { store with records := store.records.modify row RowRecord.settled }

def isGone (store : RowStore) (row : RowId) : Bool :=
  (store.records.get? row).any fun record => record.state = .deleted || record.state = .detached

-- Forgets a deleted row. Its identity may be live again with another row, which stays.
def purge (store : RowStore) (row : RowId) : RowStore :=
  match store.records.get? row with
  | none => store
  | some record =>
    { store with
      records := store.records.erase row
      tombstones := eraseIfAt store.tombstones record.identity row }.dropFromTable record.table row

/-- Takes all changes as stored, going through the rows in the given order. -/
def acceptInOrder (store : RowStore) (order : List RowId) : RowStore :=
  -- Settling never changes which rows are gone, so they can be picked out first.
  let gone := order.filter store.isGone
  gone.foldl purge (order.foldl settleRow store)

def accept (store : RowStore) : RowStore :=
  store.acceptInOrder store.records.keys

end RowStore

end RelationalMapper.Cache
