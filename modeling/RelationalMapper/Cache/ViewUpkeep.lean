import RelationalMapper.Cache.UnitOfWork

set_option autoImplicit false

namespace RelationalMapper.Cache

namespace RelationView

def withMembers (view : RelationView) (members : List ObjectIdentity) : RelationView :=
  match view.state with
  | .unloaded => view
  | .loaded _ changing deleting => { view with state := .loaded members changing deleting }

end RelationView

def joined (members : List ObjectIdentity) (identity : ObjectIdentity) : List ObjectIdentity :=
  if identity ∈ members then members else members ++ [identity]

namespace UnitOfWork

-- A row that is being inserted with its own key as the proposed value is not yet far enough along
-- to be its own child.
def isSelfReference (unit : UnitOfWork) (change : ColumnChange) : Except Fault Bool :=
  if unit.inserting = some change.row then do
    let identity ← unit.identityOf change.row
    return identity.key = [change.proposed]
  else return false

def membersAfterChange (unit : UnitOfWork) (view : RelationView) (change : ColumnChange) :
    Except Fault (Option (List ObjectIdentity)) := do
  if change.column ≠ view.relation.childKey then return none
  let some ownerKey ← unit.ownerKey view | return none
  if ← unit.isSelfReference change then return none
  -- A view can be told after it was unloaded, since the list of subscribers is taken beforehand.
  let some members := view.members? | return none
  -- The proposed key goes first: it also takes in a member that was missed before.
  if change.proposed = ownerKey then
    return some (joined members (← unit.identityOf change.row))
  else if change.current = ownerKey then
    return some (members.erase (← unit.identityOf change.row))
  else return none

-- A row belongs to an owner by its current key, or by the key it was loaded with.
def isRelated (unit : UnitOfWork) (view : RelationView) (deletion : RowDeletion)
    (ownerKey : Value) : Except Fault Bool := do
  let current ← unit.value deletion.row view.relation.childKey .current
  if current = ownerKey then return true
  else if deletion.state = .fresh then return false
  else return (← unit.value deletion.row view.relation.childKey .original) = ownerKey

def membersAfterDeletion (unit : UnitOfWork) (view : RelationView) (deletion : RowDeletion) :
    Except Fault (Option (List ObjectIdentity)) := do
  let some ownerKey ← unit.ownerKey view | return none
  unless ← unit.isRelated view deletion ownerKey do return none
  let identity ← unit.identityOf deletion.row
  if (unit.store.resolve? identity).isNone then return none
  let some members := view.members? | return none
  return some (members.erase identity)

def setMembers (unit : UnitOfWork) (id : ViewId) (members : Option (List ObjectIdentity)) :
    UnitOfWork :=
  match members with
  | none => unit
  | some members => { unit with views := unit.views.modify id (·.withMembers members) }

-- A view that is gone hears nothing.
def followChange (unit : UnitOfWork) (id : ViewId) (change : ColumnChange) :
    Except Fault UnitOfWork :=
  match unit.views.get? id with
  | none => return unit
  | some view => (unit.membersAfterChange view change).map (unit.setMembers id)

def followDeletion (unit : UnitOfWork) (id : ViewId) (deletion : RowDeletion) :
    Except Fault UnitOfWork :=
  match unit.views.get? id with
  | none => return unit
  | some view => (unit.membersAfterDeletion view deletion).map (unit.setMembers id)

end UnitOfWork

end RelationalMapper.Cache
