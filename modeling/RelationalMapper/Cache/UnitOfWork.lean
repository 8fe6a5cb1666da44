import RelationalMapper.Cache.Channel
import RelationalMapper.Cache.RowStore
import RelationalMapper.Config.Settings

set_option autoImplicit false

namespace RelationalMapper.Cache

/-- The identities of the members in order, and the two subscriptions that keep them current. -/
inductive ViewState where
  | unloaded
  | loaded (members : List ObjectIdentity) (changing deleting : SubscriptionId)
deriving DecidableEq

structure RelationView where
  owner : ObjectIdentity
  relation : Relation
  childEntity : String
  childTable : String
  state : ViewState
deriving DecidableEq

def RelationView.members? (view : RelationView) : Option (List ObjectIdentity) :=
  match view.state with
  | .unloaded => none
  | .loaded members _ _ => some members

-- Members get their place by joining; none can be put at a chosen one.
def RelationView.insertAt (view : RelationView) (position : Nat) (member : RowId) :
    Except Fault Nat :=
  .error (.appendOnly member position view.relation.name)

structure UnitOfWork where
  model : Model
  settings : Settings
  store : RowStore
  channels : Channels
  views : Assoc ViewId RelationView
  nextView : Nat
  inserting : Option RowId

namespace UnitOfWork

def new (model : Model) (settings : Settings) : UnitOfWork :=
  ⟨model, settings, .empty, .empty, .empty, 0, none⟩

def compiler (unit : UnitOfWork) : Sql.Compiler :=
  unit.settings.compiler unit.model

def value (unit : UnitOfWork) (row : RowId) (column : String) (version : RowVersion) :
    Except Fault Value := do
  let record ← unit.store.record row
  let entity ← unit.model.entity record.entity
  let index ← entity.columnIndex column
  return (record.version version).getD index .null

def identityOf (unit : UnitOfWork) (row : RowId) : Except Fault ObjectIdentity :=
  (unit.store.record row).map (·.identity)

def reader (unit : UnitOfWork) (row : RowId) : Except Fault RowReader := do
  let record ← unit.store.record row
  return ⟨record.entity, fun column version => (unit.value row column version).toOption⟩

def view (unit : UnitOfWork) (view : ViewId) : Except Fault RelationView :=
  match unit.views.get? view with
  | some view => .ok view
  | none => .error .viewNotLoaded

-- The owner's side of a view: no key while the owner is not live or its key is null.
def ownerKey (unit : UnitOfWork) (view : RelationView) : Except Fault (Option Value) :=
  match unit.store.live.get? view.owner with
  | none => return none
  | some owner =>
    if (unit.store.state owner).isLive then do
      let key ← unit.value owner view.relation.parentKey .current
      return if key.isNull then none else some key
    else return none

end UnitOfWork

end RelationalMapper.Cache
