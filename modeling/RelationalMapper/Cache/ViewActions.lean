import RelationalMapper.Cache.RowActions

set_option autoImplicit false

namespace RelationalMapper.Cache

variable {σ : Type}

namespace UnitOfWork

-- A view must be opened on the parent's side of its relation.
def openView (unit : UnitOfWork) (owner : ObjectIdentity) (relationName : String) :
    Except Fault (ViewId × UnitOfWork) := do
  let ownerEntity ← unit.model.entityForTable owner.table
  let relation ← ownerEntity.relation relationName
  if relation.parent ≠ ownerEntity.name then
    throw (.notToMany relation.name ownerEntity.name)
  let child ← unit.model.entity relation.child
  let id : ViewId := ⟨unit.nextView⟩
  let view : RelationView := ⟨owner, relation, child.name, child.table, .unloaded⟩
  return (id, { unit with views := unit.views.insert id view, nextView := unit.nextView + 1 })

def invalidate (unit : UnitOfWork) (id : ViewId) : UnitOfWork :=
  match unit.views.get? id with
  | none => unit
  | some view =>
    match view.state with
    | .unloaded => unit
    | .loaded _ changing deleting =>
      let channels := ((unit.channels.unsubscribe changing).2.unsubscribe deleting).2
      { unit with channels, views := unit.views.insert id { view with state := .unloaded } }

def closeView (unit : UnitOfWork) (id : ViewId) : UnitOfWork :=
  let unit := unit.invalidate id
  { unit with views := unit.views.erase id }

-- The key of the owner's children, which only a live owner has; none of them if its key is null.
def wantedKey (unit : UnitOfWork) (view : RelationView) : Except Fault (Option Value) :=
  if (unit.store.live.get? view.owner).isNone then .error (.ownerNotLive view.owner)
  else unit.ownerKey view

def childFetch (view : RelationView) (key : Value) : Fetch :=
  { Fetch.all view.childEntity with
    qualifier := some (.column view.relation.childKey ⟨.equals, key⟩) }

def admitRow (unit : UnitOfWork) (view : RelationView) (key : Value) (members : List ObjectIdentity)
    (row : RowId) : Except Fault (List ObjectIdentity) :=
  if (unit.store.state row).isLive then do
    let held ← unit.value row view.relation.childKey .current
    if held = key then return joined members (← unit.identityOf row) else return members
  else return members

def completeLoad (unit : UnitOfWork) (id : ViewId) (view : RelationView)
    (members : List ObjectIdentity) : UnitOfWork :=
  let (changing, channels) := unit.channels.subscribe .columnChanging view.childTable (.view id)
  let (deleting, channels) := channels.subscribe .rowDeleting view.childTable (.view id)
  { unit with
    channels
    views := unit.views.insert id { view with state := .loaded members changing deleting } }

end UnitOfWork

-- Attaches fetched rows one by one; the rows before a faulty one stay attached.
def admitAll (view : RelationView) (key : Value) :
    List (List Value) → List ObjectIdentity → Action σ (List ObjectIdentity)
  | [], members => pure members
  | values :: rest, members => do
    let row ← attachRow view.childEntity values
    let members ← Action.ask (·.admitRow view key members row)
    admitAll view key rest members

-- The members of a view: first the fetched rows, then rows that only this unit of work knows.
def queryMembers (calls : Callbacks σ) (id : ViewId) (view : RelationView) :
    Action σ (List ObjectIdentity) := do
  match ← Action.ask (·.wantedKey view) with
  | none => return []
  | some key =>
    let fetch := UnitOfWork.childFetch view key
    let command ← Action.ask (·.compiler.select fetch)
    let fetched ← calls.fetch id command fetch
    let members ← admitAll view key fetched []
    -- The key is the one from before the fetch, whatever the row source did to the owner.
    Action.ask fun unit =>
      (unit.store.rows view.childTable).foldlM (unit.admitRow view key) members

def loadView (calls : Callbacks σ) (id : ViewId) : Action σ Unit := do
  let view ← Action.ask (·.view id)
  match view.state with
  | .loaded .. => pure ()
  | .unloaded =>
    let members ← queryMembers calls id view
    -- The row source may have loaded this very view; what the outer load found prevails.
    let view ← Action.ask (·.view id)
    Action.change (·.completeLoad id view members)

def viewMembers (calls : Callbacks σ) (id : ViewId) : Action σ (List ObjectIdentity) := do
  loadView calls id
  let view ← Action.ask (·.view id)
  match view.members? with
  | some members => return members
  | none => Action.fail .viewNotLoaded

def addMember (calls : Callbacks σ) (id : ViewId) (row : RowId) : Action σ Nat := do
  loadView calls id
  let view ← Action.ask (·.view id)
  match ← Action.ask (·.ownerKey view) with
  | none => Action.fail (.ownerWithoutKey view.owner)
  | some key =>
    writeColumn calls row view.relation.childKey key
    -- The place comes from the list that the announcement has changed, loaded anew if need be.
    let identity ← Action.ask (·.identityOf row)
    let members ← viewMembers calls id
    match members.findIdx? (· = identity) with
    | some index => return index
    | none => Action.fail (.didNotJoin identity view.relation.name)

def removeMember (calls : Callbacks σ) (id : ViewId) (row : RowId) : Action σ Unit := do
  loadView calls id
  let view ← Action.ask (·.view id)
  writeColumn calls row view.relation.childKey .null

def openView (owner : ObjectIdentity) (relation : String) : Action σ ViewId := do
  let (id, unit) ← Action.ask (·.openView owner relation)
  Action.change fun _ => unit
  return id

end RelationalMapper.Cache
