import RelationalMapper.Assoc
import RelationalMapper.Fault

set_option autoImplicit false

namespace RelationalMapper.Cache

structure ColumnChange where
  row : RowId
  table : String
  column : String
  proposed : Value
  current : Value
deriving DecidableEq

structure RowDeletion where
  row : RowId
  table : String
  state : RowState
deriving DecidableEq

structure ViewId where
  number : Nat
deriving DecidableEq, Inhabited

structure ListenerKey where
  number : Nat
deriving DecidableEq, Inhabited

structure SubscriptionId where
  number : Nat
deriving DecidableEq, Inhabited

inductive Subscriber where
  | view (view : ViewId)
  | listener (key : ListenerKey)
deriving DecidableEq

structure Subscription where
  id : SubscriptionId
  subscriber : Subscriber
deriving DecidableEq

inductive Channel where
  | columnChanging
  | rowDeleting
deriving DecidableEq, Inhabited

structure Channels where
  nextNumber : Nat
  columnChanging : Assoc String (List Subscription)
  rowDeleting : Assoc String (List Subscription)
deriving DecidableEq

namespace Channels

def empty : Channels :=
  ⟨0, .empty, .empty⟩

def on (channels : Channels) : Channel → String → List Subscription
  | .columnChanging, table => (channels.columnChanging.get? table).getD []
  | .rowDeleting, table => (channels.rowDeleting.get? table).getD []

def subscribers (channels : Channels) (channel : Channel) (table : String) : List Subscriber :=
  (channels.on channel table).map (·.subscriber)

def subscribe (channels : Channels) (channel : Channel) (table : String) (subscriber : Subscriber) :
    SubscriptionId × Channels :=
  let id : SubscriptionId := ⟨channels.nextNumber⟩
  let held := channels.on channel table ++ [⟨id, subscriber⟩]
  let channels := { channels with nextNumber := channels.nextNumber + 1 }
  (id,
    match channel with
    | .columnChanging =>
      { channels with columnChanging := channels.columnChanging.insert table held }
    | .rowDeleting => { channels with rowDeleting := channels.rowDeleting.insert table held })

def holds (tables : Assoc String (List Subscription)) (id : SubscriptionId) : Bool :=
  tables.entries.any fun (_, held) => held.any (·.id = id)

def cancel (tables : Assoc String (List Subscription)) (id : SubscriptionId) :
    Assoc String (List Subscription) :=
  ⟨tables.entries.map fun (table, held) => (table, held.filter (·.id ≠ id))⟩

def unsubscribe (channels : Channels) (id : SubscriptionId) : Bool × Channels :=
  (holds channels.columnChanging id || holds channels.rowDeleting id,
    { channels with
      columnChanging := cancel channels.columnChanging id
      rowDeleting := cancel channels.rowDeleting id })

def count (channels : Channels) (table : String) : Nat :=
  (channels.on .columnChanging table).length + (channels.on .rowDeleting table).length

end Channels

end RelationalMapper.Cache
