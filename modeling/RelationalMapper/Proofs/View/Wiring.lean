import RelationalMapper.Cache.ViewActions
import RelationalMapper.Proofs.Store.Lookup

set_option autoImplicit false

namespace RelationalMapper.Cache

namespace Channels

variable (channels : Channels) (channel wanted : Channel) (table other : String)

theorem on_subscribe (subscriber : Subscriber) :
    (channels.subscribe channel table subscriber).2.on wanted other =
      if channel = wanted ∧ table = other then
        channels.on channel table ++ [⟨⟨channels.nextNumber⟩, subscriber⟩]
      else channels.on wanted other := by
  cases channel <;> cases wanted <;>
    by_cases same : table = other <;> simp [subscribe, on, Assoc.get?_insert, same]

@[simp] theorem id_subscribe (subscriber : Subscriber) :
    (channels.subscribe channel table subscriber).1 = ⟨channels.nextNumber⟩ := rfl

@[simp] theorem nextNumber_subscribe (subscriber : Subscriber) :
    (channels.subscribe channel table subscriber).2.nextNumber = channels.nextNumber + 1 := by
  cases channel <;> rfl

theorem get?_cancel (tables : Assoc String (List Subscription)) (id : SubscriptionId) :
    (cancel tables id).get? table = (tables.get? table).map (·.filter (·.id ≠ id)) := by
  obtain ⟨entries⟩ := tables
  simp only [cancel, Assoc.get?]
  induction entries with
  | nil => rfl
  | cons entry rest ih =>
    obtain ⟨first, held⟩ := entry
    by_cases same : first = table
    · simp [Assoc.lookup, same]
    · simpa [Assoc.lookup, same] using ih

theorem on_unsubscribe (id : SubscriptionId) :
    (channels.unsubscribe id).2.on channel table =
      (channels.on channel table).filter (·.id ≠ id) := by
  cases channel
  · simp only [unsubscribe, on, get?_cancel]
    cases channels.columnChanging.get? table <;> rfl
  · simp only [unsubscribe, on, get?_cancel]
    cases channels.rowDeleting.get? table <;> rfl

def heldBy (subscriber : Subscriber) : List Subscription :=
  (channels.on channel table).filter (·.subscriber = subscriber)

theorem count_subscribers (subscriber : Subscriber) :
    (channels.subscribers channel table).count subscriber =
      (channels.heldBy channel table subscriber).length := by
  rw [subscribers, List.count, List.countP_map, List.countP_eq_length_filter]
  rfl

theorem heldBy_subscribe (subscriber holder : Subscriber) :
    (channels.subscribe channel table subscriber).2.heldBy wanted other holder =
      if channel = wanted ∧ table = other ∧ subscriber = holder then
        channels.heldBy wanted other holder ++ [⟨⟨channels.nextNumber⟩, holder⟩]
      else channels.heldBy wanted other holder := by
  simp only [heldBy, on_subscribe]
  by_cases here : channel = wanted ∧ table = other
  · obtain ⟨rfl, rfl⟩ := here
    by_cases same : subscriber = holder <;> simp [same]
  · have elsewhere : ¬(channel = wanted ∧ table = other ∧ subscriber = holder) :=
      fun ⟨first, second, _⟩ => here ⟨first, second⟩
    rw [if_neg here, if_neg elsewhere]

theorem heldBy_unsubscribe (id : SubscriptionId) (holder : Subscriber) :
    (channels.unsubscribe id).2.heldBy channel table holder =
      (channels.heldBy channel table holder).filter (·.id ≠ id) := by
  simp only [heldBy, on_unsubscribe, List.filter_filter, Bool.and_comm]

structure Numbered (channels : Channels) : Prop where
  fresh : ∀ channel table subscription, subscription ∈ channels.on channel table →
    subscription.id.number < channels.nextNumber
  apart : ∀ channel table subscription channel' table' subscription',
    subscription ∈ channels.on channel table → subscription' ∈ channels.on channel' table' →
    subscription.id = subscription'.id →
    channel = channel' ∧ table = table' ∧ subscription = subscription'

namespace Numbered

theorem empty : Channels.empty.Numbered where
  fresh channel := by cases channel <;> simp [Channels.empty, on]
  apart channel := by cases channel <;> simp [Channels.empty, on]

variable {channels : Channels}

theorem subscribe (numbered : channels.Numbered) (channel : Channel) (table : String)
    (subscriber : Subscriber) : (channels.subscribe channel table subscriber).2.Numbered := by
  have among (wanted : Channel) (other : String) (subscription : Subscription) :
      subscription ∈ (channels.subscribe channel table subscriber).2.on wanted other →
        subscription ∈ channels.on wanted other ∨
          wanted = channel ∧ other = table ∧
            subscription = ⟨⟨channels.nextNumber⟩, subscriber⟩ := by
    intro member
    rw [on_subscribe] at member
    split at member
    next here =>
      obtain ⟨rfl, rfl⟩ := here
      rcases List.mem_append.mp member with earlier | new
      · exact .inl earlier
      · exact .inr ⟨rfl, rfl, List.mem_singleton.mp new⟩
    next => exact .inl member
  constructor
  · intro wanted other subscription member
    rw [nextNumber_subscribe]
    rcases among wanted other subscription member with earlier | ⟨-, -, rfl⟩
    · exact Nat.lt_succ_of_lt (numbered.fresh _ _ _ earlier)
    · exact Nat.lt_succ_self _
  · intro first firstTable subscription second secondTable subscription' member member' same
    rcases among _ _ _ member with earlier | ⟨rfl, rfl, rfl⟩
    · rcases among _ _ _ member' with earlier' | ⟨-, -, rfl⟩
      · exact numbered.apart _ _ _ _ _ _ earlier earlier' same
      · have old := numbered.fresh _ _ _ earlier
        rw [same] at old
        exact absurd old (Nat.lt_irrefl _)
    · rcases among _ _ _ member' with earlier' | ⟨rfl, rfl, rfl⟩
      · have old := numbered.fresh _ _ _ earlier'
        rw [← same] at old
        exact absurd old (Nat.lt_irrefl _)
      · exact ⟨rfl, rfl, rfl⟩

theorem unsubscribe (numbered : channels.Numbered) (id : SubscriptionId) :
    (channels.unsubscribe id).2.Numbered := by
  have among (channel : Channel) (table : String) (subscription : Subscription)
      (member : subscription ∈ (channels.unsubscribe id).2.on channel table) :
      subscription ∈ channels.on channel table := by
    rw [on_unsubscribe] at member
    exact (List.mem_filter.mp member).1
  constructor
  · intro channel table subscription member
    exact numbered.fresh _ _ _ (among _ _ _ member)
  · intro channel table subscription channel' table' subscription' member member' same
    exact numbered.apart _ _ _ _ _ _ (among _ _ _ member) (among _ _ _ member') same

end Numbered

end Channels

namespace RelationView

def subscriptions (view : RelationView) (id : ViewId) (channel : Channel) (table : String) :
    List Subscription :=
  match view.state with
  | .unloaded => []
  | .loaded _ changing deleting =>
    if view.childTable = table then
      match channel with
      | .columnChanging => [⟨changing, .view id⟩]
      | .rowDeleting => [⟨deleting, .view id⟩]
    else []

end RelationView

structure UnitOfWork.Wired (unit : UnitOfWork) : Prop where
  numbered : unit.channels.Numbered
  held : ∀ id channel table, unit.channels.heldBy channel table (.view id) =
    (unit.views.get? id).elim [] (·.subscriptions id channel table)
  opened : ∀ id view, unit.views.get? id = some view → id.number < unit.nextView

namespace UnitOfWork.Wired

variable {unit : UnitOfWork}

theorem new (model : Model) (settings : Settings) : (UnitOfWork.new model settings).Wired where
  numbered := .empty
  held id channel := by cases channel <;> intro table <;> rfl
  opened id view found := nomatch found

theorem count_subscribers (wired : unit.Wired) (id : ViewId) (channel : Channel) (table : String) :
    (unit.channels.subscribers channel table).count (.view id) =
      ((unit.views.get? id).elim [] (·.subscriptions id channel table)).length := by
  rw [Channels.count_subscribers, wired.held]

theorem of_views (wired : unit.Wired) {after : UnitOfWork}
    (channels : after.channels = unit.channels) (nextView : after.nextView = unit.nextView)
    (subscriptions : ∀ id, (after.views.get? id).map (·.subscriptions) =
      (unit.views.get? id).map (·.subscriptions)) : after.Wired where
  numbered := channels ▸ wired.numbered
  held id channel table := by
    rw [channels, wired.held]
    have same := subscriptions id
    cases stood : unit.views.get? id <;> cases found : after.views.get? id <;> simp_all
  opened id view found := by
    have same := subscriptions id
    rw [found, Option.map_some, eq_comm, Option.map_eq_some_iff] at same
    obtain ⟨before, stood, -⟩ := same
    rw [nextView]
    exact wired.opened id before stood

theorem openView (wired : unit.Wired) (view : RelationView) (unloaded : view.state = .unloaded) :
    ({ unit with
      views := unit.views.insert ⟨unit.nextView⟩ view
      nextView := unit.nextView + 1 } : UnitOfWork).Wired where
  numbered := wired.numbered
  held id channel table := by
    change unit.channels.heldBy channel table (.view id) = _
    rw [wired.held, Assoc.get?_insert]
    split
    next here =>
      have absent : unit.views.get? id = none := by
        cases found : unit.views.get? id with
        | none => rfl
        | some other =>
          have early := wired.opened id other found
          rw [← here] at early
          exact absurd early (Nat.lt_irrefl _)
      simp [absent, RelationView.subscriptions, unloaded]
    next => rfl
  opened id other found := by
    change id.number < unit.nextView + 1
    rw [Assoc.get?_insert] at found
    split at found
    next here => rw [← here]; exact Nat.lt_succ_self _
    next => exact Nat.lt_succ_of_lt (wired.opened id other found)

theorem completeLoad (wired : unit.Wired) {id : ViewId} {view : RelationView}
    (found : unit.views.get? id = some view) (unloaded : view.state = .unloaded)
    (members : List ObjectIdentity) : (unit.completeLoad id view members).Wired where
  numbered :=
    (wired.numbered.subscribe .columnChanging view.childTable _).subscribe .rowDeleting
      view.childTable _
  held other channel table := by
    have stood := wired.held other channel table
    simp only [UnitOfWork.completeLoad, Channels.heldBy_subscribe, Assoc.get?_insert, stood,
      Channels.nextNumber_subscribe]
    by_cases here : id = other
    · subst here
      cases channel <;> by_cases same : view.childTable = table <;>
        simp [found, unloaded, same, RelationView.subscriptions]
    · simp [here]
  opened other held found' := by
    change other.number < unit.nextView
    rw [UnitOfWork.completeLoad, Assoc.get?_insert] at found'
    split at found'
    next here => exact here ▸ wired.opened id view found
    next => exact wired.opened other held found'

theorem subscriber_eq (wired : unit.Wired) {id : ViewId} {view : RelationView}
    {members : List ObjectIdentity} {changing deleting : SubscriptionId} {channel : Channel}
    {table : String} {subscription : Subscription} (found : unit.views.get? id = some view)
    (loaded : view.state = .loaded members changing deleting)
    (member : subscription ∈ unit.channels.on channel table)
    (own : subscription.id = changing ∨ subscription.id = deleting) :
    subscription.subscriber = .view id := by
  have mine (channel : Channel) (subscription : Subscription)
      (here : view.subscriptions id channel view.childTable = [subscription]) :
      subscription ∈ unit.channels.on channel view.childTable := by
    have held := wired.held id channel view.childTable
    rw [found, Option.elim_some, here] at held
    exact (List.mem_filter.mp (held ▸ List.mem_singleton_self subscription)).1
  rcases own with here | here
  · have first := mine .columnChanging ⟨changing, .view id⟩
      (by simp [RelationView.subscriptions, loaded])
    obtain ⟨-, -, rfl⟩ := wired.numbered.apart _ _ _ _ _ _ member first here
    rfl
  · have second := mine .rowDeleting ⟨deleting, .view id⟩
      (by simp [RelationView.subscriptions, loaded])
    obtain ⟨-, -, rfl⟩ := wired.numbered.apart _ _ _ _ _ _ member second here
    rfl

theorem invalidate (wired : unit.Wired) (id : ViewId) : (unit.invalidate id).Wired := by
  unfold UnitOfWork.invalidate
  split
  · exact wired
  next view found =>
    split
    · exact wired
    next members changing deleting loaded =>
      constructor
      · exact (wired.numbered.unsubscribe ..).unsubscribe ..
      · intro other channel table
        have stood := wired.held other channel table
        simp only [Channels.heldBy_unsubscribe, Assoc.get?_insert]
        by_cases here : id = other
        · subst here
          rw [stood, found]
          cases channel <;> by_cases same : view.childTable = table <;>
            simp [loaded, same, RelationView.subscriptions]
        · rw [if_neg here, ← stood, List.filter_filter, List.filter_eq_self]
          intro subscription member
          obtain ⟨among, holder⟩ := List.mem_filter.mp member
          have holder : subscription.subscriber = .view other := by simpa using holder
          have apart : ¬(subscription.id = changing ∨ subscription.id = deleting) := by
            intro ends
            cases (wired.subscriber_eq found loaded among ends).symm.trans holder
            exact here rfl
          simpa [not_or, and_comm] using apart
      · intro other held found'
        change other.number < unit.nextView
        rw [Assoc.get?_insert] at found'
        split at found'
        next here => exact here ▸ wired.opened id view found
        next => exact wired.opened other held found'

theorem closeView (wired : unit.Wired) (id : ViewId) : (unit.closeView id).Wired := by
  have left := wired.invalidate id
  have unloaded : ∀ view, (unit.invalidate id).views.get? id = some view →
      view.state = .unloaded := by
    intro view found
    unfold UnitOfWork.invalidate at found
    split at found
    next absent =>
      rw [absent] at found
      cases found
    next before stood =>
      split at found
      next same =>
        cases stood.symm.trans found
        exact same
      next =>
        rw [Assoc.get?_insert, if_pos rfl] at found
        cases found
        rfl
  constructor
  · exact left.numbered
  · intro other channel table
    change (unit.invalidate id).channels.heldBy channel table (.view other) =
      (((unit.invalidate id).views.erase id).get? other).elim [] _
    rw [left.held, Assoc.get?_erase]
    split
    next here =>
      subst here
      cases found : (unit.invalidate id).views.get? id with
      | none => rfl
      | some view => simp [RelationView.subscriptions, unloaded view found]
    next => rfl
  · intro other held found
    change ((unit.invalidate id).views.erase id).get? other = some held at found
    rw [Assoc.get?_erase] at found
    split at found
    · cases found
    · exact left.opened other held found

end UnitOfWork.Wired

end RelationalMapper.Cache
