import RelationalMapper.Proofs.View.Attuned

set_option autoImplicit false

namespace RelationalMapper

namespace Cache

namespace Subscriber

def viewNumber? : Subscriber → Option Nat
  | view id => some id.number
  | listener _ => none

def isView (subscriber : Subscriber) : Bool :=
  subscriber.viewNumber?.isSome

@[simp] theorem viewNumber?_view (id : ViewId) : (view id).viewNumber? = some id.number := rfl

@[simp] theorem viewNumber?_listener (key : ListenerKey) : (listener key).viewNumber? = none := rfl

@[simp] theorem isView_view (id : ViewId) : (view id).isView = true := rfl

@[simp] theorem isView_listener (key : ListenerKey) : (listener key).isView = false := rfl

theorem count_viewNumbers (heard : List Subscriber) (number : Nat) :
    (heard.filterMap (·.viewNumber?)).count number = heard.count (.view ⟨number⟩) := by
  induction heard with
  | nil => rfl
  | cons subscriber rest ih =>
    cases subscriber with
    | listener key => rw [List.filterMap_cons_none rfl, ih, List.count_cons_of_ne (by simp)]
    | view id =>
      obtain ⟨first⟩ := id
      simp [ih, List.count_cons]

end Subscriber

structure Enrolment where
  id : SubscriptionId
  channel : Channel
  table : String
deriving DecidableEq

namespace Channels

variable {channels : Channels} {channel : Channel} {table : String} {id : SubscriptionId}

structure Keyed (channels : Channels) : Prop where
  columnChanging : channels.columnChanging.keys.Nodup
  rowDeleting : channels.rowDeleting.keys.Nodup

def enrolled (channels : Channels) (channel : Channel) (table : String) : List SubscriptionId :=
  ((channels.on channel table).filter (!·.subscriber.isView)).map (·.id)

namespace Keyed

theorem empty : Channels.empty.Keyed :=
  ⟨List.nodup_nil, List.nodup_nil⟩

theorem subscribe (keyed : channels.Keyed) (channel : Channel) (table : String) (subscriber : Subscriber) :
    (channels.subscribe channel table subscriber).2.Keyed := by
  cases channel with
  | columnChanging => exact ⟨Assoc.nodup_keys_insert keyed.columnChanging .., keyed.rowDeleting⟩
  | rowDeleting => exact ⟨keyed.columnChanging, Assoc.nodup_keys_insert keyed.rowDeleting ..⟩

theorem unsubscribe (keyed : channels.Keyed) (id : SubscriptionId) : (channels.unsubscribe id).2.Keyed := by
  have same (tables : Assoc String (List Subscription)) : (cancel tables id).keys = tables.keys := by
    simp [cancel, Assoc.keys]
  constructor
  · simpa [Channels.unsubscribe, same] using keyed.columnChanging
  · simpa [Channels.unsubscribe, same] using keyed.rowDeleting

theorem holds_iff {tables : Assoc String (List Subscription)} (nodup : tables.keys.Nodup) :
    holds tables id = true ↔
      ∃ table subscription, subscription ∈ (tables.get? table).getD [] ∧ subscription.id = id := by
  constructor
  · intro held
    simp only [holds, List.any_eq_true, decide_eq_true_eq] at held
    obtain ⟨⟨table, subscriptions⟩, member, subscription, among, same⟩ := held
    refine ⟨table, subscription, ?_, same⟩
    rwa [(Assoc.get?_eq_some_iff nodup).mpr member]
  · rintro ⟨table, subscription, among, same⟩
    cases found : tables.get? table with
    | none => simp [found] at among
    | some subscriptions =>
      rw [found] at among
      simp only [holds, List.any_eq_true, decide_eq_true_eq]
      exact ⟨(table, subscriptions), (Assoc.get?_eq_some_iff nodup).mp found, subscription, among, same⟩

theorem cancels_iff (keyed : channels.Keyed) :
    (channels.unsubscribe id).1 = true ↔
      ∃ channel table subscription, subscription ∈ channels.on channel table ∧ subscription.id = id := by
  simp only [Channels.unsubscribe, Bool.or_eq_true, holds_iff keyed.columnChanging,
    holds_iff keyed.rowDeleting]
  constructor
  · rintro (⟨table, subscription, among, same⟩ | ⟨table, subscription, among, same⟩)
    · exact ⟨.columnChanging, table, subscription, among, same⟩
    · exact ⟨.rowDeleting, table, subscription, among, same⟩
  · rintro ⟨channel, table, subscription, among, same⟩
    cases channel with
    | columnChanging => exact .inl ⟨table, subscription, among, same⟩
    | rowDeleting => exact .inr ⟨table, subscription, among, same⟩

end Keyed

theorem enrolled_subscribe_view (channels : Channels) (wanted channel : Channel) (other table : String)
    (view : ViewId) :
    (channels.subscribe wanted other (.view view)).2.enrolled channel table =
      channels.enrolled channel table := by
  simp only [enrolled, on_subscribe]
  split
  next here => simp [here.1, here.2]
  next => rfl

theorem enrolled_subscribe (channels : Channels) (wanted channel : Channel) (other table : String)
    (key : ListenerKey) :
    (channels.subscribe wanted other (.listener key)).2.enrolled channel table =
      channels.enrolled channel table ++
        if wanted = channel ∧ other = table then [⟨channels.nextNumber⟩] else [] := by
  simp only [enrolled, on_subscribe]
  split
  next here => simp [here.1, here.2]
  next => simp

theorem enrolled_unsubscribe (channels : Channels) (channel : Channel) (table : String)
    (id : SubscriptionId) :
    (channels.unsubscribe id).2.enrolled channel table =
      (channels.enrolled channel table).filter (· ≠ id) := by
  simp only [enrolled, on_unsubscribe, List.filter_map, List.filter_filter]
  congr 1
  apply List.filter_congr
  intro subscription _
  simp [Bool.and_comm]

end Channels

namespace UnitOfWork

variable {unit after : UnitOfWork} {held : List Enrolment} {channel : Channel} {table : String} {id : ViewId}

def isLoadedOn (unit : UnitOfWork) (table : String) (id : ViewId) : Bool :=
  (unit.views.get? id).any fun view => view.members?.isSome && view.childTable = table

/-- How many of the views that have been opened are loaded, with this child table. -/
def loadedOn (unit : UnitOfWork) (table : String) : Nat :=
  (List.range unit.nextView).countP fun number => unit.isLoadedOn table ⟨number⟩

namespace Wired

theorem count_views (wired : unit.Wired) (channel : Channel) (table : String) :
    (unit.channels.on channel table).countP (·.subscriber.isView) = unit.loadedOn table := by
  have once (n : Nat) : (unit.channels.subscribers channel table).count (.view ⟨n⟩) =
      if unit.isLoadedOn table ⟨n⟩ then 1 else 0 := by
    rw [wired.count_subscribers, isLoadedOn]
    cases found : unit.views.get? ⟨n⟩ with
    | none => rfl
    | some view =>
      cases state : view.state <;> by_cases same : view.childTable = table <;> cases channel <;>
        simp [RelationView.subscriptions, RelationView.members?, state, same]
  have perm : ((unit.channels.subscribers channel table).filterMap (·.viewNumber?)).Perm
      ((List.range unit.nextView).filter fun number => unit.isLoadedOn table ⟨number⟩) := by
    rw [List.perm_iff_count]
    intro n
    rw [Subscriber.count_viewNumbers, once]
    by_cases loaded : unit.isLoadedOn table ⟨n⟩ = true
    · have opened : n < unit.nextView := by
        cases found : unit.views.get? ⟨n⟩ with
        | none => simp [isLoadedOn, found] at loaded
        | some view => exact wired.opened _ _ found
      have mem : n ∈ (List.range unit.nextView).filter fun number => unit.isLoadedOn table ⟨number⟩ :=
        List.mem_filter.mpr ⟨List.mem_range.mpr opened, loaded⟩
      rw [if_pos loaded, List.count_eq_one_of_mem (List.nodup_range.filter _) mem]
    · rw [if_neg loaded, eq_comm, List.count_eq_zero]
      simp [loaded]
  have length := perm.length_eq
  rw [List.length_filterMap_eq_countP, Channels.subscribers, List.countP_map,
    ← List.countP_eq_length_filter] at length
  exact length

end Wired

structure Enrols (unit : UnitOfWork) (held : List Enrolment) : Prop where
  wired : unit.Wired
  keyed : unit.channels.Keyed
  enrolled : ∀ channel table, unit.channels.enrolled channel table =
    (held.filter fun entry => entry.channel = channel ∧ entry.table = table).map (·.id)

structure Steady (after before : UnitOfWork) : Prop where
  channels : after.channels = before.channels
  nextView : after.nextView = before.nextView
  subscriptions : ∀ id, (after.views.get? id).map (·.subscriptions) =
    (before.views.get? id).map (·.subscriptions)
  reshaped : after.Reshaped before

namespace Steady

theorem of_same (channels : after.channels = unit.channels) (nextView : after.nextView = unit.nextView)
    (views : after.views = unit.views) : after.Steady unit :=
  ⟨channels, nextView, fun id => by rw [views], .of_views views⟩

theorem told {patch : RelationView → RelationView} (patches : ∀ view, (patch view).Repeopled view)
    (heard : List Subscriber) :
    ({ unit with views := tellViews patch heard unit.views } : UnitOfWork).Steady unit := by
  refine ⟨rfl, rfl, fun id => ?_, fun id view' found => ?_⟩
  · rw [get?_tellViews, Option.map_map]
    congr 1
    funext view
    exact (RelationView.Repeopled.iterate patches _ view).subscriptions
  · rw [get?_tellViews, Option.map_eq_some_iff] at found
    obtain ⟨view, stood, rfl⟩ := found
    obtain ⟨alike, loaded⟩ := (RelationView.Repeopled.iterate patches (heard.count (.view id)) view).alike
    exact ⟨view, stood, alike, loaded⟩

end Steady

namespace Enrols

theorem new (model : Model) (settings : Settings) : (UnitOfWork.new model settings).Enrols [] where
  wired := .new model settings
  keyed := .empty
  enrolled channel _ := by cases channel <;> rfl

theorem mem_held_iff (enrols : unit.Enrols held) {wanted : SubscriptionId} :
    wanted ∈ held.map (·.id) ↔ ∃ channel table, wanted ∈ unit.channels.enrolled channel table := by
  constructor
  · intro member
    obtain ⟨entry, among, rfl⟩ := List.mem_map.mp member
    refine ⟨entry.channel, entry.table, ?_⟩
    rw [enrols.enrolled]
    exact List.mem_map_of_mem (List.mem_filter.mpr ⟨among, by simp⟩)
  · rintro ⟨channel, table, member⟩
    rw [enrols.enrolled] at member
    obtain ⟨entry, among, rfl⟩ := List.mem_map.mp member
    exact List.mem_map_of_mem (List.mem_filter.mp among).1

theorem count (enrols : unit.Enrols held) (table : String) :
    unit.channels.count table = held.countP (·.table = table) + 2 * unit.loadedOn table := by
  have each (channel : Channel) : (unit.channels.on channel table).length =
      held.countP (fun entry => entry.channel = channel ∧ entry.table = table) + unit.loadedOn table := by
    have listeners := congrArg List.length (enrols.enrolled channel table)
    have views := enrols.wired.count_views channel table
    have both := List.length_eq_countP_add_countP (·.subscriber.isView)
      (l := unit.channels.on channel table)
    simp only [Channels.enrolled, List.length_map, ← List.countP_eq_length_filter] at listeners
    simp only [Bool.not_eq_true, ← Bool.not_eq_true', Bool.decide_eq_true] at both
    omega
  have apart (held : List Enrolment) : held.countP (·.table = table) =
      held.countP (fun entry => entry.channel = .columnChanging ∧ entry.table = table) +
        held.countP (fun entry => entry.channel = .rowDeleting ∧ entry.table = table) := by
    induction held with
    | nil => rfl
    | cons entry rest ih =>
      obtain ⟨id, channel, other⟩ := entry
      simp only [List.countP_cons, ih]
      cases channel <;> by_cases same : other = table <;> simp [same] <;> omega
  rw [Channels.count, each, each, apart]
  omega

theorem cancels (enrols : unit.Enrols held) {wanted : SubscriptionId}
    (kept : unit.cutsOff (.unsubscribe wanted) = false) :
    (unit.channels.unsubscribe wanted).1 = decide (wanted ∈ held.map (·.id)) := by
  rw [Bool.eq_iff_iff, enrols.keyed.cancels_iff, decide_eq_true_eq, enrols.mem_held_iff]
  constructor
  · rintro ⟨channel, table, subscription, among, rfl⟩
    refine ⟨channel, table, ?_⟩
    have listens : subscription.subscriber.isView = false := by
      cases holder : subscription.subscriber with
      | listener key => rfl
      | view id =>
        have mine := enrols.wired.held id channel table
        have member : subscription ∈ unit.channels.heldBy channel table (.view id) :=
          List.mem_filter.mpr ⟨among, by simp [holder]⟩
        rw [mine] at member
        cases found : unit.views.get? id with
        | none => simp [found] at member
        | some view =>
          rw [found] at member
          have held := (RelationView.subscriber_of_mem member).2
          simp only [cutsOff, List.any_eq_false] at kept
          exact absurd (by simpa [found] using held) (kept id (unit.views.mem_keys_of_get? _ _ found))
    exact List.mem_map_of_mem (List.mem_filter.mpr ⟨among, by simp [listens]⟩)
  · rintro ⟨channel, table, member⟩
    obtain ⟨subscription, among, rfl⟩ := List.mem_map.mp member
    exact ⟨channel, table, subscription, (List.mem_filter.mp among).1, rfl⟩

theorem steady (enrols : unit.Enrols held) (steady : after.Steady unit) : after.Enrols held where
  wired := enrols.wired.of_views steady.channels steady.nextView steady.subscriptions
  keyed := steady.channels ▸ enrols.keyed
  enrolled := steady.channels ▸ enrols.enrolled

theorem openView {owner : ObjectIdentity} {relation : String} (enrols : unit.Enrols held)
    (opened : unit.openView owner relation = .ok (id, after)) : after.Enrols held := by
  obtain ⟨_, _, _, _, _, _, _, rfl, rfl⟩ := openView_eq_ok.mp opened
  exact ⟨enrols.wired.openView _ rfl, enrols.keyed, enrols.enrolled⟩

theorem completeLoad {view : RelationView} (enrols : unit.Enrols held)
    (found : unit.views.get? id = some view) (unloaded : view.state = .unloaded)
    (members : List ObjectIdentity) : (unit.completeLoad id view members).Enrols held where
  wired := enrols.wired.completeLoad found unloaded members
  keyed := (enrols.keyed.subscribe .columnChanging view.childTable _).subscribe .rowDeleting
    view.childTable _
  enrolled channel table := by
    simp only [UnitOfWork.completeLoad, Channels.enrolled_subscribe_view]
    exact enrols.enrolled channel table

theorem invalidate (enrols : unit.Enrols held) (id : ViewId) : (unit.invalidate id).Enrols held := by
  refine ⟨enrols.wired.invalidate id, ?_, fun channel table => ?_⟩
  · unfold UnitOfWork.invalidate
    split
    · exact enrols.keyed
    · split
      · exact enrols.keyed
      · exact (enrols.keyed.unsubscribe _).unsubscribe _
  · rw [← enrols.enrolled]
    unfold UnitOfWork.invalidate
    split
    · rfl
    next view found =>
      split
      · rfl
      next members changing deleting loaded =>
        simp only [Channels.enrolled_unsubscribe, List.filter_filter, List.filter_eq_self]
        intro subscribed member
        obtain ⟨subscription, among, rfl⟩ := List.mem_map.mp member
        obtain ⟨among, listens⟩ := List.mem_filter.mp among
        have apart : ¬(subscription.id = changing ∨ subscription.id = deleting) := by
          intro own
          simp [enrols.wired.subscriber_eq found loaded among own] at listens
        simpa [not_or, and_comm] using apart

theorem closeView (enrols : unit.Enrols held) (id : ViewId) : (unit.closeView id).Enrols held where
  wired := enrols.wired.closeView id
  keyed := (enrols.invalidate id).keyed
  enrolled := (enrols.invalidate id).enrolled

theorem subscribe (enrols : unit.Enrols held) (channel : Channel) (table : String) (key : ListenerKey) :
    ({ unit with channels := (unit.channels.subscribe channel table (.listener key)).2 } :
      UnitOfWork).Enrols (held ++ [⟨⟨unit.channels.nextNumber⟩, channel, table⟩]) where
  wired := enrols.wired.subscribe channel table key
  keyed := enrols.keyed.subscribe ..
  enrolled wanted other := by
    rw [Channels.enrolled_subscribe, enrols.enrolled, List.filter_append, List.map_append]
    by_cases here : channel = wanted ∧ table = other <;> simp [here]

theorem unsubscribe (enrols : unit.Enrols held) {wanted : SubscriptionId}
    (kept : unit.cutsOff (.unsubscribe wanted) = false) :
    ({ unit with channels := (unit.channels.unsubscribe wanted).2 } : UnitOfWork).Enrols
      (held.filter (·.id ≠ wanted)) where
  wired := enrols.wired.unsubscribe kept
  keyed := enrols.keyed.unsubscribe wanted
  enrolled channel table := by
    rw [Channels.enrolled_unsubscribe, enrols.enrolled, List.filter_map, List.filter_comm]
    rfl

end Enrols

def Unasked (unit : UnitOfWork) (id : ViewId) : Prop :=
  ∃ view, unit.views.get? id = some view ∧ unit.wantedKey view = .ok none

def Keyless (unit : UnitOfWork) (id : ViewId) : Prop :=
  ∃ view owner, unit.views.get? id = some view ∧ unit.store.live.get? view.owner = some owner ∧
    unit.value owner view.relation.parentKey .current = .ok .null

theorem Unasked.keyless {model : Model} (unasked : unit.Unasked id)
    (formed : unit.store.WellFormed model) : unit.Keyless id := by
  obtain ⟨view, found, wanted⟩ := unasked
  obtain ⟨lives, owned⟩ := wantedKey_eq_ok.mp wanted
  obtain ⟨owner, live⟩ := Option.isSome_iff_exists.mp lives
  obtain ⟨record, held, -, alive⟩ := (formed.live _ _).mp live
  have isLive : (unit.store.state owner).isLive = true :=
    RowStore.state_isLive.mpr ⟨record, held, alive⟩
  rw [ownerKey, live] at owned
  simp only [isLive, if_true] at owned
  obtain ⟨key, read, chosen⟩ := Except.bind_eq_ok.mp owned
  refine ⟨view, owner, found, live, ?_⟩
  by_cases null : key.isNull = true
  · rw [read, (Value.isNull_iff key).mp null]
  · rw [if_neg null] at chosen
    cases chosen

structure Subsides (after before : UnitOfWork) : Prop where
  unloaded : ∀ id, before.members? id = none → after.members? id = none
  opened : before.nextView ≤ after.nextView
  gone : ∀ id : ViewId, id.number < before.nextView → before.views.get? id = none →
    after.views.get? id = none

namespace Subsides

theorem of_steady (steady : after.Steady unit) : after.Subsides unit where
  unloaded id unloaded := by
    cases found : after.views.get? id with
    | none => simp [UnitOfWork.members?, found]
    | some view =>
      by_contra loaded
      rw [UnitOfWork.members?, found, Option.bind_some] at loaded
      exact steady.reshaped.was_loaded found (Option.isSome_iff_ne_none.mpr loaded) unloaded
  opened := Nat.le_of_eq steady.nextView.symm
  gone id _ absent := by
    have same := steady.subscriptions id
    rw [absent, Option.map_none, Option.map_eq_none_iff] at same
    exact same

theorem of_views (nextView : after.nextView = unit.nextView) (views : after.views = unit.views) :
    after.Subsides unit where
  unloaded id unloaded := by rwa [UnitOfWork.members?, views]
  opened := Nat.le_of_eq nextView.symm
  gone id _ absent := by rwa [views]

theorem openView {owner : ObjectIdentity} {relation : String}
    (opened : unit.openView owner relation = .ok (id, after)) : after.Subsides unit := by
  obtain ⟨_, _, _, _, _, _, _, rfl, rfl⟩ := openView_eq_ok.mp opened
  refine ⟨fun id unloaded => ?_, Nat.le_succ _, fun id early absent => ?_⟩
  · rw [UnitOfWork.members?, Assoc.get?_insert]
    split
    · rfl
    · exact unloaded
  · rw [Assoc.get?_insert, if_neg, absent]
    rintro rfl
    exact absurd early (Nat.lt_irrefl _)

theorem invalidate (unit : UnitOfWork) (id : ViewId) :
    (unit.invalidate id).Subsides unit ∧ (unit.invalidate id).members? id = none := by
  refine ⟨⟨fun other unloaded => ?_, Nat.le_of_eq (unit.nextView_invalidate id).symm,
    fun other _ absent => ?_⟩, ?_⟩
  · rw [UnitOfWork.members?] at unloaded ⊢
    rw [views_invalidate]
    cases found : unit.views.get? other with
    | none => rfl
    | some view =>
      rw [found] at unloaded
      by_cases here : id = other
      · simp [here, RelationView.members?]
      · simpa [here] using unloaded
  · rw [views_invalidate, absent, Option.map_none]
  · rw [UnitOfWork.members?, views_invalidate]
    cases unit.views.get? id <;> simp [RelationView.members?]

theorem closeView (unit : UnitOfWork) (id : ViewId) :
    (unit.closeView id).Subsides unit ∧ (unit.closeView id).views.get? id = none := by
  have left := (invalidate unit id).1
  have erased (other : ViewId) : (unit.closeView id).views.get? other =
      if id = other then none else (unit.invalidate id).views.get? other := by
    rw [UnitOfWork.closeView, Assoc.get?_erase]
  refine ⟨⟨fun other unloaded => ?_, left.opened, fun other early absent => ?_⟩, by simp [erased]⟩
  · rw [UnitOfWork.members?, erased]
    split
    · rfl
    · exact left.unloaded other unloaded
  · rw [erased]
    split
    · rfl
    · exact left.gone other early absent

end Subsides

end UnitOfWork

end Cache

end RelationalMapper
