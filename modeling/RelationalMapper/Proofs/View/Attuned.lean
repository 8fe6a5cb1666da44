import RelationalMapper.Proofs.View.Orderly

set_option autoImplicit false

namespace RelationalMapper.Cache

namespace Channels

variable (channels : Channels) (channel wanted : Channel) (table other : String)

theorem on_subset_subscribe (subscriber : Subscriber) :
    channels.on wanted other ⊆ (channels.subscribe channel table subscriber).2.on wanted other := by
  rw [on_subscribe]
  split
  next here =>
    obtain ⟨rfl, rfl⟩ := here
    exact List.subset_append_left _ _
  next => exact List.Subset.refl _

theorem mem_on_unsubscribe {id : SubscriptionId} {subscription : Subscription} :
    subscription ∈ (channels.unsubscribe id).2.on channel table ↔
      subscription ∈ channels.on channel table ∧ subscription.id ≠ id := by
  simp [on_unsubscribe]

end Channels

namespace RelationView

variable {view other : RelationView} {model : Model} {id : ViewId} {channel : Channel} {table : String}
  {subscription : Subscription}

def Placed (view : RelationView) (model : Model) : Prop :=
  ∃ parent child, model.entityForTable view.owner.table = .ok parent ∧
    view.relation.parent = parent.name ∧ model.entity view.relation.child = .ok child ∧
    view.childEntity = child.name ∧ view.childTable = child.table

theorem Placed.alike (alike : view.Alike other) (placed : other.Placed model) : view.Placed model := by
  rw [Placed, alike.owner, alike.relation, alike.childEntity, alike.childTable]
  exact placed

theorem Placed.ends {parent child : Entity} {parentIndex childIndex : Nat}
    (named : (model.entities.map (·.name)).Nodup) (placed : view.Placed model)
    (parentKnown : model.entity view.relation.parent = .ok parent)
    (parentKey : parent.columnIndex view.relation.parentKey = .ok parentIndex)
    (childKnown : model.entity view.relation.child = .ok child)
    (childKey : child.columnIndex view.relation.childKey = .ok childIndex) :
    view.Ends model parent child parentIndex childIndex := by
  obtain ⟨ownerEntity, _, mapped, parental, known, belongs, table⟩ := placed
  cases childKnown.symm.trans known
  obtain ⟨member, owner⟩ := Model.entityForTable_eq_ok mapped
  rw [parental, Model.entity_eq_ok named member] at parentKnown
  cases parentKnown
  exact ⟨by rw [parental, Model.entity_eq_ok named member], parentKey, owner, childKnown, childKey,
    belongs, table⟩

theorem subscriber_of_mem (member : subscription ∈ view.subscriptions id channel table) :
    subscription.subscriber = .view id ∧ view.holds subscription.id = true := by
  unfold subscriptions at member
  unfold holds
  split at member
  · cases member
  · cases channel <;> split at member <;> simp_all

end RelationView

namespace UnitOfWork

variable {unit after : UnitOfWork} {model : Model} {id : ViewId} {view : RelationView}

/-- Every view has its place in the model, and hears what it should. -/
structure Attuned (unit : UnitOfWork) (model : Model) : Prop where
  modelled : unit.model = model
  numbered : unit.channels.Numbered
  placed : ∀ id view, unit.views.get? id = some view → view.Placed model
  hears : ∀ id view channel table, unit.views.get? id = some view →
    view.subscriptions id channel table ⊆ unit.channels.on channel table

namespace Attuned

theorem new (model : Model) (settings : Settings) : (UnitOfWork.new model settings).Attuned model where
  modelled := rfl
  numbered := .empty
  placed _ _ found := nomatch found
  hears _ _ _ _ found := nomatch found

theorem hearing (attuned : unit.Attuned model) {members : List ObjectIdentity}
    (found : unit.views.get? id = some view) (loaded : view.members? = some members) (channel : Channel) :
    .view id ∈ unit.channels.subscribers channel view.childTable := by
  unfold RelationView.members? at loaded
  split at loaded
  · cases loaded
  next changing deleting state =>
    have heard (subscription : SubscriptionId)
        (own : ⟨subscription, .view id⟩ ∈ view.subscriptions id channel view.childTable) :
        .view id ∈ unit.channels.subscribers channel view.childTable :=
      List.mem_map.mpr ⟨_, attuned.hears id view channel view.childTable found own, rfl⟩
    cases channel with
    | columnChanging => exact heard changing (by simp [RelationView.subscriptions, state])
    | rowDeleting => exact heard deleting (by simp [RelationView.subscriptions, state])

theorem told (attuned : unit.Attuned model) {members : List ObjectIdentity}
    (found : unit.views.get? id = some view) (loaded : view.members? = some members) :
    .view id ∈ unit.channels.subscribers .columnChanging view.childTable :=
  attuned.hearing found loaded .columnChanging

theorem tellViews (attuned : unit.Attuned model) {patch : RelationView → RelationView}
    (patches : ∀ view, (patch view).Repeopled view) (heard : List Subscriber) :
    ({ unit with views := tellViews patch heard unit.views } : UnitOfWork).Attuned model := by
  have before (id : ViewId) (view : RelationView)
      (found : (Cache.tellViews patch heard unit.views).get? id = some view) :
      ∃ older, unit.views.get? id = some older ∧ view.Repeopled older := by
    rw [get?_tellViews, Option.map_eq_some_iff] at found
    obtain ⟨older, stood, rfl⟩ := found
    exact ⟨older, stood, RelationView.Repeopled.iterate patches _ older⟩
  refine ⟨attuned.modelled, attuned.numbered, fun id view found => ?_, fun id view channel table found => ?_⟩
  · obtain ⟨older, stood, repeopled⟩ := before id view found
    exact (attuned.placed id older stood).alike repeopled.alike.1
  · obtain ⟨older, stood, repeopled⟩ := before id view found
    rw [repeopled.subscriptions]
    exact attuned.hears id older channel table stood

theorem openView {owner : ObjectIdentity} {relation : String} (attuned : unit.Attuned model)
    (opened : unit.openView owner relation = .ok (id, after)) : after.Attuned model := by
  obtain ⟨ownerEntity, relation, child, mapped, -, parent, known, rfl, rfl⟩ := openView_eq_ok.mp opened
  rw [attuned.modelled] at mapped known
  refine ⟨attuned.modelled, attuned.numbered, fun id view found => ?_, fun id view channel table found => ?_⟩
  · rw [Assoc.get?_insert] at found
    split at found
    · cases found
      exact ⟨ownerEntity, child, mapped, parent, known, rfl, rfl⟩
    · exact attuned.placed id view found
  · rw [Assoc.get?_insert] at found
    split at found
    · cases found
      exact List.nil_subset _
    · exact attuned.hears id view channel table found

theorem completeLoad (attuned : unit.Attuned model) (stood : unit.views.get? id = some view)
    (members : List ObjectIdentity) : (unit.completeLoad id view members).Attuned model where
  modelled := attuned.modelled
  numbered :=
    (attuned.numbered.subscribe .columnChanging view.childTable _).subscribe .rowDeleting
      view.childTable _
  placed other later found := by
    rw [UnitOfWork.completeLoad, Assoc.get?_insert] at found
    split at found
    · cases found
      exact (attuned.placed id view stood).alike (view.withState_alike _)
    · exact attuned.placed other later found
  hears other later channel table found := by
    rw [UnitOfWork.completeLoad, Assoc.get?_insert] at found
    split at found
    next here =>
      cases found
      cases here
      by_cases same : view.childTable = table <;> cases channel <;>
        simp [RelationView.subscriptions, UnitOfWork.completeLoad, Channels.on_subscribe, same]
    next =>
      have first := unit.channels.on_subset_subscribe .columnChanging channel view.childTable table (.view id)
      have second := (unit.channels.subscribe .columnChanging view.childTable (.view id)).2.on_subset_subscribe
        .rowDeleting channel view.childTable table (.view id)
      exact List.Subset.trans (List.Subset.trans (attuned.hears other later channel table found) first) second

theorem unsubscribe (attuned : unit.Attuned model) {id : SubscriptionId}
    (kept : unit.cutsOff (.unsubscribe id) = false) :
    ({ unit with channels := (unit.channels.unsubscribe id).2 } : UnitOfWork).Attuned model where
  modelled := attuned.modelled
  numbered := attuned.numbered.unsubscribe id
  placed := attuned.placed
  hears other view channel table found := by
    intro subscription member
    refine (Channels.mem_on_unsubscribe ..).mpr ⟨attuned.hears other view channel table found member, ?_⟩
    rintro rfl
    have held := (RelationView.subscriber_of_mem member).2
    simp only [cutsOff, List.any_eq_false] at kept
    exact kept other (unit.views.mem_keys_of_get? _ _ found) (by simpa [found] using held)

theorem invalidate (attuned : unit.Attuned model) (id : ViewId) : (unit.invalidate id).Attuned model := by
  unfold UnitOfWork.invalidate
  split
  · exact attuned
  next view stood =>
    split
    · exact attuned
    next members changing deleting state =>
      have own (channel : Channel) (subscription : Subscription)
          (member : subscription ∈ view.subscriptions id channel view.childTable)
          {other : ViewId} (apart : id ≠ other) {later : RelationView}
          (found : unit.views.get? other = some later) {channel' : Channel} {table : String}
          {subscription' : Subscription}
          (member' : subscription' ∈ later.subscriptions other channel' table) :
          subscription'.id ≠ subscription.id := by
        intro same
        obtain ⟨-, -, rfl⟩ := attuned.numbered.apart _ _ _ _ _ _
          (attuned.hears _ _ _ _ found member') (attuned.hears _ _ _ _ stood member) same
        have held := (RelationView.subscriber_of_mem member).1
        rw [(RelationView.subscriber_of_mem member').1] at held
        cases held
        exact apart rfl
      refine ⟨attuned.modelled, (attuned.numbered.unsubscribe _).unsubscribe _, fun other later found => ?_,
        fun other later channel table found => ?_⟩
      · rw [Assoc.get?_insert] at found
        split at found
        · cases found
          exact (attuned.placed id view stood).alike (view.withState_alike _)
        · exact attuned.placed other later found
      · rw [Assoc.get?_insert] at found
        split at found
        · cases found
          exact List.nil_subset _
        next apart =>
          intro subscription member
          have first := own .columnChanging ⟨changing, .view id⟩
            (by simp [RelationView.subscriptions, state]) apart found member
          have second := own .rowDeleting ⟨deleting, .view id⟩
            (by simp [RelationView.subscriptions, state]) apart found member
          simp only [Channels.mem_on_unsubscribe]
          exact ⟨⟨attuned.hears other later channel table found member, first⟩, second⟩

theorem closeView (attuned : unit.Attuned model) (id : ViewId) : (unit.closeView id).Attuned model := by
  have left := attuned.invalidate id
  have before (other : ViewId) (later : RelationView)
      (found : ((unit.invalidate id).views.erase id).get? other = some later) :
      (unit.invalidate id).views.get? other = some later := by
    rw [Assoc.get?_erase] at found
    split at found
    · cases found
    · exact found
  exact ⟨left.modelled, left.numbered, fun other later found => left.placed other later (before _ _ found),
    fun other later channel table found => left.hears other later channel table (before _ _ found)⟩

end Attuned

theorem attuned_upheld (model : Model) : Upheld False (·.Attuned model) where
  unsubscribe kept attuned := attuned.unsubscribe kept
  concluding :=
    { refl _ attuned := attuned
      trans first second attuned := second (first attuned)
      rows _ _ attuned := ⟨attuned.modelled, attuned.numbered, attuned.placed, attuned.hears⟩
      insert led attuned := by
        have ended := led ⟨attuned.modelled, attuned.numbered, attuned.placed, attuned.hears⟩
        exact ⟨ended.modelled, ended.numbered, ended.placed, ended.hears⟩
      followChange {unit after id change} followed attuned := by
        rw [followChange_told followed]
        exact attuned.tellViews (unit.afterChange_eq change) [.view id]
      followDeletion {unit after id deletion} followed attuned := by
        rw [followDeletion_told followed]
        exact attuned.tellViews (unit.afterDeletion_eq deletion) [.view id]
      openView opened attuned := attuned.openView opened
      completeLoad members stood _ attuned := attuned.completeLoad (view_eq_ok.mp stood) members
      invalidate _ id attuned := attuned.invalidate id
      closeView _ id attuned := attuned.closeView id
      subscribe _ channel table key attuned :=
        ⟨attuned.modelled, attuned.numbered.subscribe channel table _, attuned.placed,
          fun id view wanted other found =>
            List.Subset.trans (attuned.hears id view wanted other found)
              (Channels.on_subset_subscribe ..)⟩
      unsubscribe _ _ impossible := by cases impossible }

/-- A unit of work at the end of some run in which no subscription of a view is ended from outside. -/
def Undisturbed (unit : UnitOfWork) (model : Model) : Prop :=
  ∃ (σ α : Type) (environment : Environment σ) (depth : Nat) (program : Program σ α)
    (settings : Settings) (memory kept : σ) (result : Except Fault α),
    program.runUnless (environment.guarded (fun _ => cutsOff) depth []) cutsOff (.new model settings)
      memory = some ⟨result, unit, kept⟩

namespace Undisturbed

theorem attuned (undisturbed : unit.Undisturbed model) : unit.Attuned model := by
  obtain ⟨σ, α, environment, depth, program, settings, memory, kept, result, ran⟩ := undisturbed
  exact (attuned_upheld model).run False.elim ran (.new model settings)

theorem reachable (undisturbed : unit.Undisturbed model) : unit.Reachable model := by
  obtain ⟨σ, α, environment, depth, program, settings, memory, kept, result, ran⟩ := undisturbed
  exact .of_run (runUnless_below (environment.guarded_below _ depth []) _ program _ _ _ ran)

theorem wellFormed (undisturbed : unit.Undisturbed model) : unit.store.WellFormed model :=
  undisturbed.reachable.wellFormed.2

theorem idle (undisturbed : unit.Undisturbed model) : unit.inserting = none := by
  obtain ⟨σ, α, environment, depth, program, settings, memory, kept, result, ran⟩ := undisturbed
  exact inserting_run (runUnless_below (environment.guarded_below _ depth []) _ program _ _ _ ran)

end Undisturbed

end UnitOfWork

end RelationalMapper.Cache
