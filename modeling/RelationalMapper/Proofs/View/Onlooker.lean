import RelationalMapper.Proofs.View.Arrival
import RelationalMapper.Proofs.View.Progress

set_option autoImplicit false

namespace RelationalMapper.Cache

variable {σ : Type}

namespace Channels

variable {channels : Channels} {channel wanted : Channel} {table other : String}
  {subscriber told : Subscriber}

theorem subscribers_subscribe (channels : Channels) (channel wanted : Channel) (table other : String)
    (subscriber : Subscriber) :
    (channels.subscribe channel table subscriber).2.subscribers wanted other =
      channels.subscribers wanted other ++ if channel = wanted ∧ table = other then [subscriber] else [] := by
  rw [subscribers, on_subscribe]
  split
  next here =>
    obtain ⟨rfl, rfl⟩ := here
    simp [subscribers]
  next => simp [subscribers]

theorem mem_subscribers_subscribe :
    told ∈ (channels.subscribe channel table subscriber).2.subscribers wanted other ↔
      told ∈ channels.subscribers wanted other ∨
        (channel = wanted ∧ table = other) ∧ told = subscriber := by
  rw [subscribers_subscribe, List.mem_append]
  split <;> simp [*]

theorem subscribers_unsubscribe_subset (id : SubscriptionId) :
    (channels.unsubscribe id).2.subscribers channel table ⊆ channels.subscribers channel table := by
  rw [subscribers, on_unsubscribe]
  exact List.map_subset _ (List.filter_subset_self _)

end Channels

namespace UnitOfWork

structure Tethered (unit : UnitOfWork) (model : Model) : Prop where
  modelled : unit.model = model
  opened : ∀ id view, unit.views.get? id = some view → id.number < unit.nextView ∧ view.Proper model
  hears : ∀ channel table id, .view id ∈ unit.channels.subscribers channel table →
    id.number < unit.nextView ∧ ∀ view, unit.views.get? id = some view → view.childTable = table

namespace Tethered

variable {unit after : UnitOfWork} {model : Model}

theorem new (model : Model) (settings : Settings) : (UnitOfWork.new model settings).Tethered model where
  modelled := rfl
  opened _ _ found := nomatch found
  hears channel := by
    intro table id member
    cases channel <;> exact nomatch member

theorem alike (tethered : unit.Tethered model) (same : after.model = unit.model)
    (numbers : after.nextView = unit.nextView) (views : after.ViewsAlike unit)
    (channels : ∀ channel table id, .view id ∈ after.channels.subscribers channel table →
      .view id ∈ unit.channels.subscribers channel table) : after.Tethered model := by
  refine ⟨same.trans tethered.modelled, fun id view found => ?_, fun channel table id member => ?_⟩
  · obtain ⟨older, stood, alike⟩ := views id view found
    obtain ⟨early, proper⟩ := tethered.opened id older stood
    exact ⟨numbers ▸ early, proper.alike alike⟩
  · obtain ⟨early, own⟩ := tethered.hears channel table id (channels channel table id member)
    refine ⟨numbers ▸ early, fun view found => ?_⟩
    obtain ⟨older, stood, alike⟩ := views id view found
    exact alike.childTable.trans (own older stood)

theorem tellViews (tethered : unit.Tethered model) {patch : RelationView → RelationView}
    (patches : ∀ view, (patch view).Repeopled view) (heard : List Subscriber) :
    ({ unit with views := tellViews patch heard unit.views } : UnitOfWork).Tethered model :=
  tethered.alike rfl rfl (.tellViews patches heard unit) fun _ _ _ member => member

theorem openView (valid : model.validate = .ok ()) (named : (model.entities.map (·.name)).Nodup)
    (tethered : unit.Tethered model) {owner : ObjectIdentity} {relation : String} {id : ViewId}
    (opened : unit.openView owner relation = .ok (id, after)) : after.Tethered model := by
  obtain ⟨ownerEntity, relation, child, mapped, listed, parent, known, rfl, rfl⟩ :=
    openView_eq_ok.mp opened
  rw [tethered.modelled] at mapped known
  refine ⟨tethered.modelled, fun id view found => ?_, fun channel table id member => ?_⟩
  · change id.number < unit.nextView + 1 ∧ _
    rw [Assoc.get?_insert] at found
    split at found
    next here =>
      cases found
      exact ⟨by rw [← here]; exact Nat.lt_succ_self _,
        RelationView.proper_opened valid named mapped listed parent known⟩
    next =>
      obtain ⟨early, proper⟩ := tethered.opened id view found
      exact ⟨Nat.lt_succ_of_lt early, proper⟩
  · obtain ⟨early, own⟩ := tethered.hears channel table id member
    refine ⟨Nat.lt_succ_of_lt early, fun view found => ?_⟩
    rw [Assoc.get?_insert, if_neg] at found
    · exact own view found
    · rintro rfl
      exact Nat.lt_irrefl _ early

theorem completeLoad (tethered : unit.Tethered model) {id : ViewId} {view : RelationView}
    (stood : unit.views.get? id = some view) (members : List ObjectIdentity) :
    (unit.completeLoad id view members).Tethered model := by
  have before : (unit.completeLoad id view members).ViewsAlike unit := .completeLoad stood members
  refine ⟨tethered.modelled, fun other later found => ?_, fun channel table other member => ?_⟩
  · obtain ⟨older, stood, alike⟩ := before other later found
    obtain ⟨early, proper⟩ := tethered.opened other older stood
    exact ⟨early, proper.alike alike⟩
  · suffices settled : other.number < unit.nextView ∧
        ∀ older, unit.views.get? other = some older → older.childTable = table by
      refine ⟨settled.1, fun later found => ?_⟩
      obtain ⟨older, stood, alike⟩ := before other later found
      exact alike.childTable.trans (settled.2 older stood)
    rw [UnitOfWork.completeLoad, Channels.mem_subscribers_subscribe,
      Channels.mem_subscribers_subscribe] at member
    have own (same : view.childTable = table) (here : Subscriber.view other = .view id) :
        other.number < unit.nextView ∧
          ∀ older, unit.views.get? other = some older → older.childTable = table := by
      cases here
      refine ⟨(tethered.opened id view stood).1, fun older found => ?_⟩
      cases stood.symm.trans found
      exact same
    rcases member with (earlier | ⟨⟨-, same⟩, here⟩) | ⟨⟨-, same⟩, here⟩
    · exact tethered.hears channel table other earlier
    · exact own same here
    · exact own same here

theorem invalidate (tethered : unit.Tethered model) (id : ViewId) :
    (unit.invalidate id).Tethered model := by
  refine tethered.alike (unit.model_invalidate id) (unit.nextView_invalidate id) (.invalidate unit id) ?_
  intro channel table other member
  obtain ⟨subscription, among, same⟩ := List.mem_map.mp member
  exact List.mem_map.mpr ⟨subscription, on_invalidate unit id channel table subscription among, same⟩

theorem closeView (tethered : unit.Tethered model) (id : ViewId) : (unit.closeView id).Tethered model := by
  refine (tethered.invalidate id).alike rfl rfl (fun other view found => ?_) fun _ _ _ member => member
  rw [UnitOfWork.closeView, Assoc.get?_erase] at found
  split at found
  · cases found
  · exact ⟨view, found, .refl view⟩

end Tethered

theorem tethered_leading {model : Model} (valid : model.validate = .ok ())
    (named : (model.entities.map (·.name)).Nodup) :
    Leading (·.Tethered model) fun _ after => after.Tethered model where
  refl tethered := tethered
  trans _ second := second
  arrives led := led
  attach {unit after entity values row} tethered attached := by
    obtain ⟨_, _, -, -, -, ⟨-, rfl⟩ | ⟨-, -, rfl⟩⟩ := attach_eq_ok.mp attached
    · exact tethered
    · exact ⟨tethered.modelled, tethered.opened, tethered.hears⟩
  begin := by
    rintro unit after entity values row ⟨table, pending⟩ tethered begun
    obtain ⟨-, -, -, -, -, -, -, -, -, -, rfl⟩ := beginInsert_eq_ok.mp begun
    exact ⟨tethered.modelled, tethered.opened, tethered.hears⟩
  inserting _ tethered := ⟨tethered.modelled, tethered.opened, tethered.hears⟩
  write _ _ tethered applied := by
    obtain ⟨-, rfl⟩ := applyChange_eq_ok.mp applied
    exact ⟨tethered.modelled, tethered.opened, tethered.hears⟩
  delete _ _ tethered applied := by
    obtain ⟨_, -, rfl⟩ := applyDeletion_eq_ok.mp applied
    split
    · exact ⟨tethered.modelled, tethered.opened, tethered.hears⟩
    · exact tethered
  forget _ _ tethered := ⟨tethered.modelled, tethered.opened, tethered.hears⟩
  accept tethered := ⟨tethered.modelled, tethered.opened, tethered.hears⟩
  followChange {unit after id change} tethered followed := by
    rw [followChange_told followed]
    exact tethered.tellViews (unit.afterChange_eq change) [.view id]
  followDeletion {unit after id deletion} tethered followed := by
    rw [followDeletion_told followed]
    exact tethered.tellViews (unit.afterDeletion_eq deletion) [.view id]
  openView tethered opened := tethered.openView valid named opened
  completeLoad members tethered stood := tethered.completeLoad (view_eq_ok.mp stood) members
  invalidate id tethered := tethered.invalidate id
  closeView id tethered := tethered.closeView id
  subscribe channel table listener tethered := by
    refine tethered.alike rfl rfl (fun id view found => ⟨view, found, .refl view⟩) ?_
    intro wanted other id member
    rcases Channels.mem_subscribers_subscribe.mp member with earlier | ⟨-, impossible⟩
    · exact earlier
    · cases impossible
  unsubscribe id tethered :=
    tethered.alike rfl rfl (fun id view found => ⟨view, found, .refl view⟩)
      fun channel table other member => Channels.subscribers_unsubscribe_subset id member

theorem Tethered.onlooked {unit : UnitOfWork} {model : Model} (tethered : unit.Tethered model)
    (formed : unit.model = model ∧ unit.store.WellFormed model) (alone : unit.Alone) :
    unit.Onlooked model := by
  refine ⟨formed, fun id view found => (tethered.opened id view found).2, ?_⟩
  intro channel table subscriber member
  obtain ⟨id, rfl⟩ := alone channel table subscriber member
  exact ⟨id, rfl, (tethered.hears channel table id member).2⟩

theorem Reachable.tethered {unit : UnitOfWork} {model : Model} (valid : model.validate = .ok ())
    (named : (model.entities.map (·.name)).Nodup) (reachable : unit.Reachable model) :
    unit.Tethered model :=
  reachable.good (tethered_leading valid named) (Tethered.new model)

theorem Reachable.onlooked {unit : UnitOfWork} {model : Model} (valid : model.validate = .ok ())
    (named : (model.entities.map (·.name)).Nodup) (reachable : unit.Reachable model)
    (alone : unit.Alone) : unit.Onlooked model :=
  (reachable.tethered valid named).onlooked reachable.wellFormed alone

def unheard (unit : UnitOfWork) : UnitOfWork :=
  { unit with channels := .empty, views := .empty }

theorem attach_unheard (unit : UnitOfWork) (name : String) (values : List Value) :
    unit.unheard.attach name values =
      (unit.attach name values).map fun (row, after) => (row, after.unheard) := by
  unfold attach
  rw [Except.map_bind]
  refine congrArg _ (funext fun entity => ?_)
  dsimp only
  split
  · rfl
  · rw [Except.map_bind]
    refine congrArg _ (funext fun identity => ?_)
    dsimp only [unheard]
    cases unit.store.resolve? identity <;> rfl

theorem beginInsert_unheard (unit : UnitOfWork) (name : String) (values : List (String × Value)) :
    unit.unheard.beginInsert name values =
      (unit.beginInsert name values).map fun (started, after) => (started, after.unheard) := by
  unfold beginInsert
  rw [Except.map_bind]
  refine congrArg _ (funext fun entity => ?_)
  rw [Except.map_bind]
  refine congrArg _ (funext fun arranged => ?_)
  rw [Except.map_bind]
  refine congrArg _ (funext fun identity => ?_)
  change (if unit.store.live.contains identity then _ else _) = _
  dsimp only
  split <;> rfl

variable {unit after other : UnitOfWork} {model : Model} {row : RowId}
  {values : List (String × Value)}

theorem Onlooked.unheard (onlooked : unit.Onlooked model) : unit.unheard.Onlooked model where
  formed := onlooked.formed
  proper _ _ found := nomatch found
  hears channel := by
    intro table subscriber member
    cases channel <;> exact nomatch member

theorem Written.unheard (written : Written row values unit after) :
    Written row values unit.unheard after.unheard := by
  induction written with
  | nil unit => exact .nil unit.unheard
  | cons found _ ih => exact .cons found ih

theorem Written.unique (written : Written row values unit after)
    (again : Written row values unit other) : after = other := by
  induction written with
  | nil unit =>
    cases again
    rfl
  | cons found _ ih =>
    cases again with
    | cons found' later =>
      cases found.symm.trans found'
      exact ih later

def Overlooked {α : Type} (action : Action σ α) (unit : UnitOfWork) (memory : σ) : Prop :=
  ∃ result after, action unit memory = some ⟨result, after, memory⟩ ∧
    action unit.unheard memory = some ⟨result, after.unheard, memory⟩

section

variable (onlooked : unit.Onlooked model) (mapped : (model.entities.map (·.table)).Nodup)
  (calls : Callbacks σ) (memory : σ)

theorem attachRow_overlooked (unit : UnitOfWork) (name : String) (values : List Value) (memory : σ) :
    Overlooked (attachRow name values) unit memory := by
  have unheard := attach_unheard unit name values
  cases attached : unit.attach name values with
  | error fault =>
    rw [attached] at unheard
    exact ⟨.error fault, unit, Action.ask_bind_of_error attached _,
      Action.ask_bind_of_error unheard _⟩
  | ok answer =>
    rw [attached] at unheard
    refine ⟨.ok answer.1, answer.2, Action.ask_bind_of_ok attached _, ?_⟩
    exact (Action.ask_bind_of_ok unheard _).trans rfl

include onlooked mapped

theorem writeColumn_overlooked (row : RowId) (column : String) (value : Value) :
    Overlooked (Cache.writeColumn calls row column value) unit memory := by
  cases found : unit.changeOf row column value with
  | error fault =>
    exact ⟨.error fault, unit, Action.ask_bind_of_error found _,
      Action.ask_bind_of_error (show unit.unheard.changeOf row column value = _ from found) _⟩
  | ok answer =>
    exact ⟨.ok (), unit.changed answer.1 answer.2, onlooked.writeColumn mapped calls found memory,
      onlooked.unheard.writeColumn mapped calls found memory⟩

theorem deleteRow_overlooked (row : RowId) :
    Overlooked (Cache.deleteRow calls row) unit memory := by
  cases found : unit.deletionOf row with
  | error fault =>
    exact ⟨.error fault, unit, Action.ask_bind_of_error found _,
      Action.ask_bind_of_error (show unit.unheard.deletionOf row = _ from found) _⟩
  | ok deletion =>
    obtain ⟨record, held, -, -⟩ := deletionOf_eq_ok.mp found
    exact ⟨.ok (), unit.removed deletion record, onlooked.deleteRow mapped calls found held memory,
      onlooked.unheard.deleteRow mapped calls found held memory⟩

theorem insertRow_overlooked (name : String) (values : List (String × Value)) :
    Overlooked (Cache.insertRow calls name values) unit memory := by
  have unheard := beginInsert_unheard unit name values
  cases begun : unit.beginInsert name values with
  | error fault =>
    rw [begun] at unheard
    exact ⟨.error fault, unit, insertRow_of_unbegun begun, insertRow_of_unbegun unheard⟩
  | ok answer =>
    obtain ⟨⟨row, table, pending⟩, started⟩ := answer
    rw [begun] at unheard
    obtain ⟨after, ran, written⟩ := onlooked.insertRow mapped begun calls memory
    obtain ⟨last, ran', written'⟩ := onlooked.unheard.insertRow mapped unheard calls memory
    cases written'.unique written.unheard
    exact ⟨.ok row, { after with inserting := unit.inserting }, ran, ran'⟩

end

end UnitOfWork

def Operation.mutates : Operation → Bool
  | attach .. | insert .. | write .. | delete _ | accept => true
  | _ => false

/-- Where nobody but views listens, an operation on rows has the result that it would have with nobody
listening, and leaves the same rows. An insert that fails has not begun. -/
theorem views_only_observe {model : Model} (valid : model.validate = .ok ())
    (named : (model.entities.map (·.name)).Nodup) (mapped : (model.entities.map (·.table)).Nodup)
    {unit : UnitOfWork} (reachable : unit.Reachable model) (alone : unit.Alone) {operation : Operation}
    (mutates : operation.mutates = true) (calls : Callbacks σ) (memory : σ) :
    ∃ result after, perform calls operation unit memory = some ⟨result, after, memory⟩ ∧
      perform calls operation unit.unheard memory = some ⟨result, after.unheard, memory⟩ ∧
      ∀ name values, operation = .insert name values → (∃ fault, result = .error fault) →
        ∃ fault, unit.beginInsert name values = .error fault := by
  have onlooked := reachable.onlooked valid named alone
  have overlooked : UnitOfWork.Overlooked (perform calls operation) unit memory := by
    cases operation with
    | attach name values => exact UnitOfWork.attachRow_overlooked unit name values memory
    | insert name values => exact UnitOfWork.insertRow_overlooked onlooked mapped calls memory name values
    | write row column value =>
      exact UnitOfWork.writeColumn_overlooked onlooked mapped calls memory row column value
    | delete row => exact UnitOfWork.deleteRow_overlooked onlooked mapped calls memory row
    | accept => exact ⟨.ok (), unit.accept, rfl, rfl⟩
    | _ => cases mutates
  obtain ⟨result, after, ran, unheard⟩ := overlooked
  refine ⟨result, after, ran, unheard, ?_⟩
  rintro name values rfl ⟨fault, rfl⟩
  cases begun : unit.beginInsert name values with
  | error fault => exact ⟨fault, rfl⟩
  | ok answer =>
    obtain ⟨last, carried, -⟩ := onlooked.insertRow mapped begun calls memory
    cases carried.symm.trans ran

-- A line is inserted for the order whose lines are loaded.
theorem inserted_line_is_overlooked : ∃ unit, unit.Reachable orders ∧ unit.Alone ∧
    unit.views.get? ⟨0⟩ = some noLines ∧
    ∃ result after,
      perform nothingStored (.insert "Line" [("id", .integer 7), ("order", .integer 1)]) unit () =
        some ⟨result, after, ()⟩ ∧
      perform nothingStored (.insert "Line" [("id", .integer 7), ("order", .integer 1)]) unit.unheard () =
        some ⟨result, after.unheard, ()⟩ := by
  have evaluated : (linesLoaded.run ((answering (.ok ())).callbacks 1) (.new orders .standard) ()).any
      (fun ended => decide (ended.unit.views.get? ⟨0⟩ = some noLines ∧
        ended.unit.channels = ⟨2, ⟨[("lines", [⟨⟨0⟩, .view ⟨0⟩⟩])]⟩,
          ⟨[("lines", [⟨⟨1⟩, .view ⟨0⟩⟩])]⟩⟩)) = true := by
    decide +kernel
  simp only [Option.any_eq_true, decide_eq_true_eq] at evaluated
  obtain ⟨⟨_, unit, _⟩, ran, found, heard⟩ := evaluated
  have reachable : unit.Reachable orders := UnitOfWork.Reachable.of_run ran
  have alone : unit.Alone := by
    intro channel table subscriber member
    rw [heard] at member
    refine ⟨⟨0⟩, ?_⟩
    by_cases here : "lines" = table
    · cases channel <;>
        simpa [Channels.subscribers, Channels.on, Assoc.get?, Assoc.lookup, here] using member
    · cases channel <;>
        simp [Channels.subscribers, Channels.on, Assoc.get?, Assoc.lookup, here] at member
  have mutates : (Operation.insert "Line" [("id", .integer 7), ("order", .integer 1)]).mutates = true := rfl
  obtain ⟨result, after, inserted, unheard, -⟩ := views_only_observe (by decide) (by decide) (by decide)
    reachable alone mutates nothingStored ()
  exact ⟨unit, reachable, alone, found, result, after, inserted, unheard⟩

end RelationalMapper.Cache
