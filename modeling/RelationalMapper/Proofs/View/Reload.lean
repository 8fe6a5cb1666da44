import RelationalMapper.Proofs.Run.Guard
import RelationalMapper.Proofs.View.Fetching
import RelationalMapper.Proofs.View.Onlooker

set_option autoImplicit false

namespace RelationalMapper.Cache

variable {σ : Type}

theorem Channels.count_eq (channels : Channels) (table : String) :
    channels.count table = (channels.subscribers .columnChanging table).length +
      (channels.subscribers .rowDeleting table).length := by
  simp [count, subscribers]

namespace UnitOfWork

variable {unit between after : UnitOfWork} {model : Model} {id : ViewId} {view : RelationView}

theorem numbered_invalidate (numbered : unit.channels.Numbered) (id : ViewId) :
    (unit.invalidate id).channels.Numbered := by
  unfold UnitOfWork.invalidate
  split
  · exact numbered
  · split
    · exact numbered
    · exact (numbered.unsubscribe _).unsubscribe _

theorem numbered_leading :
    Leading (·.channels.Numbered) fun _ after => after.channels.Numbered where
  refl numbered := numbered
  trans _ second := second
  arrives led := led
  attach numbered attached := by
    obtain ⟨_, _, -, -, -, ⟨-, rfl⟩ | ⟨-, -, rfl⟩⟩ := attach_eq_ok.mp attached
    · exact numbered
    · exact numbered
  begin {unit after entity values row rest} numbered begun := by
    obtain ⟨_, _, _, -, -, -, -, -, -, -, rfl⟩ := beginInsert_eq_ok.mp begun
    exact numbered
  inserting _ numbered := numbered
  write _ _ led applied := by
    obtain ⟨-, rfl⟩ := applyChange_eq_ok.mp applied
    exact led
  delete _ _ led applied := by
    obtain ⟨_, -, rfl⟩ := applyDeletion_eq_ok.mp applied
    split
    · exact led
    · exact led
  forget _ _ led := led
  accept numbered := numbered
  followChange numbered followed := by
    obtain ⟨_, rfl⟩ := followChange_eq_ok followed
    exact numbered
  followDeletion numbered followed := by
    obtain ⟨_, rfl⟩ := followDeletion_eq_ok followed
    exact numbered
  openView numbered opened := by
    obtain ⟨_, _, _, -, -, -, -, -, rfl⟩ := openView_eq_ok.mp opened
    exact numbered
  completeLoad {_ _ view} _ numbered _ :=
    (numbered.subscribe .columnChanging view.childTable _).subscribe .rowDeleting view.childTable _
  invalidate id numbered := numbered_invalidate numbered id
  closeView id numbered := numbered_invalidate numbered id
  subscribe _ _ _ numbered := numbered.subscribe ..
  unsubscribe _ numbered := numbered.unsubscribe ..

theorem Reachable.numbered (reachable : unit.Reachable model) : unit.channels.Numbered :=
  reachable.good numbered_leading fun _ => .empty

theorem numbered_queryMembers {environment : Environment σ} {depth : Nat} {memory kept : σ}
    {result : Except Fault (List ObjectIdentity)} (numbered : unit.channels.Numbered)
    (ran : queryMembers (environment.callbacks depth) id view unit memory = some ⟨result, after, kept⟩) :
    after.channels.Numbered := by
  obtain rfl | ⟨_, _, _, between, _, _, answered, rfl⟩ := queryMembers_eq_some ran
  · exact numbered
  · exact (numbered_leading.fetched numbered answered : between.channels.Numbered)

theorem subscribers_completeLoad (unit : UnitOfWork) (id : ViewId) (view : RelationView)
    (members : List ObjectIdentity) (channel : Channel) (table : String) :
    (unit.completeLoad id view members).channels.subscribers channel table =
      unit.channels.subscribers channel table ++ if view.childTable = table then [.view id] else [] := by
  rw [completeLoad, Channels.subscribers_subscribe, Channels.subscribers_subscribe]
  cases channel <;> simp

theorem subscribers_completeLoad_invalidate (numbered : unit.channels.Numbered) (id : ViewId)
    (view : RelationView) (members : List ObjectIdentity) (channel : Channel) (table : String) :
    ((unit.completeLoad id view members).invalidate id).channels.subscribers channel table =
      unit.channels.subscribers channel table := by
  have old (subscription : Subscription) (member : subscription ∈ unit.channels.on channel table) :
      subscription.id ≠ ⟨unit.channels.nextNumber + 1⟩ ∧ subscription.id ≠ ⟨unit.channels.nextNumber⟩ := by
    have early := numbered.fresh channel table subscription member
    constructor <;> intro same <;> rw [same] at early <;> dsimp only at early <;> omega
  have found : (unit.completeLoad id view members).views.get? id = some _ :=
    (Assoc.get?_insert ..).trans (if_pos rfl)
  rw [invalidate, found]
  simp only [Channels.subscribers, Channels.on_unsubscribe, completeLoad, Channels.on_subscribe,
    Channels.id_subscribe, Channels.nextNumber_subscribe, List.filter_filter]
  refine congrArg _ ?_
  cases channel <;> by_cases same : view.childTable = table <;>
    · simp only [same, List.filter_append, reduceCtorEq, and_self, and_false, false_and, if_true, if_false]
      simpa using old

def Shows (unit : UnitOfWork) (id : ViewId) (table : String) : Prop :=
  ∀ view, unit.views.get? id = some view → view.childTable = table

structure Reloaded (id : ViewId) (table : String) (loads : Nat) (before after : UnitOfWork) : Prop where
  subscribers : ∀ channel other, after.channels.subscribers channel other =
    before.channels.subscribers channel other ++
      if table = other then List.replicate loads (.view id) else []
  unloaded : after.members? id = none ↔ before.members? id = none ∧ loads = 0

namespace Reloaded

variable {table : String} {loads later : Nat} {before : UnitOfWork}

theorem refl (id : ViewId) (table : String) (unit : UnitOfWork) : Reloaded id table 0 unit unit where
  subscribers channel other := by simp
  unloaded := by simp

theorem trans (first : Reloaded id table loads before unit) (second : Reloaded id table later unit after) :
    Reloaded id table (loads + later) before after where
  subscribers channel other := by
    rw [second.subscribers, first.subscribers, List.append_assoc]
    split
    · rw [List.replicate_add]
    · rfl
  unloaded := by
    rw [second.unloaded, first.unloaded, and_assoc, Nat.add_eq_zero_iff]

theorem completeLoad (unit : UnitOfWork) (id : ViewId) (view : RelationView)
    (members : List ObjectIdentity) :
    Reloaded id view.childTable 1 unit (unit.completeLoad id view members) where
  subscribers channel other := unit.subscribers_completeLoad id view members channel other
  unloaded := by simp [members?_completeLoad]

end Reloaded

def Reloads (id : ViewId) (table : String) (before after : UnitOfWork) : Prop :=
  after.Shows id table ∧ ∃ loads, Reloaded id table loads before after

theorem reloads_onward (id : ViewId) (table : String) : Onward (·.Shows id table) (Reloads id table) where
  refl {unit} shows := ⟨shows, 0, .refl id table unit⟩
  trans := by
    rintro _ _ _ ⟨-, loads, first⟩ ⟨shows, later, second⟩
    exact ⟨shows, loads + later, first.trans second⟩
  arrives _ led := led.1

end UnitOfWork

/-- What loads this view, or reads it, and does nothing else. -/
def Operation.loads (id : ViewId) : Operation → Bool
  | load view | members view => view = id
  | _ => false

section

open UnitOfWork

variable {calls : Callbacks σ} {id : ViewId} {table : String} {unit after : UnitOfWork} {memory kept : σ}
  (sources : ∀ {command fetch unit memory rows after kept}, unit.Shows id table →
    calls.fetch id command fetch unit memory = some ⟨rows, after, kept⟩ → Reloads id table unit after)

include sources

theorem reloads_queryMembers (shows : unit.Shows id table) {view : RelationView}
    {result : Except Fault (List ObjectIdentity)}
    (ran : queryMembers calls id view unit memory = some ⟨result, after, kept⟩) :
    Reloads id table unit after := by
  obtain rfl | ⟨_, _, _, between, _, store, answered, rfl⟩ := queryMembers_eq_some ran
  · exact (reloads_onward id table).refl shows
  · obtain ⟨shows, loads, reloaded⟩ := sources shows answered
    exact ⟨shows, loads, reloaded.subscribers, reloaded.unloaded⟩

theorem reloads_loadView (shows : unit.Shows id table) {result : Except Fault Unit}
    (ran : loadView calls id unit memory = some ⟨result, after, kept⟩) : Reloads id table unit after := by
  obtain rfl | ⟨view, _, between, -, -, queried, ends⟩ := loadView_eq_some ran
  · exact (reloads_onward id table).refl shows
  have led := reloads_queryMembers sources shows queried
  obtain rfl | ⟨later, members, there, rfl⟩ := ends
  · exact led
  · have same : later.childTable = table := led.1 later there
    subst same
    refine (reloads_onward id _).trans led ⟨fun last found => ?_, 1, .completeLoad between id later members⟩
    rw [completeLoad, Assoc.get?_insert, if_pos rfl] at found
    cases found
    rfl

theorem reloads_perform (shows : unit.Shows id table) {operation : Operation}
    (permitted : operation.loads id = true) {result : Except Fault operation.Answer}
    (ran : perform calls operation unit memory = some ⟨result, after, kept⟩) : Reloads id table unit after := by
  cases operation with
  | load view =>
    obtain rfl : view = id := by simpa [Operation.loads] using permitted
    exact reloads_loadView sources shows ran
  | members view =>
    obtain rfl : view = id := by simpa [Operation.loads] using permitted
    obtain ⟨_, loaded⟩ := viewMembers_eq_some ran
    exact reloads_loadView sources shows loaded
  | _ => cases permitted

end

section

open UnitOfWork

variable {environment : Environment σ} {depth : Nat} {id : ViewId} {table : String}
  {unit after : UnitOfWork} {memory kept : σ}
  (within : ∀ command fetch, (environment.fetch id command fetch).Within (Operation.loads id))

include within

-- By induction on how deep row sources may still be asked while others have yet to answer.
theorem reloads_fetch {command : Sql.Command} {fetch : Fetch} {rows : Except Fault (List (List Value))}
    (shows : unit.Shows id table)
    (answered : (environment.callbacks depth).fetch id command fetch unit memory =
      some ⟨rows, after, kept⟩) : Reloads id table unit after := by
  induction depth generalizing command fetch unit memory rows after kept with
  | zero => cases answered
  | succ depth ih =>
    refine leads_reply (fun memory result after kept ran => ?_) memory rows after kept answered
    rw [← Program.runUnless_never] at ran
    exact (reloads_onward id table).runUnless
      (fun shows permitted _ performed => reloads_perform ih shows permitted performed)
      (within command fetch) shows ran

/-- A load whose row source loads the same view leaves the view with the two subscriptions of each load
within it besides its own two, and only its own are ended when the view is invalidated. Nothing is left
over exactly if the view is still unloaded when the row source has answered. -/
theorem loads_within_stay_subscribed {model : Model} (reachable : unit.Reachable model) {view : RelationView}
    (found : unit.views.get? id = some view) (unloaded : view.members? = none)
    (ran : perform (environment.callbacks depth) (.load id) unit memory = some ⟨.ok (), after, kept⟩) :
    ∃ members between loads,
      queryMembers (environment.callbacks depth) id view unit memory = some ⟨.ok members, between, kept⟩ ∧
      (loads = 0 ↔ between.members? id = none) ∧
      after.channels.count view.childTable = unit.channels.count view.childTable + 2 * loads + 2 ∧
      (after.invalidate id).channels.count view.childTable =
        unit.channels.count view.childTable + 2 * loads ∧
      ∀ channel table, (after.invalidate id).channels.subscribers channel table =
        unit.channels.subscribers channel table ++
          if view.childTable = table then List.replicate loads (.view id) else [] := by
  obtain ⟨members, between, later, queried, there, rfl⟩ :=
    loadView_eq_ok ran found (RelationView.members?_eq_none.mp unloaded)
  have shows : unit.Shows id view.childTable := by
    intro other stood
    cases found.symm.trans stood
    rfl
  obtain ⟨shown, loads, reloaded⟩ := reloads_queryMembers (reloads_fetch within) shows queried
  have same : later.childTable = view.childTable := shown later there
  have ended (channel : Channel) (table : String) :
      ((between.completeLoad id later members).invalidate id).channels.subscribers channel table =
        unit.channels.subscribers channel table ++
          if view.childTable = table then List.replicate loads (.view id) else [] := by
    rw [subscribers_completeLoad_invalidate (numbered_queryMembers reachable.numbered queried),
      reloaded.subscribers]
  refine ⟨members, between, loads, queried, ?_, ?_, ?_, ended⟩
  · have before : unit.members? id = none := by simp [UnitOfWork.members?, found, unloaded]
    simp [reloaded.unloaded, before]
  · simp only [Channels.count_eq, subscribers_completeLoad, reloaded.subscribers, same, if_true,
      List.length_append, List.length_replicate, List.length_singleton]
    omega
  · simp only [Channels.count_eq, ended, if_true, List.length_append, List.length_replicate]
    omega

end

-- An order with its lines yet to be loaded.
def linesOpened : Program Bool Unit :=
  .perform (.attach "Order" [.integer 1]) fun _ =>
  .perform (.openView ⟨"orders", [.integer 1]⟩ "lines") fun _ =>
  .done ()

-- A row source that loads the lines itself when it is asked for them first.
def loadingFirst : Environment Bool where
  columnChanging _ _ := .done (.ok ())
  rowDeleting _ _ := .done (.ok ())
  fetch _ _ _ := .look fun _ asked =>
    if asked then .done (.ok []) else .keep true (.perform (.load ⟨0⟩) fun _ => .done (.ok []))

theorem loadingFirst_within (command : Sql.Command) (fetch : Fetch) :
    (loadingFirst.fetch ⟨0⟩ command fetch).Within (Operation.loads ⟨0⟩) := by
  intro unit asked
  cases asked with
  | true => trivial
  | false => exact ⟨by decide, fun _ => trivial⟩

theorem lines_loaded_within_stay_subscribed : ∃ unit after,
    unit.Reachable orders ∧ unit.views.get? ⟨0⟩ = some { noLines with state := .unloaded } ∧
      unit.channels.count "lines" = 0 ∧
      perform (loadingFirst.callbacks 2) (.load ⟨0⟩) unit false = some ⟨.ok (), after, true⟩ ∧
      after.channels.count "lines" = 4 ∧ (after.invalidate ⟨0⟩).channels.count "lines" = 2 ∧
      ∃ loads, after.channels.count "lines" = unit.channels.count "lines" + 2 * loads + 2 ∧
        (after.invalidate ⟨0⟩).channels.count "lines" = unit.channels.count "lines" + 2 * loads := by
  have evaluated : (linesOpened.run (loadingFirst.callbacks 2) (.new orders .standard) false).any
      (fun opened => (loadView (loadingFirst.callbacks 2) ⟨0⟩ opened.unit false).any fun ended =>
        decide (ended.result = .ok () ∧ ended.memory = true ∧
          opened.unit.views.get? ⟨0⟩ = some { noLines with state := .unloaded } ∧
          opened.unit.channels.count "lines" = 0 ∧ ended.unit.channels.count "lines" = 4 ∧
          (ended.unit.invalidate ⟨0⟩).channels.count "lines" = 2)) = true := by
    decide +kernel
  simp only [Option.any_eq_true, decide_eq_true_eq] at evaluated
  obtain ⟨⟨_, unit, _⟩, ran, ⟨_, after, _⟩, loaded, rfl, rfl, found, none, four, two⟩ := evaluated
  have reachable : unit.Reachable orders := .of_run ran
  obtain ⟨_, _, loads, -, -, counted, ended, -⟩ := loads_within_stay_subscribed loadingFirst_within
    reachable found rfl loaded
  exact ⟨unit, after, reachable, found, none, loaded, four, two, loads, counted, ended⟩

end RelationalMapper.Cache
