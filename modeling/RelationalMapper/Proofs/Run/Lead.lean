import RelationalMapper.Cache.Program
import RelationalMapper.Proofs.Run.Watch

set_option autoImplicit false

namespace RelationalMapper.Cache

variable {σ α β : Type} {leads : UnitOfWork → UnitOfWork → Prop} {unit : UnitOfWork}

def Action.Leads (leads : UnitOfWork → UnitOfWork → Prop) (unit : UnitOfWork)
    (action : Action σ α) : Prop :=
  ∀ memory result after kept, action unit memory = some ⟨result, after, kept⟩ → leads unit after

structure Inserting (calls : Callbacks σ) (name : String) (values : List (String × Value))
    (unit : UnitOfWork) (memory : σ) where
  row : RowId
  table : String
  pending : List (String × Value)
  started : UnitOfWork
  written : Except Fault Unit
  between : UnitOfWork
  halfway : σ
  begun : unit.beginInsert name values = .ok ((row, table, pending), started)
  wrote : writeColumns calls row pending started memory = some ⟨written, between, halfway⟩

def Inserting.resumed {calls : Callbacks σ} {name : String} {values : List (String × Value)}
    {memory : σ} (insert : Inserting calls name values unit memory) : UnitOfWork :=
  { insert.between with inserting := unit.inserting }

theorem insertRow_eq_some {calls : Callbacks σ} {name : String} {values : List (String × Value)}
    {memory kept : σ} {result : Except Fault RowId} {after : UnitOfWork}
    (ran : insertRow calls name values unit memory = some ⟨result, after, kept⟩) :
    (∃ fault, unit.beginInsert name values = .error fault ∧ result = .error fault ∧ after = unit) ∨
      ∃ insert : Inserting calls name values unit memory,
        (insert.written = .ok () ∧ result = .ok insert.row ∧ after = insert.resumed) ∨
        ∃ fault told last, insert.written = .error fault ∧ result = .error fault ∧
          announceDeletion calls ⟨insert.row, insert.table, .fresh⟩ insert.resumed insert.halfway =
            some ⟨told, last, kept⟩ ∧ after = last.forget insert.row := by
  have looked : Action.look unit memory = some ⟨.ok unit, unit, memory⟩ := rfl
  unfold insertRow at ran
  rw [Action.bind_of_ok looked] at ran
  obtain ⟨fault, failed, same⟩ | ⟨⟨⟨row, table, pending⟩, started⟩, begun, ran⟩ :=
    Action.ask_bind_eq_some ran
  · cases same
    exact .inl ⟨fault, failed, rfl, rfl⟩
  obtain ⟨written, between, halfway, wrote, ran⟩ := Action.attempt_bind_eq_some ran
  let insert : Inserting calls name values unit memory :=
    ⟨row, table, pending, started, written, between, halfway, begun, wrote⟩
  refine .inr ⟨insert, ?_⟩
  cases written with
  | ok =>
    cases ran
    exact .inl ⟨rfl, rfl, rfl⟩
  | error fault =>
    change (abandonInsert calls row table >>= fun _ => Action.given (.error fault)) insert.resumed
      halfway = _ at ran
    unfold abandonInsert at ran
    rw [Action.bind_bind] at ran
    obtain ⟨told, last, _, heard, ran⟩ := Action.attempt_bind_eq_some ran
    cases ran
    exact .inr ⟨fault, told, last, rfl, rfl, heard, rfl⟩

theorem admitAll_rows {view : RelationView} {key : Value} {fetched : List (List Value)}
    {members : List ObjectIdentity} {memory kept : σ} {result : Except Fault (List ObjectIdentity)}
    {after : UnitOfWork}
    (ran : admitAll view key fetched members unit memory = some ⟨result, after, kept⟩) :
    ∃ store, after = { unit with store } := by
  induction fetched generalizing unit members memory with
  | nil =>
    cases ran
    exact ⟨_, rfl⟩
  | cons values rest ih =>
    have attached {row : Except Fault RowId} {between : UnitOfWork} {halfway : σ}
        (came : attachRow view.childEntity values unit memory = some ⟨row, between, halfway⟩) :
        ∃ store, between = { unit with store } := by
      obtain ⟨_, -, same⟩ | ⟨⟨row, between⟩, attached, same⟩ := Action.ask_bind_eq_some came
      · cases same
        exact ⟨_, rfl⟩
      · cases same
        obtain ⟨_, _, -, -, -, ⟨-, same⟩ | ⟨-, -, same⟩⟩ := UnitOfWork.attach_eq_ok.mp attached
        · exact ⟨unit.store, same⟩
        · exact ⟨_, same⟩
    rcases Action.bind_eq_some.mp ran with ⟨row, between, _, came, ran⟩ | ⟨_, _, _, came, same⟩
    · obtain ⟨store, rfl⟩ := attached came
      obtain ⟨_, -, same⟩ | ⟨members, -, ran⟩ := Action.ask_bind_eq_some ran
      · cases same
        exact ⟨store, rfl⟩
      · obtain ⟨later, same⟩ := ih ran
        exact ⟨later, same⟩
    · cases same
      exact attached came

theorem queryMembers_eq_some {calls : Callbacks σ} {id : ViewId} {view : RelationView} {memory kept : σ}
    {result : Except Fault (List ObjectIdentity)} {after : UnitOfWork}
    (ran : queryMembers calls id view unit memory = some ⟨result, after, kept⟩) :
    after = unit ∨ ∃ command fetch rows between halfway store,
      calls.fetch id command fetch unit memory = some ⟨rows, between, halfway⟩ ∧
        after = { between with store } := by
  obtain ⟨_, -, same⟩ | ⟨wanted, -, ran⟩ := Action.ask_bind_eq_some ran
  · cases same
    exact .inl rfl
  cases wanted with
  | none =>
    cases ran
    exact .inl rfl
  | some key =>
    obtain ⟨_, -, same⟩ | ⟨command, -, ran⟩ := Action.ask_bind_eq_some ran
    · cases same
      exact .inl rfl
    rcases Action.bind_eq_some.mp ran with
      ⟨fetched, between, halfway, answered, ran⟩ | ⟨_, _, _, answered, same⟩
    · suffices admitted : ∃ store, after = { between with store } by
        obtain ⟨store, rfl⟩ := admitted
        exact .inr ⟨command, _, _, between, halfway, store, answered, rfl⟩
      rcases Action.bind_eq_some.mp ran with ⟨_, _, _, came, ran⟩ | ⟨_, _, _, came, same⟩
      · cases ran
        exact admitAll_rows came
      · cases same
        exact admitAll_rows came
    · cases same
      exact .inr ⟨command, _, _, after, kept, after.store, answered, rfl⟩

theorem loadView_eq_some {calls : Callbacks σ} {id : ViewId} {memory kept : σ}
    {result : Except Fault Unit} {after : UnitOfWork}
    (ran : loadView calls id unit memory = some ⟨result, after, kept⟩) :
    after = unit ∨ ∃ view found between, unit.views.get? id = some view ∧ view.state = .unloaded ∧
      queryMembers calls id view unit memory = some ⟨found, between, kept⟩ ∧
      (after = between ∨ ∃ later members, between.views.get? id = some later ∧
        after = between.completeLoad id later members) := by
  obtain ⟨_, -, same⟩ | ⟨view, stood, ran⟩ := Action.ask_bind_eq_some ran
  · cases same
    exact .inl rfl
  cases state : view.state with
  | loaded =>
    rw [state] at ran
    cases ran
    exact .inl rfl
  | unloaded =>
    rw [state] at ran
    have stood := UnitOfWork.view_eq_ok.mp stood
    rcases Action.bind_eq_some.mp ran with ⟨members, between, _, found, ran⟩ | ⟨_, _, _, found, same⟩
    · obtain ⟨_, -, same⟩ | ⟨later, there, ran⟩ := Action.ask_bind_eq_some ran
      · cases same
        exact .inr ⟨view, _, _, stood, state, found, .inl rfl⟩
      · cases ran
        exact .inr ⟨view, _, _, stood, state, found,
          .inr ⟨later, members, UnitOfWork.view_eq_ok.mp there, rfl⟩⟩
    · cases same
      exact .inr ⟨view, _, _, stood, state, found, .inl rfl⟩

-- Reading a view does to the unit of work what loading it does.
theorem viewMembers_eq_some {calls : Callbacks σ} {id : ViewId} {memory kept : σ}
    {result : Except Fault (List ObjectIdentity)} {after : UnitOfWork}
    (ran : viewMembers calls id unit memory = some ⟨result, after, kept⟩) :
    ∃ loaded, loadView calls id unit memory = some ⟨loaded, after, kept⟩ := by
  rcases Action.bind_eq_some.mp ran with ⟨_, _, _, loaded, ran⟩ | ⟨_, _, _, loaded, same⟩
  · obtain ⟨_, -, same⟩ | ⟨view, -, ran⟩ := Action.ask_bind_eq_some ran
    · cases same
      exact ⟨_, loaded⟩
    · cases members : view.members? with
      | none =>
        rw [members] at ran
        cases ran
        exact ⟨_, loaded⟩
      | some listed =>
        rw [members] at ran
        cases ran
        exact ⟨_, loaded⟩
  · cases same
    exact ⟨_, loaded⟩

structure Concluding (allowed : Operation → Bool) (idle : Prop)
    (leads : UnitOfWork → UnitOfWork → Prop) : Prop where
  refl : ∀ unit, leads unit unit
  trans : ∀ {first second third}, leads first second → leads second third → leads first third
  rows : ∀ (unit : UnitOfWork) (store : RowStore), leads unit { unit with store }
  -- An insert sets aside the row that is being inserted, and puts it back before it ends.
  insert : ∀ {unit after : UnitOfWork} {store : RowStore} {row : RowId},
    leads { unit with store, inserting := some row } after →
      leads unit { after with inserting := unit.inserting }
  followChange : ∀ {unit after : UnitOfWork} {id change},
    unit.followChange id change = .ok after → leads unit after
  followDeletion : ∀ {unit after : UnitOfWork} {id deletion},
    unit.followDeletion id deletion = .ok after → leads unit after
  openView : ∀ {unit after : UnitOfWork} {owner relation id},
    unit.openView owner relation = .ok (id, after) → leads unit after
  completeLoad : ∀ {unit : UnitOfWork} {id view} members, unit.view id = .ok view →
    (idle → view.state = .unloaded) → leads unit (unit.completeLoad id view members)
  invalidate : ∀ (unit : UnitOfWork) id, leads unit (unit.invalidate id)
  closeView : ∀ (unit : UnitOfWork) id, leads unit (unit.closeView id)
  subscribe : ∀ (unit : UnitOfWork) channel table listener, leads unit { unit with
    channels := (unit.channels.subscribe channel table (.listener listener)).2 }
  unsubscribe : ∀ (unit : UnitOfWork) id, allowed (.unsubscribe id) = true →
    leads unit { unit with channels := (unit.channels.unsubscribe id).2 }

structure Callbacks.Lead (calls : Callbacks σ) (idle : Prop)
    (leads : UnitOfWork → UnitOfWork → Prop) : Prop where
  columnChanging : ∀ unit key change, (calls.columnChanging key change).Leads leads unit
  rowDeleting : ∀ unit key deletion, (calls.rowDeleting key deletion).Leads leads unit
  fetch : ∀ unit view command fetch, (calls.fetch view command fetch).Leads
    (fun before after => leads before after ∧ (idle → after = before)) unit

section

variable {allowed : Operation → Bool} {idle : Prop} (concluding : Concluding allowed idle leads)

namespace Action.Leads

include concluding

theorem bind {first : Action σ α} {rest : α → Action σ β} (led : first.Leads leads unit)
    (later : ∀ answer after, leads unit after → (rest answer).Leads leads after) :
    (first >>= rest).Leads leads unit := by
  intro memory result after kept ran
  rcases Action.bind_eq_some.mp ran with ⟨answer, between, _, firstRan, ran⟩ | ⟨_, _, _, firstRan, same⟩
  · have first_led := led _ _ _ _ firstRan
    exact concluding.trans first_led (later answer between first_led _ _ _ _ ran)
  · cases same
    exact led _ _ _ _ firstRan

theorem given (result : Except Fault α) : (Action.given (σ := σ) result).Leads leads unit := by
  intro memory result after kept ran
  cases ran
  exact concluding.refl unit

theorem pure (answer : α) : (Pure.pure answer : Action σ α).Leads leads unit :=
  given concluding (.ok answer)

theorem fail (fault : Fault) : (Action.fail fault : Action σ α).Leads leads unit :=
  given concluding (.error fault)

theorem ask_bind {question : UnitOfWork → Except Fault α} {rest : α → Action σ β}
    (later : ∀ answer, question unit = .ok answer → (rest answer).Leads leads unit) :
    (Action.ask question >>= rest).Leads leads unit := by
  intro memory result after kept ran
  cases answered : question unit with
  | error fault =>
    rw [Action.ask_bind_of_error answered] at ran
    cases ran
    exact concluding.refl unit
  | ok answer =>
    rw [Action.ask_bind_of_ok answered] at ran
    exact later answer answered _ _ _ _ ran

omit concluding in
theorem change {update : UnitOfWork → UnitOfWork} (led : leads unit (update unit)) :
    (Action.change update : Action σ Unit).Leads leads unit := by
  intro memory result after kept ran
  cases ran
  exact led

omit concluding in
theorem step {update : UnitOfWork → α × UnitOfWork} (led : leads unit (update unit).2) :
    (Action.step update : Action σ α).Leads leads unit := by
  intro memory result after kept ran
  cases ran
  exact led

theorem change_bind {update : UnitOfWork → UnitOfWork} {rest : Unit → Action σ β}
    (led : leads unit (update unit)) (later : (rest ()).Leads leads (update unit)) :
    (Action.change update >>= rest).Leads leads unit :=
  fun memory result after kept ran => concluding.trans led (later memory result after kept ran)

omit concluding in
theorem attempt {action : Action σ α} (led : action.Leads leads unit) :
    action.attempt.Leads leads unit := by
  intro memory result after kept ran
  unfold Action.attempt at ran
  split at ran
  · cases ran
  next answer between halfway acted =>
    cases ran
    exact led memory answer _ _ acted

end Action.Leads

variable {calls : Callbacks σ} (lead : calls.Lead idle leads)

include concluding

theorem leads_attachRow (entity : String) (values : List Value) :
    (attachRow entity values : Action σ RowId).Leads leads unit := by
  refine .ask_bind concluding fun (row, after) attached => ?_
  have led : leads unit after := by
    obtain ⟨_, _, -, -, -, ⟨-, same⟩ | ⟨-, -, same⟩⟩ := UnitOfWork.attach_eq_ok.mp attached
    · rw [same]
      exact concluding.refl unit
    · rw [same]
      exact concluding.rows unit _
  exact .change_bind concluding led (.pure concluding row)

include lead

theorem leads_tellChange (change : ColumnChange) (subscribers : List Subscriber) :
    (tellChange calls change subscribers).Leads leads unit := by
  induction subscribers generalizing unit with
  | nil => exact .pure concluding ()
  | cons subscriber rest ih =>
    cases subscriber with
    | view id =>
      exact .ask_bind concluding fun after followed =>
        .change_bind concluding (concluding.followChange followed) ih
    | listener key => exact .bind concluding (lead.columnChanging unit key change) fun _ _ _ => ih

theorem leads_tellDeletion (deletion : RowDeletion) (subscribers : List Subscriber) :
    (tellDeletion calls deletion subscribers).Leads leads unit := by
  induction subscribers generalizing unit with
  | nil => exact .pure concluding ()
  | cons subscriber rest ih =>
    cases subscriber with
    | view id =>
      exact .ask_bind concluding fun after followed =>
        .change_bind concluding (concluding.followDeletion followed) ih
    | listener key => exact .bind concluding (lead.rowDeleting unit key deletion) fun _ _ _ => ih

theorem leads_announceDeletion (deletion : RowDeletion) :
    (announceDeletion calls deletion).Leads leads unit :=
  fun _ _ _ _ ran => leads_tellDeletion concluding lead deletion _ _ _ _ _ ran

theorem leads_writeColumn (row : RowId) (column : String) (value : Value) :
    (writeColumn calls row column value).Leads leads unit := by
  refine .ask_bind concluding fun (change, index) _ => ?_
  refine .bind concluding (fun _ _ _ _ ran =>
    leads_tellChange concluding lead change _ _ _ _ _ ran) fun _ between _ => ?_
  refine .ask_bind concluding fun after applied => .change ?_
  obtain ⟨-, rfl⟩ := UnitOfWork.applyChange_eq_ok.mp applied
  exact concluding.rows between _

theorem leads_deleteRow (row : RowId) : (deleteRow calls row).Leads leads unit := by
  refine .ask_bind concluding fun deletion _ => ?_
  refine .bind concluding (leads_announceDeletion concluding lead deletion) fun _ between _ => ?_
  refine .ask_bind concluding fun after applied => .change ?_
  obtain ⟨record, -, rfl⟩ := UnitOfWork.applyDeletion_eq_ok.mp applied
  split
  · exact concluding.rows between _
  · exact concluding.refl between

theorem leads_writeColumns (row : RowId) (values : List (String × Value)) :
    (writeColumns calls row values).Leads leads unit := by
  induction values generalizing unit with
  | nil => exact .pure concluding ()
  | cons entry rest ih =>
    exact .bind concluding (leads_writeColumn concluding lead row entry.1 entry.2) fun _ _ _ => ih

theorem leads_insertRow (entity : String) (values : List (String × Value)) :
    (insertRow calls entity values).Leads leads unit := by
  intro memory result after kept ran
  obtain ⟨-, -, -, rfl⟩ | ⟨insert, ends⟩ := insertRow_eq_some ran
  · exact concluding.refl after
  have restored : leads unit insert.resumed := by
    have begun := insert.begun
    have wrote := insert.wrote
    obtain ⟨_, _, _, -, -, -, -, -, -, -, same⟩ := UnitOfWork.beginInsert_eq_ok.mp begun
    rw [same] at wrote
    exact concluding.insert (leads_writeColumns concluding lead _ _ _ _ _ _ wrote)
  rcases ends with ⟨-, -, rfl⟩ | ⟨fault, told, last, -, -, heard, rfl⟩
  · exact restored
  · have told := leads_announceDeletion concluding lead _ _ _ _ _ heard
    exact concluding.trans restored (concluding.trans told (concluding.rows last _))

theorem leads_queryMembers (id : ViewId) (view : RelationView) :
    (queryMembers calls id view).Leads
      (fun before after => leads before after ∧ (idle → after.views = before.views)) unit := by
  intro memory result after kept ran
  obtain rfl | ⟨_, _, _, between, _, store, answered, rfl⟩ := queryMembers_eq_some ran
  · exact ⟨concluding.refl after, fun _ => rfl⟩
  · obtain ⟨led, same⟩ := lead.fetch _ _ _ _ _ _ _ _ answered
    exact ⟨concluding.trans led (concluding.rows between store), fun still => by rw [same still]⟩

theorem leads_loadView (id : ViewId) : (loadView calls id).Leads leads unit := by
  intro memory result after kept ran
  obtain rfl | ⟨view, _, between, stood, unloaded, queried, ends⟩ := loadView_eq_some ran
  · exact concluding.refl after
  obtain ⟨led, same⟩ := leads_queryMembers concluding lead id view _ _ _ _ queried
  obtain rfl | ⟨later, members, there, rfl⟩ := ends
  · exact led
  · refine concluding.trans led
      (concluding.completeLoad members (UnitOfWork.view_eq_ok.mpr there) fun still => ?_)
    -- An idle row source cannot have loaded the view meanwhile.
    rw [same still, stood] at there
    cases there
    exact unloaded

theorem leads_viewMembers (id : ViewId) : (viewMembers calls id).Leads leads unit := by
  intro memory result after kept ran
  obtain ⟨_, loaded⟩ := viewMembers_eq_some ran
  exact leads_loadView concluding lead id _ _ _ _ loaded

theorem leads_addMember (id : ViewId) (row : RowId) : (addMember calls id row).Leads leads unit := by
  refine .bind concluding (leads_loadView concluding lead id) fun _ loaded _ => ?_
  refine .ask_bind concluding fun view _ => .ask_bind concluding fun key _ => ?_
  cases key with
  | none => exact .fail concluding _
  | some key =>
    refine .bind concluding (leads_writeColumn concluding lead row _ key) fun _ _ _ => ?_
    refine .ask_bind concluding fun identity _ => ?_
    refine .bind concluding (leads_viewMembers concluding lead id) fun members _ _ => ?_
    cases members.findIdx? (· = identity) with
    | none => exact .fail concluding _
    | some index => exact .pure concluding index

theorem leads_removeMember (id : ViewId) (row : RowId) :
    (removeMember calls id row).Leads leads unit := by
  refine .bind concluding (leads_loadView concluding lead id) fun _ loaded _ => ?_
  exact .ask_bind concluding fun view _ => leads_writeColumn concluding lead row _ .null

theorem leads_perform (operation : Operation) (permitted : allowed operation = true) :
    (perform calls operation).Leads leads unit := by
  cases operation with
  | attach entity values => exact leads_attachRow concluding entity values
  | insert entity values => exact leads_insertRow concluding lead entity values
  | write row column value => exact leads_writeColumn concluding lead row column value
  | delete row => exact leads_deleteRow concluding lead row
  | accept => exact .change (concluding.rows unit _)
  | subscribe channel table listener => exact .step (concluding.subscribe unit channel table listener)
  | unsubscribe subscription => exact .step (concluding.unsubscribe unit subscription permitted)
  | openView owner relation =>
    exact .ask_bind concluding fun (id, after) opened =>
      .change_bind concluding (concluding.openView opened) (.pure concluding id)
  | load view => exact leads_loadView concluding lead view
  | members view => exact leads_viewMembers concluding lead view
  | add view row => exact leads_addMember concluding lead view row
  | remove view row => exact leads_removeMember concluding lead view row
  | invalidate view => exact .change (concluding.invalidate unit view)
  | close view => exact .change (concluding.closeView unit view)

end

def Program.Within (allowed : Operation → Bool) : Program σ α → Prop
  | .done _ => True
  | .look next => ∀ unit memory, (next unit memory).Within allowed
  | .keep _ next => next.Within allowed
  | .perform operation next => allowed operation = true ∧ ∀ result, (next result).Within allowed

/-- Listeners keep to the allowed operations, and so do row sources unless they are idle. -/
structure Environment.Within (environment : Environment σ) (allowed : Operation → Bool) (idle : Prop) :
    Prop where
  columnChanging : ∀ key change, (environment.columnChanging key change).Within allowed
  rowDeleting : ∀ key deletion, (environment.rowDeleting key deletion).Within allowed
  fetch : ∀ view command fetch, (environment.fetch view command fetch).Within allowed
  still : idle → ∀ view command fetch, (environment.fetch view command fetch).Within fun _ => false

section

variable {allowed : Operation → Bool} {idle : Prop}

theorem leads_run (concluding : Concluding allowed idle leads) {calls : Callbacks σ}
    (lead : calls.Lead idle leads) {program : Program σ α} (within : program.Within allowed) :
    (program.run calls).Leads leads unit := by
  induction program generalizing unit with
  | done answer => exact .pure concluding answer
  | look next ih => exact fun memory => ih unit memory (within unit memory) memory
  | keep memory next ih => exact fun _ => ih within memory
  | perform operation next ih =>
    rw [Program.run_perform]
    exact .bind concluding (.attempt (leads_perform concluding lead operation within.1))
      fun result _ _ => ih result (within.2 result)

theorem run_still {calls : Callbacks σ} {program : Program σ α} (still : program.Within fun _ => false) :
    (program.run calls).Leads (fun before after => after = before) unit := by
  induction program generalizing unit with
  | done answer =>
    intro memory result after kept ran
    cases ran
    rfl
  | look next ih => exact fun memory => ih unit memory (still unit memory) memory
  | keep memory next ih => exact fun _ => ih still memory
  | perform operation next ih => exact absurd still.1 (by simp)

theorem leads_reply {calls : Callbacks σ} {program : Program σ (Except Fault α)}
    (led : (program.run calls).Leads leads unit) : (program.reply calls).Leads leads unit := by
  intro memory result after kept ran
  rcases Action.bind_eq_some.mp ran with ⟨_, _, _, ended, ran⟩ | ⟨_, _, _, ended, same⟩
  · cases ran
    exact led _ _ _ _ ended
  · cases same
    exact led _ _ _ _ ended

theorem Environment.lead (concluding : Concluding allowed idle leads) {environment : Environment σ}
    (within : environment.Within allowed idle) (depth : Nat) :
    (environment.callbacks depth).Lead idle leads := by
  induction depth with
  | zero =>
    have unanswered {α : Type} {leads : UnitOfWork → UnitOfWork → Prop} (unit : UnitOfWork) :
        Action.Leads leads unit (fun _ _ => none : Action σ α) := by
      intro memory result after kept ran
      cases ran
    exact ⟨fun unit _ _ => unanswered unit, fun unit _ _ => unanswered unit,
      fun unit _ _ _ => unanswered unit⟩
  | succ depth ih =>
    refine ⟨?_, ?_, ?_⟩
    · exact fun _ key change => leads_reply (leads_run concluding ih (within.columnChanging key change))
    · exact fun _ key deletion => leads_reply (leads_run concluding ih (within.rowDeleting key deletion))
    · intro unit view command fetch memory result after kept ran
      refine ⟨?_, fun still => ?_⟩
      · exact leads_reply (leads_run concluding ih (within.fetch view command fetch)) _ _ _ _ ran
      · exact leads_reply (run_still (within.still still view command fetch)) _ _ _ _ ran

end

end RelationalMapper.Cache
