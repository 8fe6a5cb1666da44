import RelationalMapper.Proofs.Run.Guard
import RelationalMapper.Proofs.View.Lasting

set_option autoImplicit false

namespace RelationalMapper.Cache

/-- What listeners do that write rows, delete rows and load views. -/
def Operation.reenters : Operation → Bool
  | write .. | delete _ | load _ => true
  | _ => false

variable {σ α : Type}

/-- Listeners write, delete and load as they like and never refuse; row sources only answer. -/
structure Environment.Obliging (environment : Environment σ) : Prop where
  columnChanging : ∀ key change, (environment.columnChanging key change).Within Operation.reenters ∧
    (environment.columnChanging key change).Answers (· = .ok ())
  rowDeleting : ∀ key deletion, (environment.rowDeleting key deletion).Within Operation.reenters ∧
    (environment.rowDeleting key deletion).Answers (· = .ok ())
  fetch : ∀ view command fetch, (environment.fetch view command fetch).Within fun _ => false

def Callbacks.answered (calls : Callbacks σ) : Callbacks σ :=
  { calls with fetch := fun view command fetch unit memory =>
      (calls.fetch view command fetch unit memory).getD ⟨.error .viewNotLoaded, unit, memory⟩ }

variable {model : Model} {unit after : UnitOfWork}

structure Announced (unit : UnitOfWork) (row : RowId) (identity : ObjectIdentity) (table : String)
    (subscribers : List Subscriber) : Prop where
  record : ∃ record, unit.store.records.get? row = some record ∧ record.table = table ∧
    record.identity = identity
  resolved : unit.store.resolve? identity = some row
  views : ∀ id, .view id ∈ subscribers →
    ∃ view, unit.views.get? id = some view ∧ view.childTable = table

namespace Announced

variable {row : RowId} {identity : ObjectIdentity} {table : String} {subscribers : List Subscriber}

theorem lasts (announced : Announced unit row identity table subscribers)
    (lasts : after.Lasts unit model) : Announced after row identity table subscribers where
  record := by
    obtain ⟨record, held, here, own⟩ := announced.record
    obtain ⟨later, held', -, here', own'⟩ := lasts.rows.records row record held
    exact ⟨later, held', here'.trans here, own'.trans own⟩
  resolved := lasts.rows.resolved _ _ announced.resolved
  views id among := by
    obtain ⟨view, found, here⟩ := announced.views id among
    obtain ⟨later, found', alike, -⟩ := lasts.views id view found
    exact ⟨later, found', alike.childTable.trans here⟩

theorem of_live (sound : unit.Sound model) {record : RowRecord}
    (held : unit.store.records.get? row = some record) (live : record.state.isLive = true)
    (channel : Channel) :
    Announced unit row record.identity record.table
      (unit.channels.subscribers channel record.table) where
  record := ⟨record, held, rfl, rfl⟩
  resolved := sound.rows.resolve?_of_record held live
  views id among := by
    cases found : unit.views.get? id with
    | none =>
      have counted := sound.wired.count_subscribers id channel record.table
      rw [found, Option.elim_none, List.length_nil, List.count_eq_zero] at counted
      exact absurd among counted
    | some view => exact ⟨view, rfl, sound.childTable found among⟩

theorem followChange (wellMapped : model.WellMapped) (sound : unit.Sound model) {change : ColumnChange}
    (announced : Announced unit change.row identity table subscribers) (id : ViewId) :
    unit.followChange id change = .ok (unit.toldOfChange change [.view id]) := by
  obtain ⟨record, held, -, -⟩ := announced.record
  exact UnitOfWork.follow_of_ok fun view found => by
    obtain ⟨parent, child, parentIndex, childIndex, ends⟩ := sound.proper id view found
    exact UnitOfWork.membersAfterChange_ok wellMapped.mapped sound.formed ends held

theorem followDeletion (wellMapped : model.WellMapped) (sound : unit.Sound model) {deletion : RowDeletion}
    (announced : Announced unit deletion.row identity table subscribers) {id : ViewId}
    (among : .view id ∈ subscribers) :
    unit.followDeletion id deletion = .ok (unit.toldOfDeletion deletion [.view id]) := by
  obtain ⟨record, held, here, -⟩ := announced.record
  obtain ⟨view, found, table⟩ := announced.views id among
  exact UnitOfWork.follow_of_ok fun other found' => by
    cases found.symm.trans found'
    obtain ⟨parent, child, parentIndex, childIndex, ends⟩ := sound.proper id view found
    exact UnitOfWork.membersAfterDeletion_ok wellMapped.mapped sound.formed ends held (here.trans table.symm)

theorem toldOfChange (ready : unit.Ready model) {change : ColumnChange}
    (announced : Announced unit change.row identity table subscribers) (id : ViewId) :
    (unit.toldOfChange change [.view id]).Lasts unit model := by
  obtain ⟨record, held, -, same⟩ := announced.record
  exact .toldOfChange ready held (by simp [same, announced.resolved]) id

theorem toldOfDeletion (ready : unit.Ready model) {deletion : RowDeletion}
    (announced : Announced unit deletion.row identity table subscribers) (id : ViewId) :
    (unit.toldOfDeletion deletion [.view id]).Lasts unit model := by
  obtain ⟨record, held, -, same⟩ := announced.record
  exact .toldOfDeletion ready held (by simp [same, announced.resolved]) id

end Announced

section

variable {follow : UnitOfWork → ViewId → Except Fault UnitOfWork} {call : ListenerKey → Action σ Unit}
  {memory kept : σ} {result : Except Fault Unit}

theorem tell_onward {good : UnitOfWork → Prop} {leads : UnitOfWork → UnitOfWork → Prop}
    (onward : Onward good leads)
    (listeners : ∀ {key unit memory result after kept}, good unit →
      call key unit memory = some ⟨result, after, kept⟩ → result = .ok () ∧ leads unit after)
    {subscribers : List Subscriber}
    (views : ∀ {id unit}, .view id ∈ subscribers → good unit →
      ∃ after, follow unit id = .ok after ∧ leads unit after)
    (holds : good unit)
    (told : tell follow call subscribers unit memory = some ⟨result, after, kept⟩) :
    result = .ok () ∧ leads unit after := by
  induction subscribers generalizing unit memory with
  | nil =>
    cases told
    exact ⟨rfl, onward.refl holds⟩
  | cons subscriber rest ih =>
    have first {answer between halfway}
        (came : tellOne follow call subscriber unit memory = some ⟨answer, between, halfway⟩) :
        answer = .ok () ∧ leads unit between := by
      cases subscriber with
      | view id =>
        obtain ⟨followed, same, led⟩ := views (List.mem_cons_self ..) holds
        rw [tellOne, Action.ask_bind_of_ok same] at came
        cases came
        exact ⟨rfl, led⟩
      | listener key => exact listeners holds came
    rcases Action.bind_eq_some.mp told with ⟨_, between, _, came, told⟩ | ⟨_, _, _, came, _⟩
    · obtain ⟨-, led⟩ := first came
      obtain ⟨accepted, later⟩ := ih (fun among => views (List.mem_cons_of_mem _ among))
        (onward.arrives holds led) told
      exact ⟨accepted, onward.trans led later⟩
    · cases (first came).1

end

structure Callbacks.Lasting (calls : Callbacks σ) (model : Model) : Prop where
  columnChanging : ∀ {key change unit memory result after kept}, unit.Ready model →
    calls.columnChanging key change unit memory = some ⟨result, after, kept⟩ →
    result = .ok () ∧ after.Lasts unit model
  rowDeleting : ∀ {key deletion unit memory result after kept}, unit.Ready model →
    calls.rowDeleting key deletion unit memory = some ⟨result, after, kept⟩ →
    result = .ok () ∧ after.Lasts unit model
  fetch : ∀ {view command fetch unit memory result after kept},
    calls.fetch view command fetch unit memory = some ⟨result, after, kept⟩ → after = unit

theorem announced_onward (row : RowId) (identity : ObjectIdentity) (table : String)
    (subscribers : List Subscriber) :
    Onward (fun unit => unit.Ready model ∧ Announced unit row identity table subscribers)
      (fun before after => after.Lasts before model) where
  refl holds := .refl holds.1
  trans first second := second.trans first
  arrives holds lasts := ⟨lasts.ready, holds.2.lasts lasts⟩

theorem ready_onward :
    Onward (fun unit => unit.Ready model) (fun before after => after.Lasts before model) where
  refl := .refl
  trans first second := second.trans first
  arrives _ lasts := lasts.ready

namespace UnitOfWork.Lasts

variable {between : UnitOfWork} {row : RowId} {column : String} {value : Value} {change : ColumnChange}
  {place : Nat}

-- The row that a change was announced for is still the same when the change is made.
theorem applyChange (ready : unit.Ready model) (lasts : between.Lasts unit model)
    (found : unit.changeOf row column value = .ok (change, place))
    (taken : between.applyChange row place value = .ok after) : after.Lasts between model := by
  obtain ⟨record, entity, held, -, known, -, outside, -⟩ := changeOf_eq_ok.mp found
  obtain ⟨⟨later, held', live⟩, rfl⟩ := applyChange_eq_ok.mp taken
  obtain ⟨_, stood, same, -, -⟩ := lasts.rows.records row record held
  cases held'.symm.trans stood
  rw [ready.sound.modelled, ← same] at known
  exact write lasts.ready value held' known live outside

end UnitOfWork.Lasts

section

variable {calls : Callbacks σ} {memory kept : σ} {result : Except Fault Unit} {identity : ObjectIdentity}
  {table : String} {subscribers : List Subscriber} (wellMapped : model.WellMapped)

include wellMapped

theorem loadView_loading
    (idle : ∀ {view command fetch unit memory result after kept},
      calls.fetch view command fetch unit memory = some ⟨result, after, kept⟩ → after = unit)
    (sound : unit.Sound model) {id : ViewId}
    (ran : loadView calls id unit memory = some ⟨result, after, kept⟩) :
    UnitOfWork.Loading model unit id result after := by
  have below : calls.Below calls.answered := by
    refine ⟨fun _ _ => .refl _, fun _ _ => .refl _, fun view command fetch unit memory outcome came => ?_⟩
    simp [Callbacks.answered, came]
  have quiet (view : ViewId) (command : Sql.Command) (fetch : Fetch) :
      (calls.answered.fetch view command fetch).Quiet := by
    intro unit memory
    cases came : calls.fetch view command fetch unit memory with
    | none => exact ⟨_, _, by simp only [Callbacks.answered, came, Option.getD_none]; rfl⟩
    | some outcome =>
      obtain ⟨answer, later, last⟩ := outcome
      cases idle came
      exact ⟨answer, last, by simp only [Callbacks.answered, came, Option.getD_some]⟩
  obtain ⟨_, _, _, ran', loading⟩ :=
    UnitOfWork.loadView_plain wellMapped sound calls.answered quiet id memory
  cases (loadView_below below id _ _ _ ran).symm.trans ran'
  exact loading

variable (lasting : calls.Lasting model)

include lasting

theorem tellChange_lasts (ready : unit.Ready model) {change : ColumnChange}
    (announced : Announced unit change.row identity table subscribers)
    (told : tellChange calls change subscribers unit memory = some ⟨result, after, kept⟩) :
    result = .ok () ∧ after.Lasts unit model := by
  rw [tellChange_eq] at told
  refine tell_onward (announced_onward ..) (fun holds => lasting.columnChanging holds.1) ?_
    ⟨ready, announced⟩ told
  rintro id unit - ⟨ready, announced⟩
  exact ⟨_, announced.followChange wellMapped ready.sound id, announced.toldOfChange ready id⟩

theorem tellDeletion_lasts (ready : unit.Ready model) {deletion : RowDeletion}
    (announced : Announced unit deletion.row identity table subscribers)
    (told : tellDeletion calls deletion subscribers unit memory = some ⟨result, after, kept⟩) :
    result = .ok () ∧ after.Lasts unit model := by
  rw [tellDeletion_eq] at told
  refine tell_onward (announced_onward ..) (fun holds => lasting.rowDeleting holds.1) ?_
    ⟨ready, announced⟩ told
  rintro id unit among ⟨ready, announced⟩
  exact ⟨_, announced.followDeletion wellMapped ready.sound among, announced.toldOfDeletion ready id⟩

theorem writeColumn_lasts (ready : unit.Ready model) {row : RowId} {column : String} {value : Value}
    (ran : writeColumn calls row column value unit memory = some ⟨result, after, kept⟩) :
    after.Lasts unit model := by
  obtain ⟨-, -, rfl⟩ | ⟨change, place, told, between, halfway, found, announced, takes⟩ :=
    writeColumn_eq_some ran
  · exact .refl ready
  have asked := found
  obtain ⟨record, entity, held, live, -, -, -, rfl⟩ := UnitOfWork.changeOf_eq_ok.mp asked
  obtain ⟨-, lasts⟩ := tellChange_lasts wellMapped lasting ready
    (.of_live ready.sound held live .columnChanging) announced
  cases takes with
  | failed | refused => exact lasts
  | effect taken => exact (UnitOfWork.Lasts.applyChange ready lasts found taken).trans lasts

theorem deleteRow_lasts (ready : unit.Ready model) {row : RowId}
    (ran : deleteRow calls row unit memory = some ⟨result, after, kept⟩) : after.Lasts unit model := by
  obtain ⟨-, -, rfl⟩ | ⟨deletion, told, between, halfway, found, announced, takes⟩ :=
    deleteRow_eq_some ran
  · exact .refl ready
  obtain ⟨record, held, live, rfl⟩ := UnitOfWork.deletionOf_eq_ok.mp found
  obtain ⟨-, lasts⟩ := tellDeletion_lasts wellMapped lasting ready
    (.of_live ready.sound held live .rowDeleting) announced
  cases takes with
  | failed | refused => exact lasts
  | effect taken => exact (UnitOfWork.Lasts.applyDeletion lasts.ready taken).trans lasts

theorem perform_lasts (ready : unit.Ready model) {operation : Operation}
    (permitted : operation.reenters = true) {result : Except Fault operation.Answer}
    (ran : perform calls operation unit memory = some ⟨result, after, kept⟩) :
    after.Lasts unit model := by
  cases operation with
  | write row column value => exact writeColumn_lasts wellMapped lasting ready ran
  | delete row => exact deleteRow_lasts wellMapped lasting ready ran
  | load id => exact .loading ready (loadView_loading wellMapped lasting.fetch ready.sound ran)
  | _ => cases permitted

end

theorem Environment.Obliging.lasting (wellMapped : model.WellMapped) {environment : Environment σ}
    (obliging : environment.Obliging) (forbids : List Announcement → UnitOfWork → Operation → Bool)
    (depth : Nat) (amid : List Announcement) : (environment.guarded forbids depth amid).Lasting model := by
  induction depth generalizing amid with
  | zero => constructor <;> intros <;> simp_all [Environment.guarded, Callbacks.unanswered]
  | succ depth ih =>
    have replies {answers : Program σ (Except Fault Unit)} {amid : List Announcement}
        (within : answers.Within Operation.reenters) (accepting : answers.Answers (· = .ok ()))
        {unit after : UnitOfWork} {memory kept : σ} {result : Except Fault Unit} (ready : unit.Ready model)
        (ran : (answers.runUnless (environment.guarded forbids depth amid) (forbids amid) >>=
          Action.given) unit memory = some ⟨result, after, kept⟩) :
        result = .ok () ∧ after.Lasts unit model := by
      obtain ⟨accepted, ran⟩ := Program.runUnless_given accepting ran
      refine ⟨accepted, ready_onward.runUnless ?_ within ready ran⟩
      exact fun ready permitted _ performed => perform_lasts wellMapped (ih amid) ready permitted performed
    constructor
    · intro key change unit memory result after kept ready ran
      exact replies (obliging.columnChanging key change).1 (obliging.columnChanging key change).2 ready ran
    · intro key deletion unit memory result after kept ready ran
      exact replies (obliging.rowDeleting key deletion).1 (obliging.rowDeleting key deletion).2 ready ran
    · intro view command fetch unit memory result after kept ran
      have plain := (environment.guarded_below forbids (depth + 1) amid).fetch _ _ _ _ _ _ ran
      exact leads_reply (run_still (obliging.fetch view command fetch)) _ _ _ _ plain

end RelationalMapper.Cache
