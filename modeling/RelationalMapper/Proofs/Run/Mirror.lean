import RelationalMapper.Cache.Program
import RelationalMapper.Proofs.Run.Step

/-!
Actions side by side. One keeps more in its memory than the other and does the same apart from that; it
comes to an end even where the other does not. What holds along the way is followed by a relation
between where an action starts and where it has come to, which only the steps inside of operations and
the calls to listeners and row sources have to keep.
-/

set_option autoImplicit false

namespace RelationalMapper.Cache

variable {σ τ α β : Type}

/-- Started here, the action comes to an end as described. The plain action, whose memory is a part of
the action's own, comes to the same end if it comes to one. -/
def Action.Mirrors (part : τ → σ) (action : Action τ α) (plain : Action σ α) (unit : UnitOfWork)
    (memory : τ) (ends : Except Fault α → UnitOfWork → τ → Prop) : Prop :=
  ∃ result after kept, action unit memory = some ⟨result, after, kept⟩ ∧
    (∀ ended, plain unit (part memory) = some ended → ended = ⟨result, after, part kept⟩) ∧
    ends result after kept

def Operation.callsOut : Operation → Bool
  | insert .. | write .. | delete _ | load _ | members _ | add .. | remove .. => true
  | attach .. | accept | subscribe .. | unsubscribe _ | openView .. | invalidate _ | close _ => false

inductive Operation.Yields (unit : UnitOfWork) :
    (operation : Operation) → Except Fault operation.Answer → UnitOfWork → Prop
  | attached {name values row after} (attached : unit.attach name values = .ok (row, after)) :
    Yields unit (.attach name values) (.ok row) after
  | unattached {name values fault} (refused : unit.attach name values = .error fault) :
    Yields unit (.attach name values) (.error fault) unit
  | accepted : Yields unit .accept (.ok ()) unit.accept
  | subscribed (channel table key) :
    Yields unit (.subscribe channel table key) (.ok ⟨unit.channels.nextNumber⟩)
      { unit with channels := (unit.channels.subscribe channel table (.listener key)).2 }
  | unsubscribed (id) :
    Yields unit (.unsubscribe id) (.ok (unit.channels.unsubscribe id).1)
      { unit with channels := (unit.channels.unsubscribe id).2 }
  | opened {owner relation id after} (opened : unit.openView owner relation = .ok (id, after)) :
    Yields unit (.openView owner relation) (.ok id) after
  | unopened {owner relation fault} (refused : unit.openView owner relation = .error fault) :
    Yields unit (.openView owner relation) (.error fault) unit
  | invalidated (id) : Yields unit (.invalidate id) (.ok ()) (unit.invalidate id)
  | closed (id) : Yields unit (.close id) (.ok ()) (unit.closeView id)

theorem Operation.Yields.performed {operation : Operation} {unit after : UnitOfWork}
    {result : Except Fault operation.Answer} (yields : operation.Yields unit result after)
    (calls : Callbacks σ) (memory : σ) :
    perform calls operation unit memory = some ⟨result, after, memory⟩ := by
  cases yields with
  | @attached name values row _ attached =>
    exact @Action.ask_bind_of_ok _ _ _ unit memory (·.attach name values) (row, after) attached _
  | unattached refused => exact Action.ask_bind_of_error refused _
  | @opened owner relation id _ opened =>
    exact @Action.ask_bind_of_ok _ _ _ unit memory (·.openView owner relation) (id, after) opened _
  | unopened refused => exact Action.ask_bind_of_error refused _
  | _ => rfl

theorem Operation.exists_yields {operation : Operation} (alone : operation.callsOut = false)
    (unit : UnitOfWork) : ∃ result after, operation.Yields unit result after := by
  cases operation with
  | attach entity values =>
    cases attached : unit.attach entity values with
    | error fault => exact ⟨_, _, .unattached attached⟩
    | ok answer => exact ⟨_, _, .attached attached⟩
  | openView owner relation =>
    cases opened : unit.openView owner relation with
    | error fault => exact ⟨_, _, .unopened opened⟩
    | ok answer => exact ⟨_, _, .opened opened⟩
  | accept => exact ⟨_, _, .accepted⟩
  | subscribe channel table key => exact ⟨_, _, .subscribed channel table key⟩
  | unsubscribe id => exact ⟨_, _, .unsubscribed id⟩
  | invalidate id => exact ⟨_, _, .invalidated id⟩
  | close id => exact ⟨_, _, .closed id⟩
  | _ => cases alone

def UnitOfWork.Admitted (unit : UnitOfWork) (name : String) (values : List Value) : Prop :=
  ∃ entity identity, unit.model.entity name = .ok entity ∧ entity.identityOf values = .ok identity ∧
    (unit.store.resolve? identity).isSome

namespace Action.Mirrors

variable {part : τ → σ} {action : Action τ α} {plain : Action σ α} {unit : UnitOfWork} {memory : τ}
  {ends : Except Fault α → UnitOfWork → τ → Prop} {later : Except Fault β → UnitOfWork → τ → Prop}

theorem imp {weaker : Except Fault α → UnitOfWork → τ → Prop}
    (mirrors : action.Mirrors part plain unit memory ends)
    (implied : ∀ result after kept, ends result after kept → weaker result after kept) :
    action.Mirrors part plain unit memory weaker := by
  obtain ⟨result, after, kept, ran, same, ended⟩ := mirrors
  exact ⟨result, after, kept, ran, same, implied _ _ _ ended⟩

theorem congr {action' : Action τ α} {plain' : Action σ α} {unit' : UnitOfWork} {memory' : τ}
    (ran : action unit memory = action' unit' memory')
    (plainRan : plain unit (part memory) = plain' unit' (part memory'))
    (mirrors : action'.Mirrors part plain' unit' memory' ends) :
    action.Mirrors part plain unit memory ends := by
  rw [Mirrors, ran, plainRan]
  exact mirrors

theorem bind {rest : α → Action τ β} {plainRest : α → Action σ β}
    (mirrors : action.Mirrors part plain unit memory ends)
    (fails : ∀ fault after kept, ends (.error fault) after kept → later (.error fault) after kept)
    (goes : ∀ answer after kept, ends (.ok answer) after kept →
      (rest answer).Mirrors part (plainRest answer) after kept later) :
    (action >>= rest).Mirrors part (plain >>= plainRest) unit memory later := by
  obtain ⟨fault | answer, after, kept, ran, same, ended⟩ := mirrors
  · refine ⟨.error fault, after, kept, Action.bind_of_error ran rest, ?_, fails _ _ _ ended⟩
    intro outcome done
    rcases Action.bind_eq_some.mp done with ⟨_, _, _, plainRan, _⟩ | ⟨_, _, _, plainRan, rfl⟩
    · cases same _ plainRan
    · cases same _ plainRan
      rfl
  · obtain ⟨result, last, left, ran', same', ended'⟩ := goes answer after kept ended
    refine ⟨result, last, left, (Action.bind_of_ok ran rest).trans ran', ?_, ended'⟩
    intro outcome done
    rcases Action.bind_eq_some.mp done with ⟨_, _, _, plainRan, done⟩ | ⟨_, _, _, plainRan, rfl⟩
    · cases same _ plainRan
      exact same' outcome done
    · cases same _ plainRan

theorem at_once {result : Except Fault α} {after : UnitOfWork} (ended : ends result after memory)
    (answers : action unit memory = some ⟨result, after, memory⟩)
    (plainAnswers : plain unit (part memory) = some ⟨result, after, part memory⟩) :
    action.Mirrors part plain unit memory ends := by
  refine ⟨result, after, memory, answers, ?_, ended⟩
  intro outcome done
  rw [plainAnswers] at done
  exact (Option.some.inj done).symm

theorem given {result : Except Fault α} (ended : ends result unit memory) :
    (Action.given result : Action τ α).Mirrors part (Action.given result) unit memory ends :=
  at_once ended rfl rfl

theorem ask {question : UnitOfWork → Except Fault α} (ended : ends (question unit) unit memory) :
    (Action.ask question : Action τ α).Mirrors part (Action.ask question) unit memory ends :=
  at_once ended rfl rfl

theorem change {update : UnitOfWork → UnitOfWork} {ends : Except Fault Unit → UnitOfWork → τ → Prop}
    (ended : ends (.ok ()) (update unit) memory) :
    (Action.change update : Action τ Unit).Mirrors part (Action.change update) unit memory ends :=
  at_once ended rfl rfl

theorem ask_bind {question : UnitOfWork → Except Fault α} {rest : α → Action τ β}
    {plainRest : α → Action σ β}
    (fails : ∀ fault, question unit = .error fault → later (.error fault) unit memory)
    (goes : ∀ answer, question unit = .ok answer →
      (rest answer).Mirrors part (plainRest answer) unit memory later) :
    (Action.ask question >>= rest).Mirrors part (Action.ask question >>= plainRest) unit memory later := by
  have asked : (Action.ask question : Action τ α).Mirrors part (Action.ask question) unit memory
      fun result after kept => result = question unit ∧ after = unit ∧ kept = memory :=
    ask ⟨rfl, rfl, rfl⟩
  refine bind asked ?_ ?_
  · rintro fault _ _ ⟨same, rfl, rfl⟩
    exact fails fault same.symm
  · rintro answer _ _ ⟨same, rfl, rfl⟩
    exact goes answer same.symm

theorem attempt (mirrors : action.Mirrors part plain unit memory ends) :
    action.attempt.Mirrors part plain.attempt unit memory
      fun attempted after kept => ∃ result, attempted = .ok result ∧ ends result after kept := by
  obtain ⟨result, after, kept, ran, same, ended⟩ := mirrors
  refine ⟨.ok result, after, kept, Action.attempt_of_some ran, ?_, result, rfl, ended⟩
  intro outcome done
  cases plainRan : plain unit (part memory) with
  | none => simp [Action.attempt, plainRan] at done
  | some ended =>
    cases same ended plainRan
    rw [Action.attempt_of_some plainRan] at done
    exact (Option.some.inj done).symm

end Action.Mirrors

/-- What is followed along the way: which units of work are good, and what leads from one to another.
More may lead to the end of an operation than to where it still goes on. -/
structure Chart (τ : Type) where
  good : UnitOfWork → τ → Prop
  path : UnitOfWork → τ → UnitOfWork → τ → Prop
  ends : UnitOfWork → τ → UnitOfWork → τ → Prop
  begun : Operation → UnitOfWork → τ → Prop
  awaited : ViewId → UnitOfWork → τ → Prop
  brings : ViewId → List (List Value) → τ → Prop

structure Charted (chart : Chart τ) : Prop where
  refl : ∀ {unit memory}, chart.good unit memory → chart.path unit memory unit memory
  trans : ∀ {unit memory between halfway after kept}, chart.path unit memory between halfway →
    chart.path between halfway after kept → chart.path unit memory after kept
  arrives : ∀ {unit memory after kept}, chart.path unit memory after kept → chart.good after kept
  stop : ∀ {unit memory after kept}, chart.path unit memory after kept → chart.ends unit memory after kept
  finish : ∀ {unit memory between halfway after kept}, chart.path unit memory between halfway →
    chart.ends between halfway after kept → chart.ends unit memory after kept
  begin : ∀ {unit after : UnitOfWork} {memory entity values row rest}, chart.good unit memory →
    chart.begun (.insert entity values) unit memory →
    unit.beginInsert entity values = .ok ((row, rest), after) → chart.path unit memory after memory
  inserting : ∀ {unit : UnitOfWork} {memory} row, chart.good unit memory →
    chart.path unit memory { unit with inserting := row } memory
  -- Anything may have happened between the announcement of a change and the change itself.
  write : ∀ {unit between after : UnitOfWork} {memory halfway row column value change index},
    chart.good unit memory → unit.changeOf row column value = .ok (change, index) →
    chart.path unit memory between halfway → between.applyChange row index value = .ok after →
    chart.path between halfway after halfway
  delete : ∀ {unit between after : UnitOfWork} {memory halfway row deletion}, chart.good unit memory →
    unit.deletionOf row = .ok deletion → chart.path unit memory between halfway →
    between.applyDeletion row = .ok after → chart.path between halfway after halfway
  forget : ∀ {unit between after : UnitOfWork} {memory halfway entity values row rest},
    chart.good unit memory → unit.beginInsert entity values = .ok ((row, rest), after) →
    chart.path after memory between halfway → chart.path between halfway (between.forget row) halfway
  followChange : ∀ {unit after : UnitOfWork} {memory id change}, chart.good unit memory →
    unit.followChange id change = .ok after → chart.path unit memory after memory
  followDeletion : ∀ {unit after : UnitOfWork} {memory id deletion}, chart.good unit memory →
    unit.followDeletion id deletion = .ok after → chart.path unit memory after memory
  awaits : ∀ {unit : UnitOfWork} {memory id view}, chart.good unit memory → unit.view id = .ok view →
    view.state = .unloaded → chart.awaited id unit memory
  awaitsRows : ∀ {unit : UnitOfWork} {memory id} (store : RowStore), chart.awaited id unit memory →
    chart.awaited id { unit with store } memory
  -- What came before in the same answer has been attached already.
  attach : ∀ {unit after : UnitOfWork} {memory id name earlier values later row},
    chart.good unit memory → chart.brings id (earlier ++ values :: later) memory →
    (∀ other ∈ earlier, unit.Admitted name other) → unit.attach name values = .ok (row, after) →
    chart.path unit memory after memory
  completeLoad : ∀ {unit : UnitOfWork} {memory id view} members, chart.good unit memory →
    chart.awaited id unit memory →
    ((∃ operation, chart.begun operation unit memory) ∧ unit.wantedKey view = .ok none ∨
      ∃ fetched, chart.brings id fetched memory) →
    unit.view id = .ok view → chart.path unit memory (unit.completeLoad id view members) memory
  -- A view that was unloaded while a member was added is loaded anew at the very end.
  completeLast : ∀ {unit : UnitOfWork} {memory id view} members, chart.good unit memory →
    chart.awaited id unit memory →
    (unit.wantedKey view = .ok none ∨ ∃ fetched, chart.brings id fetched memory) →
    unit.view id = .ok view → chart.ends unit memory (unit.completeLoad id view members) memory

structure Callbacks.Mirrors (part : τ → σ) (chart : Chart τ) (calls : Callbacks τ)
    (plain : Callbacks σ) : Prop where
  columnChanging : ∀ {unit memory} key change, chart.good unit memory →
    (calls.columnChanging key change).Mirrors part (plain.columnChanging key change) unit memory
      fun _ => chart.path unit memory
  rowDeleting : ∀ {unit memory} key deletion, chart.good unit memory →
    (calls.rowDeleting key deletion).Mirrors part (plain.rowDeleting key deletion) unit memory
      fun _ => chart.path unit memory
  fetch : ∀ {unit memory id} command fetch, chart.good unit memory → chart.awaited id unit memory →
    (calls.fetch id command fetch).Mirrors part (plain.fetch id command fetch) unit memory
      fun result after kept => chart.path unit memory after kept ∧ chart.awaited id after kept ∧
        ∀ fetched, result = .ok fetched → chart.brings id fetched kept

namespace UnitOfWork.Admitted

variable {unit after : UnitOfWork} {name : String} {values : List Value} {row : RowId}

theorem of_attach (attached : unit.attach name values = .ok (row, after)) :
    after.Admitted name values := by
  obtain ⟨entity, identity, known, -, own, ⟨resolved, rfl⟩ | ⟨-, -, rfl⟩⟩ := attach_eq_ok.mp attached
  · exact ⟨entity, identity, known, own, by rw [resolved]; rfl⟩
  · refine ⟨entity, identity, known, own, ?_⟩
    simp [RowStore.resolve?, RowStore.live_register]

theorem attach {other : List Value} (admitted : unit.Admitted name other)
    (attached : unit.attach name values = .ok (row, after)) : after.Admitted name other := by
  obtain ⟨entity, identity, known, own, resolved⟩ := admitted
  obtain ⟨_, _, -, -, -, ⟨-, rfl⟩ | ⟨-, -, rfl⟩⟩ := attach_eq_ok.mp attached
  · exact ⟨entity, identity, known, own, resolved⟩
  · refine ⟨entity, identity, known, own, ?_⟩
    rw [RowStore.resolve?, RowStore.live_register]
    split
    · rfl
    · exact resolved

end UnitOfWork.Admitted

section

variable {part : τ → σ} {chart : Chart τ} (charted : Charted chart) {calls : Callbacks τ}
  {plain : Callbacks σ} {unit : UnitOfWork} {memory : τ} (sound : chart.good unit memory)

namespace Action.Mirrors

variable {action : Action τ α} {plainAction : Action σ α}

include charted sound

theorem stay (result : Except Fault α) :
    (Action.given result : Action τ α).Mirrors part (Action.given result) unit memory
      fun _ => chart.path unit memory :=
  given (charted.refl sound)

theorem ask_path {question : UnitOfWork → Except Fault α} {rest : α → Action τ β}
    {plainRest : α → Action σ β}
    (goes : ∀ answer, question unit = .ok answer →
      (rest answer).Mirrors part (plainRest answer) unit memory fun _ => chart.path unit memory) :
    (Action.ask question >>= rest).Mirrors part (Action.ask question >>= plainRest) unit memory
      fun _ => chart.path unit memory :=
  ask_bind (fun _ _ => charted.refl sound) goes

omit sound in
theorem bind_path {rest : α → Action τ β} {plainRest : α → Action σ β}
    (mirrors : action.Mirrors part plainAction unit memory fun _ => chart.path unit memory)
    (goes : ∀ answer after kept, chart.good after kept → chart.path unit memory after kept →
      (rest answer).Mirrors part (plainRest answer) after kept fun _ => chart.path after kept) :
    (action >>= rest).Mirrors part (plainAction >>= plainRest) unit memory fun _ => chart.path unit memory :=
  bind mirrors (fun _ _ _ led => led) fun answer after kept led =>
    (goes answer after kept (charted.arrives led) led).imp fun _ _ _ later => charted.trans led later

omit sound in
theorem change_path {update : UnitOfWork → UnitOfWork} {rest : Unit → Action τ β}
    {plainRest : Unit → Action σ β} (led : chart.path unit memory (update unit) memory)
    (goes : (rest ()).Mirrors part (plainRest ()) (update unit) memory
      fun _ => chart.path (update unit) memory) :
    (Action.change update >>= rest).Mirrors part (Action.change update >>= plainRest) unit memory
      fun _ => chart.path unit memory := by
  have changed : (Action.change update : Action τ Unit).Mirrors part (Action.change update) unit memory
      fun _ after kept => after = update unit ∧ kept = memory :=
    change ⟨rfl, rfl⟩
  refine bind changed ?_ ?_
  · rintro _ _ _ ⟨rfl, rfl⟩
    exact led
  · rintro ⟨⟩ _ _ ⟨rfl, rfl⟩
    exact goes.imp fun _ _ _ later => charted.trans led later

end Action.Mirrors

open Action.Mirrors

variable (pair : calls.Mirrors part chart plain)

include charted sound pair

theorem mirrors_tellChange (change : ColumnChange) (subscribers : List Subscriber) :
    (tellChange calls change subscribers).Mirrors part (tellChange plain change subscribers) unit memory
      fun _ => chart.path unit memory := by
  induction subscribers generalizing unit memory with
  | nil => exact stay charted sound (.ok ())
  | cons subscriber rest ih =>
    cases subscriber with
    | view id =>
      refine ask_path charted sound fun after followed => ?_
      have led := charted.followChange sound followed
      exact change_path charted led (ih (charted.arrives led))
    | listener key =>
      exact bind_path charted (pair.columnChanging key change sound) fun _ _ _ sound _ => ih sound

theorem mirrors_tellDeletion (deletion : RowDeletion) (subscribers : List Subscriber) :
    (tellDeletion calls deletion subscribers).Mirrors part (tellDeletion plain deletion subscribers) unit
      memory fun _ => chart.path unit memory := by
  induction subscribers generalizing unit memory with
  | nil => exact stay charted sound (.ok ())
  | cons subscriber rest ih =>
    cases subscriber with
    | view id =>
      refine ask_path charted sound fun after followed => ?_
      have led := charted.followDeletion sound followed
      exact change_path charted led (ih (charted.arrives led))
    | listener key =>
      exact bind_path charted (pair.rowDeleting key deletion sound) fun _ _ _ sound _ => ih sound

theorem mirrors_announceDeletion (deletion : RowDeletion) :
    (announceDeletion calls deletion).Mirrors part (announceDeletion plain deletion) unit memory
      fun _ => chart.path unit memory :=
  mirrors_tellDeletion charted sound pair deletion (unit.channels.subscribers .rowDeleting deletion.table)

theorem mirrors_writeColumn (row : RowId) (column : String) (value : Value) :
    (writeColumn calls row column value).Mirrors part (writeColumn plain row column value) unit memory
      fun _ => chart.path unit memory := by
  refine ask_path charted sound fun (change, index) found => ?_
  have announced : (announceChange calls change).Mirrors part (announceChange plain change) unit memory
      fun _ => chart.path unit memory :=
    mirrors_tellChange charted sound pair change (unit.channels.subscribers .columnChanging change.table)
  refine bind_path charted announced fun _ between halfway here led => ?_
  refine ask_path charted here fun after applied => ?_
  exact Action.Mirrors.change (charted.write sound found led applied)

theorem mirrors_deleteRow (row : RowId) :
    (deleteRow calls row).Mirrors part (deleteRow plain row) unit memory fun _ => chart.path unit memory := by
  refine ask_path charted sound fun deletion found => ?_
  refine bind_path charted (mirrors_announceDeletion charted sound pair deletion)
    fun _ between halfway here led => ?_
  refine ask_path charted here fun after applied => ?_
  exact Action.Mirrors.change (charted.delete sound found led applied)

theorem mirrors_writeColumns (row : RowId) (values : List (String × Value)) :
    (writeColumns calls row values).Mirrors part (writeColumns plain row values) unit memory
      fun _ => chart.path unit memory := by
  induction values generalizing unit memory with
  | nil => exact stay charted sound (.ok ())
  | cons entry rest ih =>
    exact bind_path charted (mirrors_writeColumn charted sound pair row entry.1 entry.2)
      fun _ _ _ sound _ => ih sound

theorem mirrors_insertRow {entity : String} {values : List (String × Value)}
    (started : chart.begun (.insert entity values) unit memory) :
    (insertRow calls entity values).Mirrors part (insertRow plain entity values) unit memory
      fun _ => chart.path unit memory := by
  change (Action.ask (·.beginInsert entity values) >>= _).Mirrors part
    (Action.ask (·.beginInsert entity values) >>= _) unit memory _
  refine ask_path charted sound fun ((row, table, pending), _) begun => ?_
  have begins := charted.begin sound started begun
  refine change_path charted begins ?_
  refine bind ((mirrors_writeColumns charted (charted.arrives begins) pair row pending).attempt)
    (by rintro _ _ _ ⟨_, impossible, _⟩; cases impossible) ?_
  rintro written between halfway ⟨_, -, led⟩
  have restored := charted.inserting unit.inserting (charted.arrives led)
  have here := charted.arrives restored
  refine (change_path charted restored ?_).imp fun _ _ _ later => charted.trans led later
  cases written with
  | ok => exact stay charted here (.ok row)
  | error fault =>
    refine bind_path charted ?_ fun _ after kept sound _ => stay charted sound (.error fault)
    refine bind ((mirrors_announceDeletion charted here pair ⟨row, table, .fresh⟩).attempt)
      (by rintro _ _ _ ⟨_, impossible, _⟩; cases impossible) ?_
    rintro _ last left ⟨_, -, told⟩
    have way := charted.trans (charted.trans led restored) told
    exact Action.Mirrors.change (charted.trans told (charted.forget sound begun way))

omit pair in
theorem mirrors_admitAll {id : ViewId} (view : RelationView) (key : Value)
    (earlier fetched : List (List Value)) (members : List ObjectIdentity)
    (brought : chart.brings id (earlier ++ fetched) memory) (awaiting : chart.awaited id unit memory)
    (admitted : ∀ other ∈ earlier, unit.Admitted view.childEntity other) :
    (admitAll view key fetched members).Mirrors part (admitAll view key fetched members) unit memory
      fun _ after kept =>
        chart.path unit memory after kept ∧ chart.awaited id after kept ∧ kept = memory := by
  induction fetched generalizing unit members earlier with
  | nil => exact given ⟨charted.refl sound, awaiting, rfl⟩
  | cons values rest ih =>
    have attaches : (attachRow view.childEntity values : Action τ RowId).Mirrors part
        (attachRow view.childEntity values) unit memory fun result after kept =>
          chart.path unit memory after kept ∧ chart.awaited id after kept ∧ kept = memory ∧
            ∀ row, result = .ok row → unit.attach view.childEntity values = .ok (row, after) := by
      refine ask_bind (fun _ _ => ⟨charted.refl sound, awaiting, rfl, by simp⟩) ?_
      rintro ⟨row, after⟩ attached
      have waits : chart.awaited id after memory := by
        obtain ⟨_, _, -, -, -, ⟨-, rfl⟩ | ⟨-, -, rfl⟩⟩ := UnitOfWork.attach_eq_ok.mp attached
        · exact awaiting
        · exact charted.awaitsRows _ awaiting
      refine at_once (α := RowId)
        ⟨charted.attach sound brought admitted attached, waits, rfl, ?_⟩ rfl rfl
      rintro _ same
      cases same
      exact attached
    refine bind attaches (fun _ _ _ ⟨led, waits, same, _⟩ => ⟨led, waits, same⟩) ?_
    rintro row after _ ⟨led, waits, rfl, attached⟩
    have attached := attached row rfl
    have admitted' : ∀ other ∈ earlier ++ [values], after.Admitted view.childEntity other := by
      intro other member
      rcases List.mem_append.mp member with known | new
      · exact (admitted other known).attach attached
      · rw [List.mem_singleton.mp new]
        exact .of_attach attached
    rw [← List.singleton_append, ← List.append_assoc] at brought
    refine ask_bind (fun _ _ => ⟨led, waits, rfl⟩) fun members _ => ?_
    exact (ih (charted.arrives led) (earlier ++ [values]) members brought waits admitted').imp
      fun _ _ _ ⟨led', waits, same⟩ => ⟨charted.trans led led', waits, same⟩

theorem mirrors_queryMembers {id : ViewId} (view : RelationView)
    (awaiting : chart.awaited id unit memory) :
    (queryMembers calls id view).Mirrors part (queryMembers plain id view) unit memory
      fun result after kept => chart.path unit memory after kept ∧ chart.awaited id after kept ∧
        ∀ members, result = .ok members → (∃ fetched, chart.brings id fetched kept) ∨
          after = unit ∧ kept = memory ∧ unit.wantedKey view = .ok none := by
  have still := charted.refl sound
  refine ask_bind (fun _ _ => ⟨still, awaiting, by simp⟩) fun wanted answered => ?_
  cases wanted with
  | none => exact given ⟨still, awaiting, fun _ _ => .inr ⟨rfl, rfl, answered⟩⟩
  | some key =>
    refine ask_bind (fun _ _ => ⟨still, awaiting, by simp⟩) fun command _ => ?_
    refine bind (pair.fetch command (UnitOfWork.childFetch view key) sound awaiting)
      (fun _ _ _ ⟨led, waits, _⟩ => ⟨led, waits, by simp⟩) ?_
    rintro fetched between halfway ⟨led, waits, brought⟩
    have brought := brought fetched rfl
    refine bind (mirrors_admitAll charted (charted.arrives led) view key [] fetched [] brought waits
      (by simp)) ?_ ?_
    · exact fun _ _ _ ⟨led', waits', _⟩ => ⟨charted.trans led led', waits', by simp⟩
    · rintro members after _ ⟨led', waits', rfl⟩
      exact ask ⟨charted.trans led led', waits', fun _ _ => .inl ⟨fetched, brought⟩⟩

theorem mirrors_loading (id : ViewId) {target : UnitOfWork → τ → Prop}
    (stays : ∀ {after kept}, chart.path unit memory after kept → target after kept)
    (completes : ∀ {after kept view} members, chart.path unit memory after kept →
      chart.awaited id after kept → after.view id = .ok view →
      ((∃ fetched, chart.brings id fetched kept) ∨
        after = unit ∧ kept = memory ∧ unit.wantedKey view = .ok none) →
      target (after.completeLoad id view members) kept) :
    (loadView calls id).Mirrors part (loadView plain id) unit memory fun _ => target := by
  have still := stays (charted.refl sound)
  refine ask_bind (fun _ _ => still) fun view found => ?_
  cases state : view.state with
  | loaded => exact given still
  | unloaded =>
    refine bind (mirrors_queryMembers charted sound pair view (charted.awaits sound found state))
      (fun _ _ _ ended => stays ended.1) ?_
    rintro members after kept ⟨led, waits, sourced⟩
    refine ask_bind (fun _ _ => stays led) fun view' found' => ?_
    refine Action.Mirrors.change (completes members led waits found' ?_)
    rcases sourced members rfl with brought | ⟨rfl, same, unasked⟩
    · exact .inl brought
    · cases found.symm.trans found'
      exact .inr ⟨rfl, same, unasked⟩

theorem mirrors_loadView (id : ViewId) {operation : Operation}
    (begun : chart.begun operation unit memory) :
    (loadView calls id).Mirrors part (loadView plain id) unit memory
      fun _ => chart.path unit memory := by
  refine mirrors_loading charted sound pair id (fun led => led) fun members led waits found sourced => ?_
  refine charted.trans led (charted.completeLoad members (charted.arrives led) waits ?_ found)
  rcases sourced with brought | ⟨rfl, rfl, unasked⟩
  · exact .inr brought
  · exact .inl ⟨⟨operation, begun⟩, unasked⟩

theorem mirrors_viewMembers (id : ViewId) :
    (viewMembers calls id).Mirrors part (viewMembers plain id) unit memory
      fun _ => chart.ends unit memory := by
  have loading : (loadView calls id).Mirrors part (loadView plain id) unit memory
      fun _ => chart.ends unit memory := by
    refine mirrors_loading charted sound pair id charted.stop fun members led waits found sourced => ?_
    refine charted.finish led (charted.completeLast members (charted.arrives led) waits ?_ found)
    rcases sourced with brought | ⟨rfl, -, unasked⟩
    · exact .inr brought
    · exact .inl unasked
  refine bind loading (fun _ _ _ ended => ended) fun _ after kept ended => ?_
  refine ask_bind (fun _ _ => ended) fun view _ => ?_
  cases view.members? with
  | none => exact given ended
  | some members => exact given ended

theorem mirrors_addMember (id : ViewId) (row : RowId) {operation : Operation}
    (begun : chart.begun operation unit memory) :
    (addMember calls id row).Mirrors part (addMember plain id row) unit memory
      fun _ => chart.ends unit memory := by
  refine bind (mirrors_loadView charted sound pair id begun) (fun _ _ _ led => charted.stop led)
    fun _ loaded halfway led => ?_
  have sound := charted.arrives led
  refine ask_bind (fun _ _ => charted.stop led) fun view _ =>
    ask_bind (fun _ _ => charted.stop led) fun key _ => ?_
  cases key with
  | none => exact given (charted.stop led)
  | some key =>
    refine bind (mirrors_writeColumn charted sound pair row view.relation.childKey key)
      (fun _ _ _ later => charted.stop (charted.trans led later)) fun _ written kept later => ?_
    have led := charted.trans led later
    refine ask_bind (fun _ _ => charted.stop led) fun identity _ => ?_
    refine bind (mirrors_viewMembers charted (charted.arrives led) pair id)
      (fun _ _ _ ended => charted.finish led ended) fun members _ _ ended => ?_
    cases members.findIdx? (· = identity) with
    | none => exact given (charted.finish led ended)
    | some index => exact given (charted.finish led ended)

theorem mirrors_removeMember (id : ViewId) (row : RowId) {operation : Operation}
    (begun : chart.begun operation unit memory) :
    (removeMember calls id row).Mirrors part (removeMember plain id row) unit memory
      fun _ => chart.path unit memory := by
  refine bind_path charted (mirrors_loadView charted sound pair id begun) fun _ loaded _ sound _ => ?_
  exact ask_path charted sound fun view _ =>
    mirrors_writeColumn charted sound pair row view.relation.childKey .null

theorem mirrors_perform {operation : Operation} (calling : operation.callsOut = true)
    (begun : chart.begun operation unit memory) :
    (perform calls operation).Mirrors part (perform plain operation) unit memory
      fun _ => chart.ends unit memory := by
  have stops {α : Type} {action : Action τ α} {plainAction : Action σ α}
      (mirrors : action.Mirrors part plainAction unit memory fun _ => chart.path unit memory) :=
    mirrors.imp fun _ _ _ led => charted.stop led
  cases operation with
  | insert entity values => exact stops (mirrors_insertRow charted sound pair begun)
  | write row column value => exact stops (mirrors_writeColumn charted sound pair row column value)
  | delete row => exact stops (mirrors_deleteRow charted sound pair row)
  | load view => exact stops (mirrors_loadView charted sound pair view begun)
  | members view => exact mirrors_viewMembers charted sound pair view
  | add view row => exact mirrors_addMember charted sound pair view row begun
  | remove view row => exact stops (mirrors_removeMember charted sound pair view row begun)
  | _ => cases calling

end

end RelationalMapper.Cache
