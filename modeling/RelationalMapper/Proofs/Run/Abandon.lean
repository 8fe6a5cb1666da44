import RelationalMapper.Proofs.Run.Lead
import RelationalMapper.Proofs.View.Refusal

set_option autoImplicit false

namespace RelationalMapper.Cache

variable {σ : Type}

namespace RowStore

structure SameRows (after before : RowStore) : Prop where
  records : ∀ row, after.records.get? row = before.records.get? row
  live : ∀ identity, after.live.get? identity = before.live.get? identity
  tombstones : ∀ identity, after.tombstones.get? identity = before.tombstones.get? identity
  rows : ∀ table, after.rows table = before.rows table

theorem SameRows.refl (store : RowStore) : store.SameRows store :=
  ⟨fun _ => rfl, fun _ => rfl, fun _ => rfl, fun _ => rfl⟩

structure Lacks (store : RowStore) (row : RowId) : Prop where
  record : store.records.get? row = none
  live : ∀ identity, store.live.get? identity ≠ some row
  tombstones : ∀ identity, store.tombstones.get? identity ≠ some row
  rows : ∀ table, row ∉ store.rows table

theorem WellFormed.lacks {store : RowStore} {model : Model} (formed : store.WellFormed model)
    {row : RowId} (untracked : store.records.get? row = none) : store.Lacks row where
  record := untracked
  live identity leads := by
    obtain ⟨record, held, -⟩ := (formed.live identity row).mp leads
    simp [untracked] at held
  tombstones identity leads := by
    obtain ⟨record, held, -⟩ := formed.tombstones identity row leads
    simp [untracked] at held
  rows table listed := by
    obtain ⟨record, held, -⟩ := (formed.listed table row).mp listed
    simp [untracked] at held

structure WritesOnly (row : RowId) (after before : RowStore) : Prop where
  others : ∀ other, other ≠ row → after.records.get? other = before.records.get? other
  record : ∀ record, before.records.get? row = some record →
    ∃ later, after.records.get? row = some later ∧ later.Revises record
  live : after.live = before.live
  tombstones : after.tombstones = before.tombstones
  byTable : after.byTable = before.byTable
  nextNumber : after.nextNumber = before.nextNumber

namespace WritesOnly

variable {row : RowId} {after store before : RowStore}

theorem refl (row : RowId) (store : RowStore) : WritesOnly row store store :=
  ⟨fun _ _ => rfl, fun record held => ⟨record, held, .refl record⟩, rfl, rfl, rfl, rfl⟩

theorem write (row : RowId) (store : RowStore) (index : Nat) (value : Value) :
    WritesOnly row (store.write row index value) store where
  others other apart := by rw [records_write, if_neg (Ne.symm apart)]
  record record held := by
    rw [records_write, if_pos rfl, held]
    exact ⟨_, rfl, record.write_revises index value⟩
  live := rfl
  tombstones := rfl
  byTable := rfl
  nextNumber := rfl

theorem trans (second : WritesOnly row after store) (first : WritesOnly row store before) :
    WritesOnly row after before where
  others other apart := (second.others other apart).trans (first.others other apart)
  record record held := by
    obtain ⟨middle, stood, revised⟩ := first.record record held
    obtain ⟨later, remains, revised'⟩ := second.record middle stood
    exact ⟨later, remains, revised'.entity.trans revised.entity, revised'.table.trans revised.table,
      revised'.identity.trans revised.identity, revised'.live.trans revised.live,
      revised'.detached.trans revised.detached⟩
  live := second.live.trans first.live
  tombstones := second.tombstones.trans first.tombstones
  byTable := second.byTable.trans first.byTable
  nextNumber := second.nextNumber.trans first.nextNumber

end WritesOnly

theorem sameRows_forget {store after : RowStore} {model : Model} (formed : store.WellFormed model)
    {record : RowRecord} (free : store.live.get? record.identity = none)
    (wrote : WritesOnly ⟨store.nextNumber⟩ after (store.register record).2) :
    (after.forget ⟨store.nextNumber⟩).SameRows store := by
  have untracked := formed.lacks formed.next_untracked
  obtain ⟨later, held, revised⟩ :=
    wrote.record record ((records_register ..).trans (if_pos rfl))
  constructor
  case records =>
    intro row
    rw [records_forget]
    split
    next here => rw [← here, untracked.record]
    next apart => rw [wrote.others row (Ne.symm apart), records_register, if_neg apart]
  case live =>
    intro identity
    rw [live_forget _ held, revised.identity, wrote.live, live_register]
    by_cases same : record.identity = identity
    · simp [same, ← free]
    · simp [same]
  case tombstones =>
    intro identity
    rw [tombstones_forget _ held, wrote.tombstones, if_neg]
    · rfl
    · rintro ⟨_, leads⟩
      exact untracked.tombstones identity leads
  case rows =>
    intro table
    have listed : after.rows table = (store.register record).2.rows table := by
      simp only [RowStore.rows, wrote.byTable]
    rw [rows_forget _ held, revised.table, listed, rows_register]
    split
    · have old : (store.rows table).filter (· ≠ ⟨store.nextNumber⟩) = store.rows table := by
        apply List.filter_eq_self.mpr
        intro row among
        have apart : row ≠ ⟨store.nextNumber⟩ := fun same => untracked.rows table (same ▸ among)
        simpa using apart
      rw [List.filter_append, old]
      simp
    · rfl

end RowStore

theorem inserting_concluding :
    Concluding (fun _ => true) False fun before after => after.inserting = before.inserting where
  refl _ := rfl
  trans first second := second.trans first
  rows _ _ := rfl
  insert _ := rfl
  followChange followed := by
    obtain ⟨views, rfl⟩ := UnitOfWork.followChange_eq_ok followed
    rfl
  followDeletion followed := by
    obtain ⟨views, rfl⟩ := UnitOfWork.followDeletion_eq_ok followed
    rfl
  openView opened := by
    obtain ⟨-, -, -, -, -, -, -, -, rfl⟩ := UnitOfWork.openView_eq_ok.mp opened
    rfl
  completeLoad _ _ _ := rfl
  invalidate unit id := unit.inserting_invalidate id
  closeView unit id := unit.inserting_invalidate id
  subscribe _ _ _ _ := rfl
  unsubscribe _ _ _ := rfl

theorem Program.within_all {α : Type} (program : Program σ α) : program.Within fun _ => true := by
  induction program with
  | done answer => trivial
  | look next ih => exact ih
  | keep memory next ih => exact ih
  | perform operation next ih => exact ⟨rfl, ih⟩

theorem Environment.within_all (environment : Environment σ) :
    environment.Within (fun _ => true) False where
  columnChanging _ _ := Program.within_all _
  rowDeleting _ _ := Program.within_all _
  fetch _ _ _ := Program.within_all _
  still impossible := impossible.elim

theorem inserting_perform {environment : Environment σ} {depth : Nat} (operation : Operation)
    {unit after : UnitOfWork} {memory kept : σ} {result : Except Fault operation.Answer}
    (ran : perform (environment.callbacks depth) operation unit memory = some ⟨result, after, kept⟩) :
    after.inserting = unit.inserting :=
  leads_perform inserting_concluding (Environment.lead inserting_concluding environment.within_all depth)
    operation rfl _ _ _ _ ran

theorem inserting_run {α : Type} {environment : Environment σ} {depth : Nat} {program : Program σ α}
    {unit after : UnitOfWork} {memory kept : σ} {result : Except Fault α}
    (ran : program.run (environment.callbacks depth) unit memory = some ⟨result, after, kept⟩) :
    after.inserting = unit.inserting :=
  leads_run inserting_concluding (Environment.lead inserting_concluding environment.within_all depth)
    program.within_all _ _ _ _ ran

theorem wellFormed_perform {model : Model} {environment : Environment σ} {depth : Nat}
    (operation : Operation) {unit after : UnitOfWork} {memory kept : σ}
    {result : Except Fault operation.Answer} (good : unit.model = model ∧ unit.store.WellFormed model)
    (ran : perform (environment.callbacks depth) operation unit memory = some ⟨result, after, kept⟩) :
    after.model = model ∧ after.store.WellFormed model :=
  have leading := (wellFormed_evolving model).leading
  leading.arrives (leading.performed good ran)

theorem tell_refused {follow : UnitOfWork → ViewId → Except Fault UnitOfWork}
    {call : ListenerKey → Action σ Unit} {subscribers : List Subscriber} {unit after : UnitOfWork}
    {memory kept : σ} {fault : Fault}
    (told : tell follow call subscribers unit memory = some ⟨.error fault, after, kept⟩) :
    ∃ earlier subscriber later between halfway, subscribers = earlier ++ subscriber :: later ∧
      tell follow call earlier unit memory = some ⟨.ok (), between, halfway⟩ ∧
      tellOne follow call subscriber between halfway = some ⟨.error fault, after, kept⟩ := by
  induction subscribers generalizing unit memory with
  | nil => cases told
  | cons first rest ih =>
    rcases Action.bind_eq_some.mp told with ⟨_, middle, on, accepted, told⟩ | ⟨_, _, _, refused, same⟩
    · obtain ⟨earlier, subscriber, later, between, halfway, split, heard, refused⟩ := ih told
      refine ⟨first :: earlier, subscriber, later, between, halfway, by rw [split]; rfl, ?_, refused⟩
      exact (Action.bind_of_ok accepted _).trans heard
    · cases same
      exact ⟨[], first, rest, unit, memory, rfl, rfl, refused⟩

def RefusedBy (calls : Callbacks σ) (change : ColumnChange) (unit : UnitOfWork) (memory : σ)
    (subscriber : Subscriber) (fault : Fault) : Prop :=
  ∃ earlier later between halfway after kept,
    unit.channels.subscribers .columnChanging change.table = earlier ++ subscriber :: later ∧
    tellChange calls change earlier unit memory = some ⟨.ok (), between, halfway⟩ ∧
    tellOne (·.followChange · change) (calls.columnChanging · change) subscriber between halfway =
      some ⟨.error fault, after, kept⟩

namespace UnitOfWork

variable {unit after : UnitOfWork} {calls : Callbacks σ} {row : RowId} {memory kept : σ} {fault : Fault}
  {model : Model}

theorem writeColumn_refusedBy (quiet : calls.Quiet) {column : String} {value : Value}
    {change : ColumnChange} {place : Nat} (found : unit.changeOf row column value = .ok (change, place))
    (failed : writeColumn calls row column value unit memory = some ⟨.error fault, after, kept⟩) :
    ∃ subscriber, RefusedBy calls change unit memory subscriber fault := by
  obtain ⟨result, heard, rest, last, -, split, announced, ends⟩ :=
    announceChange_quiet unit calls change (fun key _ => quiet.columnChanging key change) memory
  rcases ends with ⟨rfl, rfl⟩ | ⟨cause, failing, later, rfl, -, -⟩
  · rw [List.append_nil] at split
    subst split
    cases (writeColumn_of_announced found announced).symm.trans failed
  · unfold writeColumn at failed
    rw [Action.ask_bind_of_ok found] at failed
    cases (Action.bind_of_error announced _).symm.trans failed
    change tellChange calls change _ unit memory = _ at announced
    rw [tellChange_eq] at announced
    obtain ⟨earlier, subscriber, later, between, halfway, split, told, refused⟩ := tell_refused announced
    rw [← tellChange_eq] at told
    exact ⟨subscriber, earlier, later, between, halfway, _, _, split, told, refused⟩

theorem Written.writesOnly {values : List (String × Value)} (written : Written row values unit after) :
    RowStore.WritesOnly row after.store unit.store ∧ after.model = unit.model := by
  induction written with
  | nil unit => exact ⟨.refl row unit.store, rfl⟩
  | @cons column value rest unit after change place found later ih =>
    obtain ⟨record, entity, held, -, -, -, -, rfl⟩ := changeOf_eq_ok.mp found
    exact ⟨ih.1.trans (.write row unit.store place value), ih.2⟩

-- The columns of a row that came in can all be written, so only a subscriber can stand in the way.
theorem Breakoff.refused (quiet : calls.Quiet) {name table : String}
    {values pending : List (String × Value)} {started : UnitOfWork}
    (begun : unit.beginInsert name values = .ok ((row, table, pending), started))
    (broken : Breakoff calls row pending started memory) :
    RowStore.WritesOnly row broken.after.store started.store ∧ ∃ change place,
      broken.between.changeOf row broken.column broken.value = .ok (change, place) ∧
        ∃ subscriber, RefusedBy calls change broken.between broken.halfway subscriber broken.fault := by
  obtain ⟨wrote, modelled⟩ := (broken.written quiet).writesOnly
  obtain ⟨entity, arranged, identity, known, placed, -, -, rfl, -, rfl, rfl⟩ := beginInsert_eq_ok.mp begun
  obtain ⟨record, held, revised⟩ := wrote.record (beginning entity identity arranged)
    ((RowStore.records_register ..).trans (if_pos rfl))
  have listed : (broken.column, broken.value) ∈ pendingValues entity arranged :=
    (congrArg (_ ∈ ·) broken.split).mpr (by simp)
  obtain ⟨place, found, outside⟩ := columnIndex_of_pending placed listed
  have known : broken.between.model.entity record.entity = .ok entity := by
    rw [modelled, revised.entity]
    exact Model.entity_self known
  have asked : broken.between.changeOf ⟨unit.store.nextNumber⟩ broken.column broken.value = .ok _ :=
    changeOf_eq_ok.mpr ⟨record, entity, held, revised.live.trans rfl, known, found, outside, rfl⟩
  refine ⟨?_, _, place, asked, writeColumn_refusedBy quiet asked broken.failed⟩
  obtain ⟨-, unasked⟩ | ⟨change, place, -, same⟩ := writeColumn_refused quiet broken.failed
  · exact absurd asked (unasked _ _)
  · rw [same]
    exact wrote

end UnitOfWork

open UnitOfWork

variable {environment : Environment σ} {depth : Nat} {name : String} {values : List (String × Value)}
  {unit after : UnitOfWork} {memory kept : σ} {result : Except Fault RowId} {model : Model}

theorem insertRow_lacks (reachable : unit.Reachable model) {fault : Fault}
    (failed : insertRow (environment.callbacks depth) name values unit memory =
      some ⟨.error fault, after, kept⟩) {row : RowId} {table : String} {pending : List (String × Value)}
    {started : UnitOfWork}
    (begun : unit.beginInsert name values = .ok ((row, table, pending), started)) :
    after.store.Lacks row := by
  obtain ⟨-, formed⟩ := wellFormed_perform (.insert name values) reachable.wellFormed failed
  obtain ⟨_, unbegun, -, -⟩ | ⟨insert, ends⟩ := insertRow_eq_some failed
  · cases begun.symm.trans unbegun
  · cases insert.begun.symm.trans begun
    rcases ends with ⟨-, impossible, -⟩ | ⟨_, _, last, -, -, -, rfl⟩
    · cases impossible
    · exact formed.lacks ((RowStore.records_forget ..).trans (if_pos rfl))

/-- A failing insert has used up the number of its row if a subscriber refused a column of it. -/
inductive UsedUp (calls : Callbacks σ) (name : String) (values : List (String × Value))
    (unit after : UnitOfWork) (memory : σ) (fault : Fault) : Prop
  | unbegun (same : after.store.nextNumber = unit.store.nextNumber)
  | refused {row : RowId} {table : String} {pending : List (String × Value)} {started : UnitOfWork}
      {change : ColumnChange} {place : Nat} {subscriber : Subscriber}
      (begun : unit.beginInsert name values = .ok ((row, table, pending), started))
      (broken : Breakoff calls row pending started memory) (failed : broken.fault = fault)
      (asked : broken.between.changeOf row broken.column broken.value = .ok (change, place))
      (refused : RefusedBy calls change broken.between broken.halfway subscriber fault)
      (next : after.store.nextNumber = unit.store.nextNumber + 1)

theorem insertRow_sameRows {calls : Callbacks σ} (formed : unit.store.WellFormed model)
    (quiet : calls.Quiet) {fault : Fault}
    (failed : insertRow calls name values unit memory = some ⟨.error fault, after, kept⟩) :
    after.store.SameRows unit.store ∧ UsedUp calls name values unit after memory fault := by
  rcases insertRow_refused quiet failed with
    ⟨rfl, -⟩ | ⟨row, table, pending, started, begun, ⟨broken⟩⟩
  · exact ⟨.refl _, .unbegun rfl⟩
  · obtain ⟨last, ran⟩ := broken.insertRow quiet begun
    cases failed.symm.trans ran
    obtain ⟨wrote, change, place, asked, subscriber, refused⟩ := broken.refused quiet begun
    have next : (broken.after.store.forget row).nextNumber = unit.store.nextNumber + 1 := by
      rw [RowStore.nextNumber_forget, wrote.nextNumber]
      obtain ⟨_, _, _, -, -, -, -, -, -, -, rfl⟩ := beginInsert_eq_ok.mp begun
      rfl
    refine ⟨?_, .refused begun broken rfl asked refused next⟩
    obtain ⟨entity, arranged, identity, -, -, -, free, rfl, -, -, rfl⟩ := beginInsert_eq_ok.mp begun
    exact RowStore.sameRows_forget formed free wrote

/-- Every insert restores the insert underway. One that fails leaves no trace of its row, and if the
listeners only accept or refuse then all rows are as they were. -/
theorem failed_insert_leaves_nothing (reachable : unit.Reachable model)
    (ran : insertRow (environment.callbacks depth) name values unit memory =
      some ⟨result, after, kept⟩) :
    after.inserting = unit.inserting ∧ ∀ fault, result = .error fault →
      (∀ row table pending started,
        unit.beginInsert name values = .ok ((row, table, pending), started) → after.store.Lacks row) ∧
      ((environment.callbacks depth).Quiet → after.store.SameRows unit.store ∧
        UsedUp (environment.callbacks depth) name values unit after memory fault) := by
  refine ⟨inserting_perform (.insert name values) ran, ?_⟩
  rintro fault rfl
  refine ⟨fun row table pending started begun => insertRow_lacks reachable ran begun, fun quiet => ?_⟩
  exact insertRow_sameRows reachable.wellFormed.2 quiet ran

-- A second line for the order, refused by the listener when it is to point there.
theorem refused_insert_leaves_nothing : ∃ unit after,
    unit.Reachable orders ∧
      insertRow ((answering (.error (.refused .invalidOperation "no"))).callbacks 1) "Line"
          [("id", .integer 8), ("order", .integer 1)] unit () =
        some ⟨.error (.refused .invalidOperation "no"), after, ()⟩ ∧
      after.inserting = none ∧ after.store.Lacks ⟨2⟩ ∧ after.store.SameRows unit.store ∧
      after.store.nextNumber = unit.store.nextNumber + 1 := by
  have ran : lookingOn.run ((answering (.ok ())).callbacks 1) (.new orders .standard) () =
      some ⟨_, _, _⟩ :=
    (Program.run_of_performed rfl).trans <| (Program.run_of_performed rfl).trans <|
      (Program.run_of_performed rfl).trans <| (Program.run_of_performed rfl).trans <|
      (Program.run_of_performed rfl).trans rfl
  have quiet : ((answering (.error (.refused .invalidOperation "no"))).callbacks 1).Quiet :=
    ⟨fun _ _ _ _ => ⟨_, _, rfl⟩, fun _ _ _ _ => ⟨_, _, rfl⟩⟩
  obtain ⟨unit, reachable, after, failed, idle, ⟨table, pending, started, begun⟩, next⟩ :
      ∃ unit, unit.Reachable orders ∧ ∃ after,
        insertRow ((answering (.error (.refused .invalidOperation "no"))).callbacks 1) "Line"
            [("id", .integer 8), ("order", .integer 1)] unit () =
          some ⟨.error (.refused .invalidOperation "no"), after, ()⟩ ∧ unit.inserting = none ∧
        (∃ table pending started,
          unit.beginInsert "Line" [("id", .integer 8), ("order", .integer 1)] =
            .ok ((⟨2⟩, table, pending), started)) ∧
        after.store.nextNumber = unit.store.nextNumber + 1 :=
    ⟨_, .of_run ran, _, rfl, rfl, ⟨_, _, _, rfl⟩, rfl⟩
  obtain ⟨restored, left⟩ := failed_insert_leaves_nothing reachable failed
  obtain ⟨lacks, same⟩ := left _ rfl
  exact ⟨unit, after, reachable, failed, restored.trans idle, lacks _ _ _ _ begun, (same quiet).1, next⟩

end RelationalMapper.Cache
