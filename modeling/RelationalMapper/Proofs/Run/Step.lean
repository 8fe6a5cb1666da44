import RelationalMapper.Cache.ViewActions
import RelationalMapper.Proofs.Store.Integrity

set_option autoImplicit false

namespace RelationalMapper

namespace Cache

namespace Action

variable {σ α β : Type} {unit after : UnitOfWork} {memory kept : σ}

theorem bind_of_ok {first : Action σ α} {answer : α}
    (ran : first unit memory = some ⟨.ok answer, after, kept⟩) (rest : α → Action σ β) :
    (first >>= rest) unit memory = rest answer after kept := by
  change next first rest unit memory = _
  simp only [next, ran]

theorem bind_of_error {first : Action σ α} {fault : Fault}
    (ran : first unit memory = some ⟨.error fault, after, kept⟩) (rest : α → Action σ β) :
    (first >>= rest) unit memory = some ⟨.error fault, after, kept⟩ := by
  change next first rest unit memory = _
  simp only [next, ran]

theorem ask_bind_of_ok {question : UnitOfWork → Except Fault α} {answer : α}
    (answered : question unit = .ok answer) (rest : α → Action σ β) :
    (ask question >>= rest) unit memory = rest answer unit memory :=
  bind_of_ok (by rw [ask, answered]) rest

theorem ask_bind_of_error {question : UnitOfWork → Except Fault α} {fault : Fault}
    (answered : question unit = .error fault) (rest : α → Action σ β) :
    (ask question >>= rest) unit memory = some ⟨.error fault, unit, memory⟩ :=
  bind_of_error (by rw [ask, answered]) rest

theorem bind_bind {γ : Type} (first : Action σ α) (second : α → Action σ β) (third : β → Action σ γ) :
    first >>= second >>= third = first >>= fun answer => second answer >>= third := by
  funext unit memory
  change next (next first second) third unit memory = next first _ unit memory
  simp only [next]
  rcases first unit memory with _ | ⟨fault | answer, after, kept⟩ <;> rfl

theorem attempt_of_some {action : Action σ α} {result : Except Fault α}
    (ran : action unit memory = some ⟨result, after, kept⟩) :
    action.attempt unit memory = some ⟨.ok result, after, kept⟩ := by
  rw [attempt, ran]

theorem bind_eq_some {first : Action σ α} {rest : α → Action σ β} {outcome : Outcome σ β} :
    (first >>= rest) unit memory = some outcome ↔
      (∃ answer after kept, first unit memory = some ⟨.ok answer, after, kept⟩ ∧
        rest answer after kept = some outcome) ∨
      ∃ fault after kept, first unit memory = some ⟨.error fault, after, kept⟩ ∧
        outcome = ⟨.error fault, after, kept⟩ := by
  constructor
  · intro ran
    cases firstRan : first unit memory with
    | none =>
      change next first rest unit memory = _ at ran
      simp [next, firstRan] at ran
    | some between =>
      obtain ⟨fault | answer, after, kept⟩ := between
      · rw [bind_of_error firstRan] at ran
        cases ran
        exact .inr ⟨fault, after, kept, rfl, rfl⟩
      · rw [bind_of_ok firstRan] at ran
        exact .inl ⟨answer, after, kept, rfl, ran⟩
  · intro given
    rcases given with ⟨answer, after, kept, firstRan, ran⟩ | ⟨fault, after, kept, firstRan, rfl⟩
    · rw [bind_of_ok firstRan]
      exact ran
    · exact bind_of_error firstRan rest

theorem attempt_bind_eq_some {action : Action σ α} {rest : Except Fault α → Action σ β}
    {outcome : Outcome σ β} (ran : (action.attempt >>= rest) unit memory = some outcome) :
    ∃ result after kept, action unit memory = some ⟨result, after, kept⟩ ∧
      rest result after kept = some outcome := by
  cases acted : action unit memory with
  | none =>
    change next action.attempt rest unit memory = _ at ran
    simp [next, Action.attempt, acted] at ran
  | some ended =>
    obtain ⟨result, after, kept⟩ := ended
    rw [bind_of_ok (attempt_of_some acted)] at ran
    exact ⟨result, after, kept, rfl, ran⟩

theorem ask_bind_eq_some {question : UnitOfWork → Except Fault α} {rest : α → Action σ β}
    {outcome : Outcome σ β} (ran : (Action.ask question >>= rest) unit memory = some outcome) :
    (∃ fault, question unit = .error fault ∧ outcome = ⟨.error fault, unit, memory⟩) ∨
      ∃ answer, question unit = .ok answer ∧ rest answer unit memory = some outcome := by
  cases answered : question unit with
  | error fault =>
    rw [ask_bind_of_error answered] at ran
    cases ran
    exact .inl ⟨fault, rfl, rfl⟩
  | ok answer =>
    rw [ask_bind_of_ok answered] at ran
    exact .inr ⟨answer, rfl, ran⟩

end Action

namespace RowStore

variable {store : RowStore} {row : RowId} {record : RowRecord}

theorem record_eq_ok : store.record row = .ok record ↔ store.records.get? row = some record := by
  unfold RowStore.record
  split <;> simp_all

theorem liveRecord_eq_ok : store.liveRecord row = .ok record ↔
    store.records.get? row = some record ∧ record.state.isLive = true := by
  simp only [liveRecord, Except.bind_eq_ok, record_eq_ok]
  constructor
  · rintro ⟨found, held, kept⟩
    split at kept
    · cases kept
      exact ⟨held, ‹_›⟩
    · cases kept
  · rintro ⟨held, live⟩
    exact ⟨record, held, by rw [if_pos live]; rfl⟩

theorem state_isLive : (store.state row).isLive = true ↔
    ∃ record, store.records.get? row = some record ∧ record.state.isLive = true := by
  unfold state
  cases store.records.get? row <;> simp [RowState.isLive]

end RowStore

namespace UnitOfWork

variable {unit after : UnitOfWork} {row : RowId} {column : String} {value : Value}

theorem value_eq_ok {version : RowVersion} : unit.value row column version = .ok value ↔
    ∃ record entity index, unit.store.records.get? row = some record ∧
      unit.model.entity record.entity = .ok entity ∧ entity.columnIndex column = .ok index ∧
      (record.version version).getD index .null = value := by
  simp only [UnitOfWork.value, Except.bind_eq_ok, RowStore.record_eq_ok]
  constructor
  · rintro ⟨record, held, entity, known, index, placed, same⟩
    cases same
    exact ⟨record, entity, index, held, known, placed, rfl⟩
  · intro given
    obtain ⟨record, entity, index, held, known, placed, rfl⟩ := given
    exact ⟨record, held, entity, known, index, placed, rfl⟩

theorem identityOf_eq_ok {identity : ObjectIdentity} : unit.identityOf row = .ok identity ↔
    ∃ record, unit.store.records.get? row = some record ∧ record.identity = identity := by
  unfold UnitOfWork.identityOf RowStore.record
  cases unit.store.records.get? row <;> simp [Except.map]

theorem view_eq_ok {id : ViewId} {view : RelationView} :
    unit.view id = .ok view ↔ unit.views.get? id = some view := by
  unfold UnitOfWork.view
  split <;> simp_all

theorem attach_eq_ok {name : String} {values : List Value} :
    unit.attach name values = .ok (row, after) ↔
      ∃ entity identity, unit.model.entity name = .ok entity ∧
        values.length = entity.columns.length ∧ entity.identityOf values = .ok identity ∧
        (unit.store.resolve? identity = some row ∧ after = unit ∨
          unit.store.resolve? identity = none ∧ row = ⟨unit.store.nextNumber⟩ ∧
            after = { unit with store := (unit.store.register
              ⟨entity.name, entity.table, identity, values, some values, .unchanged⟩).2 }) := by
  simp only [UnitOfWork.attach, Except.bind_eq_ok]
  constructor
  · rintro ⟨entity, known, ran⟩
    split at ran
    · cases ran
    next width =>
      obtain ⟨identity, own, ran⟩ := Except.bind_eq_ok.mp ran
      refine ⟨entity, identity, known, Decidable.not_not.mp width, own, ?_⟩
      split at ran <;> cases ran
      · exact .inl ⟨‹_›, rfl⟩
      · exact .inr ⟨‹_›, rfl, rfl⟩
  · intro given
    obtain ⟨entity, identity, known, width, own, found | ⟨found, rfl, rfl⟩⟩ := given
    · obtain ⟨found, rfl⟩ := found
      refine ⟨entity, known, ?_⟩
      rw [if_neg (Decidable.not_not.mpr width)]
      refine Except.bind_eq_ok.mpr ⟨identity, own, ?_⟩
      rw [found]
      rfl
    · refine ⟨entity, known, ?_⟩
      rw [if_neg (Decidable.not_not.mpr width)]
      refine Except.bind_eq_ok.mpr ⟨identity, own, ?_⟩
      rw [found]
      rfl

-- The record of a row as its insert begins: nothing but the key.
def beginning (entity : Entity) (identity : ObjectIdentity) (values : List Value) : RowRecord :=
  ⟨entity.name, entity.table, identity, keyValues entity values, none, .fresh⟩

theorem beginInsert_eq_ok {name table : String} {values pending : List (String × Value)} :
    unit.beginInsert name values = .ok ((row, table, pending), after) ↔
      ∃ entity arranged identity, unit.model.entity name = .ok entity ∧
        arrange entity values = .ok arranged ∧ entity.identityOf arranged = .ok identity ∧
        unit.store.live.get? identity = none ∧ row = ⟨unit.store.nextNumber⟩ ∧
        table = entity.table ∧ pending = pendingValues entity arranged ∧
        after = { unit with
          store := (unit.store.register (beginning entity identity arranged)).2
          inserting := some row } := by
  simp only [beginInsert, Except.bind_eq_ok]
  constructor
  · rintro ⟨entity, known, arranged, placed, identity, own, ran⟩
    split at ran
    · cases ran
    next free =>
      cases ran
      have absent : unit.store.live.get? identity = none := by simpa [Assoc.contains] using free
      exact ⟨entity, arranged, identity, known, placed, own, absent, rfl, rfl, rfl, rfl⟩
  · intro given
    obtain ⟨entity, arranged, identity, known, placed, own, free, rfl, rfl, rfl, rfl⟩ := given
    refine ⟨entity, known, arranged, placed, identity, own, ?_⟩
    rw [if_neg (by simp [Assoc.contains, free])]
    rfl

theorem changeOf_eq_ok {change : ColumnChange} {index : Nat} :
    unit.changeOf row column value = .ok (change, index) ↔
      ∃ record entity, unit.store.records.get? row = some record ∧ record.state.isLive = true ∧
        unit.model.entity record.entity = .ok entity ∧ entity.columnIndex column = .ok index ∧
        (entity.columns[index]?).any (·.primaryKey) = false ∧
        change = ⟨row, record.table, column, value, record.current.getD index .null⟩ := by
  simp only [changeOf, Except.bind_eq_ok, RowStore.liveRecord_eq_ok]
  constructor
  · rintro ⟨record, ⟨held, live⟩, entity, known, place, placed, ran⟩
    split at ran
    · cases ran
    next outside =>
      cases ran
      exact ⟨record, entity, held, live, known, placed, by simpa using outside, rfl⟩
  · intro given
    obtain ⟨record, entity, held, live, known, placed, outside, rfl⟩ := given
    refine ⟨record, ⟨held, live⟩, entity, known, index, placed, ?_⟩
    rw [outside]
    rfl

theorem applyChange_eq_ok {index : Nat} : unit.applyChange row index value = .ok after ↔
    (∃ record, unit.store.records.get? row = some record ∧ record.state.isLive = true) ∧
      after = { unit with store := unit.store.write row index value } := by
  simp only [applyChange, Except.bind_eq_ok, RowStore.liveRecord_eq_ok]
  constructor
  · rintro ⟨record, live, ran⟩
    cases ran
    exact ⟨⟨record, live⟩, rfl⟩
  · intro given
    obtain ⟨⟨record, live⟩, rfl⟩ := given
    exact ⟨record, live, rfl⟩

theorem deletionOf_eq_ok {deletion : RowDeletion} : unit.deletionOf row = .ok deletion ↔
    ∃ record, unit.store.records.get? row = some record ∧ record.state.isLive = true ∧
      deletion = ⟨row, record.table, record.state⟩ := by
  simp only [deletionOf, Except.bind_eq_ok, RowStore.liveRecord_eq_ok]
  constructor
  · rintro ⟨record, ⟨held, live⟩, ran⟩
    cases ran
    exact ⟨record, held, live, rfl⟩
  · intro given
    obtain ⟨record, held, live, rfl⟩ := given
    exact ⟨record, ⟨held, live⟩, rfl⟩

theorem applyDeletion_eq_ok : unit.applyDeletion row = .ok after ↔
    ∃ record, unit.store.records.get? row = some record ∧
      after = if record.state.isLive then { unit with store := unit.store.delete row record }
        else unit := by
  simp only [applyDeletion, Except.bind_eq_ok, RowStore.record_eq_ok]
  constructor
  · rintro ⟨record, held, ran⟩
    refine ⟨record, held, ?_⟩
    split at ran <;> cases ran <;> simp_all
  · intro given
    obtain ⟨record, held, rfl⟩ := given
    refine ⟨record, held, ?_⟩
    split <;> rfl

theorem setMembers_eq (unit : UnitOfWork) (id : ViewId) (members : Option (List ObjectIdentity)) :
    ∃ views, unit.setMembers id members = { unit with views } := by
  cases members with
  | none => exact ⟨unit.views, rfl⟩
  | some members => exact ⟨_, rfl⟩

theorem followChange_eq_ok {id : ViewId} {change : ColumnChange}
    (followed : unit.followChange id change = .ok after) : ∃ views, after = { unit with views } := by
  unfold followChange at followed
  split at followed
  · cases followed
    exact ⟨unit.views, rfl⟩
  next view _ =>
    cases told : unit.membersAfterChange view change with
    | error fault => simp [told, Except.map] at followed
    | ok members =>
      obtain ⟨views, same⟩ := unit.setMembers_eq id members
      rw [told, Except.map] at followed
      cases followed
      exact ⟨views, same⟩

theorem followDeletion_eq_ok {id : ViewId} {deletion : RowDeletion}
    (followed : unit.followDeletion id deletion = .ok after) :
    ∃ views, after = { unit with views } := by
  unfold followDeletion at followed
  split at followed
  · cases followed
    exact ⟨unit.views, rfl⟩
  next view _ =>
    cases told : unit.membersAfterDeletion view deletion with
    | error fault => simp [told, Except.map] at followed
    | ok members =>
      obtain ⟨views, same⟩ := unit.setMembers_eq id members
      rw [told, Except.map] at followed
      cases followed
      exact ⟨views, same⟩

theorem openView_eq_ok {owner : ObjectIdentity} {relationName : String} {id : ViewId} :
    unit.openView owner relationName = .ok (id, after) ↔
      ∃ ownerEntity relation child, unit.model.entityForTable owner.table = .ok ownerEntity ∧
        ownerEntity.relation relationName = .ok relation ∧ relation.parent = ownerEntity.name ∧
        unit.model.entity relation.child = .ok child ∧ id = ⟨unit.nextView⟩ ∧
        after = { unit with
          views := unit.views.insert id ⟨owner, relation, child.name, child.table, .unloaded⟩
          nextView := unit.nextView + 1 } := by
  simp only [openView, Except.bind_eq_ok]
  constructor
  · rintro ⟨ownerEntity, mapped, relation, named, ran⟩
    split at ran
    · cases ran
    next parent =>
      obtain ⟨child, known, ran⟩ := Except.bind_eq_ok.mp ran
      cases ran
      exact ⟨ownerEntity, relation, child, mapped, named, Decidable.not_not.mp parent, known,
        rfl, rfl⟩
  · intro given
    obtain ⟨ownerEntity, relation, child, mapped, named, parent, known, rfl, rfl⟩ := given
    refine ⟨ownerEntity, mapped, relation, named, ?_⟩
    rw [if_neg (Decidable.not_not.mpr parent)]
    exact Except.bind_eq_ok.mpr ⟨child, known, rfl⟩

@[simp] theorem store_invalidate (unit : UnitOfWork) (id : ViewId) :
    (unit.invalidate id).store = unit.store := by
  unfold UnitOfWork.invalidate
  split
  · rfl
  · split <;> rfl

@[simp] theorem model_invalidate (unit : UnitOfWork) (id : ViewId) :
    (unit.invalidate id).model = unit.model := by
  unfold UnitOfWork.invalidate
  split
  · rfl
  · split <;> rfl

@[simp] theorem store_closeView (unit : UnitOfWork) (id : ViewId) :
    (unit.closeView id).store = unit.store :=
  store_invalidate unit id

@[simp] theorem model_closeView (unit : UnitOfWork) (id : ViewId) :
    (unit.closeView id).model = unit.model :=
  model_invalidate unit id

end UnitOfWork

section

variable {σ : Type} {calls : Callbacks σ} {unit after : UnitOfWork} {memory kept : σ}
  {result : Except Fault Unit} {row : RowId}

inductive Takes (effect : UnitOfWork → Except Fault UnitOfWork) (between : UnitOfWork) :
    Except Fault Unit → UnitOfWork → Prop
  | effect {after : UnitOfWork} (taken : effect between = .ok after) :
    Takes effect between (.ok ()) after
  | failed {fault : Fault} (failed : effect between = .error fault) : Takes effect between (.ok ()) between
  | refused (fault : Fault) : Takes effect between (.error fault) between

theorem announced_eq_some {announce : Action σ Unit} {effect : UnitOfWork → Except Fault UnitOfWork}
    (ran : (announce >>= fun _ => Action.ask effect >>= fun later => Action.change fun _ => later)
      unit memory = some ⟨result, after, kept⟩) :
    ∃ told between halfway, announce unit memory = some ⟨told, between, halfway⟩ ∧
      Takes effect between told after := by
  rcases Action.bind_eq_some.mp ran with ⟨_, between, halfway, told, ran⟩ | ⟨fault, _, _, told, same⟩
  · refine ⟨.ok (), between, halfway, told, ?_⟩
    rcases Action.ask_bind_eq_some ran with ⟨fault, failed, same⟩ | ⟨later, taken, ran⟩
    · cases same
      exact .failed failed
    · cases ran
      exact .effect taken
  · cases same
    exact ⟨.error fault, after, kept, told, .refused fault⟩

theorem writeColumn_eq_some {column : String} {value : Value}
    (ran : writeColumn calls row column value unit memory = some ⟨result, after, kept⟩) :
    (∃ fault, unit.changeOf row column value = .error fault ∧ after = unit) ∨
      ∃ change place told between halfway, unit.changeOf row column value = .ok (change, place) ∧
        announceChange calls change unit memory = some ⟨told, between, halfway⟩ ∧
        Takes (·.applyChange row place value) between told after := by
  rcases Action.ask_bind_eq_some ran with ⟨fault, failed, same⟩ | ⟨⟨change, place⟩, found, ran⟩
  · cases same
    exact .inl ⟨fault, failed, rfl⟩
  · obtain ⟨told, between, halfway, announced, takes⟩ := announced_eq_some ran
    exact .inr ⟨change, place, told, between, halfway, found, announced, takes⟩

theorem deleteRow_eq_some (ran : deleteRow calls row unit memory = some ⟨result, after, kept⟩) :
    (∃ fault, unit.deletionOf row = .error fault ∧ after = unit) ∨
      ∃ deletion told between halfway, unit.deletionOf row = .ok deletion ∧
        announceDeletion calls deletion unit memory = some ⟨told, between, halfway⟩ ∧
        Takes (·.applyDeletion row) between told after := by
  rcases Action.ask_bind_eq_some ran with ⟨fault, failed, same⟩ | ⟨deletion, found, ran⟩
  · cases same
    exact .inl ⟨fault, failed, rfl⟩
  · obtain ⟨told, between, halfway, announced, takes⟩ := announced_eq_some ran
    exact .inr ⟨deletion, told, between, halfway, found, announced, takes⟩

end

end Cache

end RelationalMapper
