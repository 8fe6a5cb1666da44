import RelationalMapper.Proofs.Run.Integrity
import RelationalMapper.Proofs.Store.Children
import RelationalMapper.Proofs.View.Announce

set_option autoImplicit false

namespace RelationalMapper.Cache

variable {σ : Type}

namespace UnitOfWork

def Alone (unit : UnitOfWork) : Prop :=
  ∀ channel table subscriber, subscriber ∈ unit.channels.subscribers channel table →
    ∃ id, subscriber = .view id

structure Plain (unit : UnitOfWork) (model : Model) : Prop where
  sound : unit.Sound model
  alone : unit.Alone

structure Onlooked (unit : UnitOfWork) (model : Model) : Prop where
  formed : unit.model = model ∧ unit.store.WellFormed model
  proper : ∀ id view, unit.views.get? id = some view → view.Proper model
  hears : ∀ channel table subscriber, subscriber ∈ unit.channels.subscribers channel table →
    ∃ id, subscriber = .view id ∧ ∀ view, unit.views.get? id = some view → view.childTable = table

def changed (unit : UnitOfWork) (change : ColumnChange) (place : Nat) : UnitOfWork :=
  { unit with
    views := tellViews (unit.afterChange change)
      (unit.channels.subscribers .columnChanging change.table) unit.views
    store := unit.store.write change.row place change.proposed }

def removed (unit : UnitOfWork) (deletion : RowDeletion) (record : RowRecord) : UnitOfWork :=
  { unit with
    views := tellViews (unit.afterDeletion deletion)
      (unit.channels.subscribers .rowDeleting deletion.table) unit.views
    store := unit.store.delete deletion.row record }

inductive Written (row : RowId) : List (String × Value) → UnitOfWork → UnitOfWork → Prop
  | nil (unit : UnitOfWork) : Written row [] unit unit
  | cons {column : String} {value : Value} {rest : List (String × Value)} {unit after : UnitOfWork}
      {change : ColumnChange} {place : Nat}
      (found : unit.changeOf row column value = .ok (change, place))
      (later : Written row rest (unit.changed change place) after) :
      Written row ((column, value) :: rest) unit after

variable {unit : UnitOfWork} {model : Model} {row : RowId} {record : RowRecord} {column : String}
  {value : Value} {change : ColumnChange} {place : Nat} {deletion : RowDeletion}

theorem writeColumn_of_announced {calls : Callbacks σ} {memory kept : σ}
    (found : unit.changeOf row column value = .ok (change, place))
    (announced : announceChange calls change unit memory = some ⟨.ok (), unit.toldOfChange change
      (unit.channels.subscribers .columnChanging change.table), kept⟩) :
    writeColumn calls row column value unit memory = some ⟨.ok (), unit.changed change place, kept⟩ := by
  have asked := found
  obtain ⟨record, entity, held, live, known, placed, outside, rfl⟩ := changeOf_eq_ok.mp found
  have applied : (unit.toldOfChange ⟨row, record.table, column, value, _⟩ _).applyChange row place value =
      .ok (unit.changed ⟨row, record.table, column, value, record.current.getD place .null⟩ place) :=
    applyChange_eq_ok.mpr ⟨⟨record, held, live⟩, rfl⟩
  unfold writeColumn
  rw [Action.ask_bind_of_ok asked]
  dsimp only
  rw [Action.bind_of_ok announced, Action.ask_bind_of_ok applied]
  rfl

theorem insertRow_of_unbegun {calls : Callbacks σ} {memory : σ} {name : String}
    {values : List (String × Value)} {fault : Fault} (failed : unit.beginInsert name values = .error fault) :
    insertRow calls name values unit memory = some ⟨.error fault, unit, memory⟩ := by
  have looked : Action.look unit memory = some ⟨.ok unit, unit, memory⟩ := rfl
  unfold insertRow
  rw [Action.bind_of_ok looked, Action.ask_bind_of_error failed]

theorem insertRow_of_written {calls : Callbacks σ} {memory kept : σ} {name table : String}
    {values pending : List (String × Value)} {started after : UnitOfWork}
    (begun : unit.beginInsert name values = .ok ((row, table, pending), started))
    (ran : writeColumns calls row pending started memory = some ⟨.ok (), after, kept⟩) :
    insertRow calls name values unit memory =
      some ⟨.ok row, { after with inserting := unit.inserting }, kept⟩ := by
  have looked : Action.look unit memory = some ⟨.ok unit, unit, memory⟩ := rfl
  unfold insertRow
  rw [Action.bind_of_ok looked, Action.ask_bind_of_ok begun]
  exact Action.bind_of_ok (Action.attempt_of_some ran) _

theorem Sound.withStore (sound : unit.Sound model) {store : RowStore}
    (formed : store.WellFormed model) : ({ unit with store } : UnitOfWork).Sound model :=
  ⟨sound.modelled, formed, sound.proper, ⟨sound.wired.numbered, sound.wired.held, sound.wired.opened⟩⟩

theorem Sound.withInserting (sound : unit.Sound model) (row : Option RowId) :
    ({ unit with inserting := row } : UnitOfWork).Sound model :=
  ⟨sound.modelled, sound.rows, sound.proper,
    ⟨sound.wired.numbered, sound.wired.held, sound.wired.opened⟩⟩

namespace Onlooked

theorem tellViews (onlooked : unit.Onlooked model) {patch : RelationView → RelationView}
    (patches : ∀ view, (patch view).Repeopled view) (heard : List Subscriber) :
    ({ unit with views := tellViews patch heard unit.views } : UnitOfWork).Onlooked model := by
  have before (id : ViewId) (view : RelationView)
      (found : (Cache.tellViews patch heard unit.views).get? id = some view) :
      ∃ older, unit.views.get? id = some older ∧ view.Repeopled older := by
    rw [get?_tellViews, Option.map_eq_some_iff] at found
    obtain ⟨older, stood, rfl⟩ := found
    exact ⟨older, stood, RelationView.Repeopled.iterate patches _ older⟩
  refine ⟨onlooked.formed, fun id view found => ?_, fun channel table subscriber member => ?_⟩
  · obtain ⟨older, stood, repeopled⟩ := before id view found
    exact repeopled.proper (onlooked.proper id older stood)
  · obtain ⟨id, same, own⟩ := onlooked.hears channel table subscriber member
    refine ⟨id, same, fun view found => ?_⟩
    obtain ⟨older, stood, repeopled⟩ := before id view found
    rw [repeopled.childTable]
    exact own older stood

theorem withStore (onlooked : unit.Onlooked model) {store : RowStore}
    (formed : store.WellFormed model) : ({ unit with store } : UnitOfWork).Onlooked model :=
  ⟨⟨onlooked.formed.1, formed⟩, onlooked.proper, onlooked.hears⟩

theorem changed (onlooked : unit.Onlooked model)
    (found : unit.changeOf row column value = .ok (change, place)) :
    (unit.changed change place).Onlooked model := by
  obtain ⟨record, entity, held, live, known, placed, outside, rfl⟩ := changeOf_eq_ok.mp found
  have formed : (unit.store.write row place value).WellFormed model :=
    onlooked.formed.2.write held (onlooked.formed.1 ▸ known) live outside
  exact (onlooked.tellViews (unit.afterChange_eq _) _).withStore formed

variable (onlooked : unit.Onlooked model) (mapped : (model.entities.map (·.table)).Nodup)
  (calls : Callbacks σ)

include onlooked mapped

theorem announceChange (change : ColumnChange)
    (held : unit.store.records.get? change.row = some record) (memory : σ) :
    Cache.announceChange calls change unit memory = some ⟨.ok (), unit.toldOfChange change
      (unit.channels.subscribers .columnChanging change.table), memory⟩ := by
  change tellChange calls change (unit.channels.subscribers .columnChanging change.table) unit memory = _
  rw [tellChange_eq]
  refine tell_views (fun heard subscriber member => ?_) memory
  obtain ⟨id, same, -⟩ := onlooked.hears .columnChanging change.table subscriber member
  have still := onlooked.tellViews (unit.afterChange_eq change) heard
  refine ⟨id, same, follow_of_ok fun view found => ?_⟩
  obtain ⟨parent, child, parentIndex, childIndex, ends⟩ := still.proper id view found
  exact membersAfterChange_ok mapped still.formed ends held

theorem announceDeletion (deletion : RowDeletion)
    (held : unit.store.records.get? deletion.row = some record) (here : record.table = deletion.table)
    (memory : σ) :
    Cache.announceDeletion calls deletion unit memory = some ⟨.ok (), unit.toldOfDeletion deletion
      (unit.channels.subscribers .rowDeleting deletion.table), memory⟩ := by
  change tellDeletion calls deletion (unit.channels.subscribers .rowDeleting deletion.table) unit memory = _
  rw [tellDeletion_eq]
  refine tell_views (fun heard subscriber member => ?_) memory
  have still := onlooked.tellViews (unit.afterDeletion_eq deletion) heard
  obtain ⟨id, same, own⟩ := still.hears .rowDeleting deletion.table subscriber member
  refine ⟨id, same, follow_of_ok fun view found => ?_⟩
  obtain ⟨parent, child, parentIndex, childIndex, ends⟩ := still.proper id view found
  exact membersAfterDeletion_ok mapped still.formed ends held (here.trans (own view found).symm)

theorem writeColumn (found : unit.changeOf row column value = .ok (change, place)) (memory : σ) :
    Cache.writeColumn calls row column value unit memory =
      some ⟨.ok (), unit.changed change place, memory⟩ := by
  obtain ⟨record, entity, held, live, known, placed, outside, built⟩ := changeOf_eq_ok.mp found
  exact writeColumn_of_announced found
    (onlooked.announceChange mapped calls change (by rw [built]; exact held) memory)

theorem deleteRow (found : unit.deletionOf row = .ok deletion)
    (held : unit.store.records.get? row = some record) (memory : σ) :
    Cache.deleteRow calls row unit memory = some ⟨.ok (), unit.removed deletion record, memory⟩ := by
  obtain ⟨stood, same, live, rfl⟩ := deletionOf_eq_ok.mp found
  cases same.symm.trans held
  have announced := onlooked.announceDeletion mapped calls ⟨row, record.table, record.state⟩ held rfl
    memory
  have applied : (unit.toldOfDeletion ⟨row, record.table, record.state⟩ _).applyDeletion row =
      .ok (unit.removed ⟨row, record.table, record.state⟩ record) :=
    applyDeletion_eq_ok.mpr ⟨record, held, by rw [if_pos live]; rfl⟩
  unfold Cache.deleteRow
  rw [Action.ask_bind_of_ok found, Action.bind_of_ok announced, Action.ask_bind_of_ok applied]
  rfl

theorem writeColumns {values : List (String × Value)} {entity : Entity}
    (held : unit.store.records.get? row = some record) (live : record.state.isLive = true)
    (known : model.entity record.entity = .ok entity)
    (able : ∀ entry ∈ values, ∃ place, entity.columnIndex entry.1 = .ok place ∧
      (entity.columns[place]?).any (·.primaryKey) = false)
    (memory : σ) :
    ∃ after, Cache.writeColumns calls row values unit memory = some ⟨.ok (), after, memory⟩ ∧
      Written row values unit after := by
  induction values generalizing unit record with
  | nil => exact ⟨unit, rfl, .nil unit⟩
  | cons entry rest ih =>
    obtain ⟨column, value⟩ := entry
    obtain ⟨place, placed, outside⟩ := able (column, value) (List.mem_cons_self ..)
    have found : unit.changeOf row column value =
        .ok (⟨row, record.table, column, value, record.current.getD place .null⟩, place) :=
      changeOf_eq_ok.mpr
        ⟨record, entity, held, live, onlooked.formed.1 ▸ known, placed, outside, rfl⟩
    have wrote := onlooked.writeColumn mapped calls found memory
    have still : (unit.store.write row place value).records.get? row =
        some (record.write place value) := by
      rw [RowStore.records_write, if_pos rfl, held]
      rfl
    have revised := record.write_revises place value
    obtain ⟨after, ran, written⟩ := ih (onlooked.changed found) still (revised.live.trans live)
      (revised.entity ▸ known) fun entry member => able entry (List.mem_cons_of_mem _ member)
    exact ⟨after, (Action.bind_of_ok wrote _).trans ran, .cons found written⟩

end Onlooked

theorem Plain.onlooked (plain : unit.Plain model) : unit.Onlooked model := by
  refine ⟨plain.sound.formed, plain.sound.proper, fun channel table subscriber member => ?_⟩
  obtain ⟨id, rfl⟩ := plain.alone channel table subscriber member
  exact ⟨id, rfl, fun view found => plain.sound.childTable found member⟩

namespace Plain

theorem changed (plain : unit.Plain model) (found : unit.changeOf row column value = .ok (change, place)) :
    (unit.changed change place).Plain model := by
  obtain ⟨record, entity, held, live, known, placed, outside, rfl⟩ := changeOf_eq_ok.mp found
  refine ⟨?_, plain.alone⟩
  have formed : (unit.store.write row place value).WellFormed model :=
    plain.sound.rows.write held (plain.sound.modelled ▸ known) live outside
  exact (plain.sound.tellViews (unit.afterChange_eq _) _).withStore formed

theorem removed (plain : unit.Plain model) (found : unit.deletionOf row = .ok deletion)
    (held : unit.store.records.get? row = some record) : (unit.removed deletion record).Plain model := by
  obtain ⟨stood, same, live, rfl⟩ := deletionOf_eq_ok.mp found
  cases same.symm.trans held
  refine ⟨?_, plain.alone⟩
  exact (plain.sound.tellViews (unit.afterDeletion_eq _) _).withStore
    (plain.sound.rows.delete held live)

theorem writeColumn (plain : unit.Plain model) (wellMapped : model.WellMapped)
    (found : unit.changeOf row column value = .ok (change, place)) (calls : Callbacks σ) (memory : σ) :
    ∃ kept, Cache.writeColumn calls row column value unit memory =
      some ⟨.ok (), unit.changed change place, kept⟩ :=
  ⟨memory, plain.onlooked.writeColumn wellMapped.mapped calls found memory⟩

theorem deleteRow (plain : unit.Plain model) (wellMapped : model.WellMapped)
    (found : unit.deletionOf row = .ok deletion) (held : unit.store.records.get? row = some record)
    (calls : Callbacks σ) (memory : σ) :
    ∃ kept, Cache.deleteRow calls row unit memory =
      some ⟨.ok (), unit.removed deletion record, kept⟩ :=
  ⟨memory, plain.onlooked.deleteRow wellMapped.mapped calls found held memory⟩

theorem written {values : List (String × Value)} {after : UnitOfWork} (plain : unit.Plain model)
    (written : Written row values unit after) : after.Plain model := by
  induction written with
  | nil => exact plain
  | cons found _ ih => exact ih (plain.changed found)

end Plain

-- A value that is there is at the place that its column's name is looked up at.
theorem columnIndex_of_zip {entity : Entity} {values : List (String × Value)} {arranged : List Value}
    (placed : arrange entity values = .ok arranged) {index : Nat} {column : Column} {value : Value}
    (here : (entity.columns.zip arranged)[index]? = some (column, value)) (present : value ≠ .null) :
    entity.columnIndex column.name = .ok index ∧ entity.columns[index]? = some column := by
  obtain ⟨listed, held⟩ := List.getElem?_zip_eq_some.mp here
  obtain ⟨name, found⟩ := columnIndex_of_arrange placed held present
  obtain ⟨other, there, named⟩ := Entity.column_of_columnIndex found
  cases listed.symm.trans there
  rw [named]
  exact ⟨found, listed⟩

theorem columnIndex_of_pending {entity : Entity} {values : List (String × Value)}
    {arranged : List Value} (placed : arrange entity values = .ok arranged) {entry : String × Value}
    (member : entry ∈ pendingValues entity arranged) :
    ∃ place, entity.columnIndex entry.1 = .ok place ∧
      (entity.columns[place]?).any (·.primaryKey) = false := by
  obtain ⟨⟨column, value⟩, among, rfl⟩ := List.mem_map.mp member
  obtain ⟨among, pending⟩ := List.mem_filter.mp among
  simp only [Bool.and_eq_true, Bool.not_eq_true'] at pending
  obtain ⟨index, here⟩ := List.getElem?_of_mem among
  have present : value ≠ .null := by
    rintro rfl
    cases pending.2
  obtain ⟨found, listed⟩ := columnIndex_of_zip placed here present
  exact ⟨index, found, by simp [listed, pending.1]⟩

-- A column is written once at most, even where two columns have one name.
theorem nodup_pendingValues {entity : Entity} {values : List (String × Value)}
    {arranged : List Value} (placed : arrange entity values = .ok arranged) :
    ((pendingValues entity arranged).map (·.1)).Nodup := by
  rw [pendingValues, List.map_map, List.Nodup, List.pairwise_map, List.pairwise_filter,
    List.pairwise_iff_getElem]
  intro first second firstWithin secondWithin earlier firstPending secondPending same
  have at_name (index : Nat) (within : index < (entity.columns.zip arranged).length)
      (pending : (entity.columns.zip arranged)[index].2.isNull = false) :
      entity.columnIndex (entity.columns.zip arranged)[index].1.name = .ok index := by
    refine (columnIndex_of_zip placed (List.getElem?_eq_getElem within) ?_).1
    intro null
    cases pending.symm.trans (congrArg Value.isNull null)
  simp only [Bool.and_eq_true, Bool.not_eq_true'] at firstPending secondPending
  have firstFound := at_name first firstWithin firstPending.2
  have secondFound := at_name second secondWithin secondPending.2
  simp only [Function.comp_apply] at same
  rw [same, secondFound] at firstFound
  cases firstFound
  exact Nat.lt_irrefl _ earlier

theorem Sound.beginInsert (sound : unit.Sound model) {name table : String}
    {values pending : List (String × Value)} {started : UnitOfWork}
    (begun : unit.beginInsert name values = .ok ((row, table, pending), started)) :
    started.Sound model := by
  have led := (wellFormed_evolving model).leading.begin ⟨sound.modelled, sound.rows⟩ begun
  obtain ⟨entity, arranged, identity, -, -, -, -, -, -, -, rfl⟩ := beginInsert_eq_ok.mp begun
  exact (sound.withStore led.2.1).withInserting _

theorem Onlooked.beginInsert (onlooked : unit.Onlooked model) {name table : String}
    {values pending : List (String × Value)} {started : UnitOfWork}
    (begun : unit.beginInsert name values = .ok ((row, table, pending), started)) :
    started.Onlooked model := by
  have led := (wellFormed_evolving model).leading.begin onlooked.formed begun
  obtain ⟨entity, arranged, identity, -, -, -, -, -, -, -, rfl⟩ := beginInsert_eq_ok.mp begun
  exact ⟨⟨led.1, led.2.1⟩, onlooked.proper, onlooked.hears⟩

theorem Onlooked.insertRow (onlooked : unit.Onlooked model)
    (mapped : (model.entities.map (·.table)).Nodup) {name table : String}
    {values pending : List (String × Value)} {started : UnitOfWork}
    (begun : unit.beginInsert name values = .ok ((row, table, pending), started))
    (calls : Callbacks σ) (memory : σ) :
    ∃ after, Cache.insertRow calls name values unit memory =
        some ⟨.ok row, { after with inserting := unit.inserting }, memory⟩ ∧
      Written row pending started after := by
  have start := onlooked.beginInsert begun
  obtain ⟨entity, arranged, identity, known, placed, own, free, rfl, rfl, rfl, rfl⟩ :=
    beginInsert_eq_ok.mp begun
  rw [onlooked.formed.1] at known
  have held : (unit.store.register (beginning entity identity arranged)).2.records.get?
      ⟨unit.store.nextNumber⟩ = some (beginning entity identity arranged) := by
    rw [RowStore.records_register, if_pos rfl]
  obtain ⟨after, ran, written⟩ := start.writeColumns mapped calls held rfl (Model.entity_self known)
    (fun entry member => columnIndex_of_pending placed member) memory
  exact ⟨after, insertRow_of_written begun ran, written⟩

theorem Plain.insertRow (plain : unit.Plain model) (wellMapped : model.WellMapped) {name table : String}
    {values pending : List (String × Value)} {started : UnitOfWork}
    (begun : unit.beginInsert name values = .ok ((row, table, pending), started))
    (calls : Callbacks σ) (memory : σ) :
    ∃ after kept, Cache.insertRow calls name values unit memory =
        some ⟨.ok row, { after with inserting := unit.inserting }, kept⟩ ∧
      Written row pending started after ∧ started.Plain model ∧ after.Plain model := by
  obtain ⟨after, ran, written⟩ := plain.onlooked.insertRow wellMapped.mapped begun calls memory
  have start : started.Plain model := by
    refine ⟨plain.sound.beginInsert begun, ?_⟩
    obtain ⟨-, -, -, -, -, -, -, -, -, -, rfl⟩ := beginInsert_eq_ok.mp begun
    exact plain.alone
  exact ⟨after, memory, ran, written, start, start.written written⟩

end UnitOfWork

end RelationalMapper.Cache
