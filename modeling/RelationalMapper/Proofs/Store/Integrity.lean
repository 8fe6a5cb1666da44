import RelationalMapper.Proofs.Schema.Lookup
import RelationalMapper.Proofs.Store.Lookup

set_option autoImplicit false

namespace RelationalMapper

namespace Entity

structure Stores (entity : Entity) (identity : ObjectIdentity) (values : List Value) : Prop where
  width : values.length = entity.columns.length
  table : identity.table = entity.table
  key : entity.keyOf values = identity.key
  keyed : identity.key ≠ []
  present : Value.null ∉ identity.key

theorem identityOf_eq_ok {entity : Entity} {values : List Value} {identity : ObjectIdentity}
    (known : entity.identityOf values = .ok identity)
    (width : values.length = entity.columns.length) : entity.Stores identity values := by
  unfold identityOf at known
  simp only at known
  split at known
  · cases known
  split at known
  · cases known
  next keyed present =>
    cases known
    refine ⟨width, rfl, rfl, by simpa using keyed, ?_⟩
    intro member
    exact present (List.any_eq_true.mpr ⟨_, member, rfl⟩)

theorem keyOf_set (entity : Entity) (values : List Value) (index : Nat) (value : Value)
    (outside : (entity.columns[index]?).any (·.primaryKey) = false) :
    entity.keyOf (values.set index value) = entity.keyOf values := by
  obtain ⟨name, table, columns, relations⟩ := entity
  simp only [keyOf] at *
  induction columns generalizing values index with
  | nil => simp
  | cons column rest ih =>
    cases values with
    | nil => simp
    | cons first values =>
      cases index with
      | zero =>
        have plain : column.primaryKey = false := by simpa using outside
        simp [plain]
      | succ index =>
        have later := ih values index (by simpa using outside)
        by_cases key : column.primaryKey <;> simp_all

theorem Stores.set {entity : Entity} {identity : ObjectIdentity} {values : List Value}
    (stores : entity.Stores identity values) (index : Nat) (value : Value)
    (outside : (entity.columns[index]?).any (·.primaryKey) = false) :
    entity.Stores identity (values.set index value) where
  width := by simpa using stores.width
  table := stores.table
  key := (entity.keyOf_set values index value outside).trans stores.key
  keyed := stores.keyed
  present := stores.present

end Entity

namespace Cache

structure RowRecord.Fits (record : RowRecord) (entity : Entity) : Prop where
  table : record.table = entity.table
  current : entity.Stores record.identity record.current
  original : ∀ values, record.original = some values → entity.Stores record.identity values
  stored : record.original = none ↔ record.state = .fresh ∨ record.state = .detached
  unchanged : record.state = .unchanged → record.original = some record.current

namespace RowRecord

variable {record : RowRecord} {entity : Entity}

theorem Fits.write (fits : record.Fits entity) (index : Nat) (value : Value)
    (live : record.state.isLive = true)
    (outside : (entity.columns[index]?).any (·.primaryKey) = false) :
    (record.write index value).Fits entity where
  table := fits.table
  current := fits.current.set index value outside
  original := fits.original
  stored := by
    have stored := fits.stored
    cases state : record.state <;> simp_all [RowRecord.write, RowState.isLive]
  unchanged := by
    cases state : record.state <;> simp [RowRecord.write, state]

theorem Fits.deleted (fits : record.Fits entity) (live : record.state.isLive = true) :
    ({ record with state := record.deletedState } : RowRecord).Fits entity where
  table := fits.table
  current := fits.current
  original := fits.original
  stored := by
    have stored := fits.stored
    cases state : record.state <;> simp_all [deletedState, RowState.isLive]
  unchanged := by
    cases state : record.state <;> simp [deletedState, state]

theorem Fits.settled (fits : record.Fits entity) : record.settled.Fits entity := by
  unfold RowRecord.settled
  split
  case h_1 | h_2 =>
    refine ⟨fits.table, fits.current, ?_, by simp, fun _ => rfl⟩
    intro values stored
    cases stored
    exact fits.current
  case h_3 | h_4 | h_5 => exact fits

@[simp] theorem deletedState_isLive : record.deletedState.isLive = false := by
  unfold deletedState
  split <;> rfl

structure Revises (after before : RowRecord) : Prop where
  entity : after.entity = before.entity
  table : after.table = before.table
  identity : after.identity = before.identity
  live : after.state.isLive = before.state.isLive
  detached : after.state = .detached ↔ before.state = .detached

theorem Revises.refl (record : RowRecord) : record.Revises record :=
  ⟨rfl, rfl, rfl, rfl, .rfl⟩

theorem write_revises (record : RowRecord) (index : Nat) (value : Value) :
    (record.write index value).Revises record := by
  refine ⟨rfl, rfl, rfl, ?_, ?_⟩ <;>
    cases state : record.state <;> simp [RowRecord.write, state, RowState.isLive]

theorem settled_revises (record : RowRecord) : record.settled.Revises record := by
  constructor <;> cases state : record.state <;> simp [RowRecord.settled, state, RowState.isLive]

end RowRecord

structure RowStore.WellFormed (store : RowStore) (model : Model) : Prop where
  fits : ∀ row record, store.records.get? row = some record →
    ∃ entity, model.entity record.entity = .ok entity ∧ record.Fits entity
  numbered : ∀ row record, store.records.get? row = some record → row.number < store.nextNumber
  live : ∀ identity row, store.live.get? identity = some row ↔
    ∃ record, store.records.get? row = some record ∧ record.identity = identity ∧
      record.state.isLive = true
  tombstones : ∀ identity row, store.tombstones.get? identity = some row →
    ∃ record, store.records.get? row = some record ∧ record.identity = identity ∧
      record.state.isLive = false
  sorted : ∀ table, (store.rows table).Pairwise (·.number < ·.number)
  listed : ∀ table row, row ∈ store.rows table ↔
    ∃ record, store.records.get? row = some record ∧ record.table = table ∧
      record.state ≠ .detached

namespace RowStore

def Gone (store : RowStore) (rows : List RowId) : Prop :=
  ∀ row ∈ rows, ∀ record, store.records.get? row = some record → record.state.isLive = false

theorem Gone.purge {store : RowStore} {row : RowId} {rest : List RowId} (gone : store.Gone (row :: rest)) :
    (store.purge row).Gone rest := by
  intro other member record held
  rw [records_purge] at held
  split at held
  · cases held
  · exact gone other (List.mem_cons_of_mem _ member) record held

theorem gone_foldl_settleRow (store : RowStore) (order : List RowId) :
    (order.foldl settleRow store).Gone (order.filter store.isGone) := by
  intro row member record held
  obtain ⟨listed, gone⟩ := List.mem_filter.mp member
  rw [isGone_eq] at gone
  rw [records_foldl_settleRow, if_pos listed, Option.map_eq_some_iff] at held
  obtain ⟨before, stood, rfl⟩ := held
  rw [before.settled_revises.live]
  simpa [stood] using gone

namespace WellFormed

variable {store : RowStore} {model : Model} {row : RowId} {record : RowRecord}

theorem empty (model : Model) : RowStore.empty.WellFormed model where
  fits := by simp [RowStore.empty]
  numbered := by simp [RowStore.empty]
  live := by simp [RowStore.empty]
  tombstones := by simp [RowStore.empty]
  sorted := by simp [RowStore.empty, rows]
  listed := by simp [RowStore.empty, rows]

theorem next_untracked (formed : store.WellFormed model) :
    store.records.get? ⟨store.nextNumber⟩ = none := by
  cases held : store.records.get? ⟨store.nextNumber⟩ with
  | none => rfl
  | some record => exact absurd (formed.numbered _ _ held) (Nat.lt_irrefl _)

theorem ne_next (formed : store.WellFormed model) (held : store.records.get? row = some record) :
    (⟨store.nextNumber⟩ : RowId) ≠ row := by
  intro same
  subst same
  simp [formed.next_untracked] at held

theorem live_of_record (formed : store.WellFormed model)
    (held : store.records.get? row = some record) (live : record.state.isLive = true) :
    store.live.get? record.identity = some row :=
  (formed.live _ _).mpr ⟨record, held, rfl, live⟩

theorem resolve?_of_record (formed : store.WellFormed model)
    (held : store.records.get? row = some record) (live : record.state.isLive = true) :
    store.resolve? record.identity = some row := by
  rw [resolve?, formed.live_of_record held live, Option.some_or]

theorem register (formed : store.WellFormed model) {entity : Entity}
    (known : model.entity record.entity = .ok entity) (fits : record.Fits entity)
    (live : record.state.isLive = true) (free : store.live.get? record.identity = none) :
    (store.register record).2.WellFormed model where
  fits := by
    intro row held found
    rw [records_register] at found
    split at found
    · cases found
      exact ⟨entity, known, fits⟩
    · exact formed.fits row held found
  numbered := by
    intro row held found
    change row.number < store.nextNumber + 1
    rw [records_register] at found
    split at found
    next here => rw [← here]; exact Nat.lt_succ_self _
    next => exact Nat.lt_succ_of_lt (formed.numbered row held found)
  live := by
    intro identity row
    rw [live_register, records_register]
    by_cases same : record.identity = identity
    · subst same
      rw [if_pos rfl]
      constructor
      · intro found
        cases found
        simp [live]
      · rintro ⟨held, found, identity, alive⟩
        split at found
        next here => rw [here]
        next =>
          have := formed.live_of_record found alive
          rw [identity, free] at this
          cases this
    · rw [if_neg same, formed.live]
      constructor
      · rintro ⟨held, found, rest⟩
        exact ⟨held, by rw [if_neg (formed.ne_next found)]; exact found, rest⟩
      · rintro ⟨held, found, identity, alive⟩
        split at found
        next => cases found; exact absurd identity same
        next => exact ⟨held, found, identity, alive⟩
  tombstones := by
    intro identity row buried
    obtain ⟨held, found, rest⟩ := formed.tombstones identity row buried
    exact ⟨held, by rw [records_register, if_neg (formed.ne_next found)]; exact found, rest⟩
  sorted := by
    intro table
    rw [rows_register]
    split
    · refine List.pairwise_append.mpr ⟨formed.sorted table, List.pairwise_singleton .., ?_⟩
      intro earlier member new fresh
      rw [List.mem_singleton.mp fresh]
      obtain ⟨held, found, -⟩ := (formed.listed table earlier).mp member
      exact formed.numbered earlier held found
    · exact formed.sorted table
  listed := by
    intro table row
    have staying : record.state ≠ .detached := by
      intro detached
      rw [detached] at live
      cases live
    rw [rows_register, records_register]
    by_cases here : (⟨store.nextNumber⟩ : RowId) = row
    · subst here
      have absent : (⟨store.nextNumber⟩ : RowId) ∉ store.rows table := by
        simp [formed.listed, formed.next_untracked]
      by_cases same : record.table = table <;> simp [same, absent, staying]
    · rw [if_neg here, ← formed.listed table row]
      split <;> simp [Ne.symm here]

theorem revise (formed : store.WellFormed model) {after : RowStore}
    (revision : RowId → RowRecord → RowRecord)
    (records : ∀ row, after.records.get? row = (store.records.get? row).map (revision row))
    (others : after.live = store.live ∧ after.tombstones = store.tombstones ∧
      after.byTable = store.byTable ∧ after.nextNumber = store.nextNumber)
    (revised : ∀ row record, store.records.get? row = some record →
      (revision row record).Revises record)
    (fits : ∀ row record entity, store.records.get? row = some record →
      model.entity record.entity = .ok entity → record.Fits entity →
      (revision row record).Fits entity) :
    after.WellFormed model := by
  obtain ⟨live, tombstones, byTable, nextNumber⟩ := others
  have rows (table : String) : after.rows table = store.rows table := by
    simp only [RowStore.rows, byTable]
  have found (row : RowId) (record : RowRecord) : after.records.get? row = some record ↔
      ∃ before, store.records.get? row = some before ∧ revision row before = record := by
    rw [records, Option.map_eq_some_iff]
  refine ⟨?_, ?_, ?_, ?_, fun table => by rw [rows]; exact formed.sorted table, ?_⟩
  · intro row record held
    obtain ⟨before, stood, rfl⟩ := (found row record).mp held
    obtain ⟨entity, known, fit⟩ := formed.fits row before stood
    rw [(revised row before stood).entity]
    exact ⟨entity, known, fits row before entity stood known fit⟩
  · intro row record held
    obtain ⟨before, stood, rfl⟩ := (found row record).mp held
    rw [nextNumber]
    exact formed.numbered row before stood
  · intro identity row
    rw [live, formed.live]
    constructor
    · rintro ⟨before, stood, same, alive⟩
      have kept := revised row before stood
      exact ⟨_, (found row _).mpr ⟨before, stood, rfl⟩, kept.identity.trans same,
        kept.live.trans alive⟩
    · rintro ⟨record, held, same, alive⟩
      obtain ⟨before, stood, rfl⟩ := (found row record).mp held
      have kept := revised row before stood
      exact ⟨before, stood, kept.identity.symm.trans same, kept.live.symm.trans alive⟩
  · intro identity row buried
    rw [tombstones] at buried
    obtain ⟨before, stood, same, dead⟩ := formed.tombstones identity row buried
    have kept := revised row before stood
    exact ⟨_, (found row _).mpr ⟨before, stood, rfl⟩, kept.identity.trans same,
      kept.live.trans dead⟩
  · intro table row
    rw [rows, formed.listed]
    constructor
    · rintro ⟨before, stood, same, staying⟩
      have kept := revised row before stood
      exact ⟨_, (found row _).mpr ⟨before, stood, rfl⟩, kept.table.trans same,
        fun gone => staying (kept.detached.mp gone)⟩
    · rintro ⟨record, held, same, staying⟩
      obtain ⟨before, stood, rfl⟩ := (found row record).mp held
      have kept := revised row before stood
      exact ⟨before, stood, kept.table.symm.trans same, fun gone => staying (kept.detached.mpr gone)⟩

theorem write (formed : store.WellFormed model) {entity : Entity} {index : Nat} {value : Value}
    (held : store.records.get? row = some record) (known : model.entity record.entity = .ok entity)
    (live : record.state.isLive = true)
    (outside : (entity.columns[index]?).any (·.primaryKey) = false) :
    (store.write row index value).WellFormed model := by
  refine formed.revise (fun other before => if row = other then before.write index value else before)
    ?_ ⟨rfl, rfl, rfl, rfl⟩ ?_ ?_
  · intro other
    rw [records_write]
    split <;> simp
  · intro other before _
    split
    · exact before.write_revises index value
    · exact .refl before
  · intro other before own stood own_known fits
    split
    next here =>
      subst here
      cases held.symm.trans stood
      cases known.symm.trans own_known
      exact fits.write index value live outside
    next => exact fits

theorem settleRow (formed : store.WellFormed model) (row : RowId) :
    (store.settleRow row).WellFormed model := by
  refine formed.revise (fun other before => if row = other then before.settled else before)
    ?_ ⟨rfl, rfl, rfl, rfl⟩ ?_ ?_
  · intro other
    rw [records_settleRow]
    split <;> simp
  · intro other before _
    split
    · exact before.settled_revises
    · exact .refl before
  · intro other before own _ _ fits
    split
    · exact fits.settled
    · exact fits

theorem delete (formed : store.WellFormed model) (held : store.records.get? row = some record)
    (live : record.state.isLive = true) : (store.delete row record).WellFormed model where
  fits := by
    intro other after found
    rw [records_delete] at found
    split at found
    next here =>
      cases found
      obtain ⟨entity, known, fits⟩ := formed.fits row record held
      exact ⟨entity, known, fits.deleted live⟩
    next => exact formed.fits other after found
  numbered := by
    intro other after found
    rw [nextNumber_delete]
    rw [records_delete] at found
    split at found
    next here => exact here ▸ formed.numbered row record held
    next => exact formed.numbered other after found
  live := by
    intro identity other
    rw [live_delete, records_delete]
    by_cases same : record.identity = identity
    · rw [if_pos same]
      refine ⟨by simp, ?_⟩
      rintro ⟨after, found, rfl, alive⟩
      split at found
      next =>
        cases found
        rw [RowRecord.deletedState_isLive] at alive
        cases alive
      next elsewhere =>
        have first := formed.live_of_record held live
        have second := formed.live_of_record found alive
        rw [same, second] at first
        cases first
        exact absurd rfl elsewhere
    · rw [if_neg same, formed.live]
      constructor
      · rintro ⟨before, stood, own, alive⟩
        have elsewhere : row ≠ other := by
          intro same
          subst same
          cases held.symm.trans stood
          exact same own
        exact ⟨before, by rw [if_neg elsewhere]; exact stood, own, alive⟩
      · rintro ⟨after, found, own, alive⟩
        split at found
        next =>
          cases found
          exact absurd own same
        next => exact ⟨after, found, own, alive⟩
  tombstones := by
    intro identity other buried
    rw [tombstones_delete] at buried
    rw [records_delete]
    split at buried
    next same =>
      cases buried
      exact ⟨_, if_pos rfl, same, RowRecord.deletedState_isLive⟩
    next =>
      obtain ⟨before, stood, own, dead⟩ := formed.tombstones identity other buried
      have elsewhere : row ≠ other := by
        intro same
        subst same
        cases held.symm.trans stood
        rw [live] at dead
        cases dead
      exact ⟨before, by rw [if_neg elsewhere]; exact stood, own, dead⟩
  sorted := by
    intro table
    rw [rows_delete]
    split
    · exact (formed.sorted table).filter _
    · exact formed.sorted table
  listed := by
    intro table other
    rw [rows_delete, records_delete]
    by_cases here : row = other
    · subst here
      have member : row ∈ store.rows table ↔ record.table = table := by
        have staying : record.state ≠ .detached := by
          intro detached
          rw [detached] at live
          cases live
        rw [formed.listed]
        simp [held, staying]
      by_cases gone : record.deletedState = .detached <;>
        by_cases same : record.table = table <;> simp [gone, same, member]
    · rw [if_neg here, ← formed.listed]
      split <;> simp [Ne.symm here]

theorem forget (formed : store.WellFormed model) (row : RowId) :
    (store.forget row).WellFormed model := by
  cases held : store.records.get? row with
  | none =>
    have same : store.forget row = store := by simp [RowStore.forget, held]
    rwa [same]
  | some record =>
    have found (other : RowId) (after : RowRecord) :
        (store.forget row).records.get? other = some after ↔
          row ≠ other ∧ store.records.get? other = some after := by
      rw [records_forget]
      split <;> simp_all
    have rows (table : String) (other : RowId) :
        other ∈ (store.forget row).rows table ↔ row ≠ other ∧ other ∈ store.rows table := by
      rw [rows_forget _ held]
      split
      next =>
        rw [List.mem_filter, decide_eq_true_eq, and_comm, ne_comm]
      next elsewhere =>
        refine ⟨fun member => ⟨?_, member⟩, And.right⟩
        intro same
        subst same
        obtain ⟨own, stood, same, -⟩ := (formed.listed table row).mp member
        cases held.symm.trans stood
        exact elsewhere same
    refine ⟨?_, ?_, ?_, ?_, ?_, ?_⟩
    · intro other after remains
      exact formed.fits other after ((found other after).mp remains).2
    · intro other after remains
      rw [nextNumber_forget]
      exact formed.numbered other after ((found other after).mp remains).2
    · intro identity other
      rw [live_forget _ held]
      constructor
      · intro leads
        split at leads
        next => cases leads
        next elsewhere =>
          obtain ⟨before, stood, own, alive⟩ := (formed.live identity other).mp leads
          refine ⟨before, (found other before).mpr ⟨?_, stood⟩, own, alive⟩
          intro same
          subst same
          cases held.symm.trans stood
          exact elsewhere ⟨own, leads⟩
      · rintro ⟨after, remains, own, alive⟩
        obtain ⟨elsewhere, stood⟩ := (found other after).mp remains
        have leads := (formed.live identity other).mpr ⟨after, stood, own, alive⟩
        rw [leads, if_neg]
        rintro ⟨_, here⟩
        exact elsewhere (Option.some.inj here).symm
    · intro identity other buried
      rw [tombstones_forget _ held] at buried
      split at buried
      next => cases buried
      next elsewhere =>
        obtain ⟨before, stood, own, dead⟩ := formed.tombstones identity other buried
        refine ⟨before, (found other before).mpr ⟨?_, stood⟩, own, dead⟩
        intro same
        subst same
        cases held.symm.trans stood
        exact elsewhere ⟨own, buried⟩
    · intro table
      rw [rows_forget _ held]
      split
      · exact (formed.sorted table).filter _
      · exact formed.sorted table
    · intro table other
      rw [rows, formed.listed]
      constructor
      · rintro ⟨elsewhere, before, stood, rest⟩
        exact ⟨before, (found other before).mpr ⟨elsewhere, stood⟩, rest⟩
      · rintro ⟨after, remains, rest⟩
        obtain ⟨elsewhere, stood⟩ := (found other after).mp remains
        exact ⟨elsewhere, after, stood, rest⟩

theorem purge (formed : store.WellFormed model) (row : RowId)
    (gone : ∀ record, store.records.get? row = some record → record.state.isLive = false) :
    (store.purge row).WellFormed model := by
  rw [purge_eq_forget]
  · exact formed.forget row
  · intro record held leads
    obtain ⟨own, stood, -, live⟩ := (formed.live _ _).mp leads
    cases held.symm.trans stood
    simp [gone record held] at live

theorem foldl_settleRow (formed : store.WellFormed model) (order : List RowId) :
    (order.foldl RowStore.settleRow store).WellFormed model := by
  induction order generalizing store with
  | nil => exact formed
  | cons row rest ih => exact ih (formed.settleRow row)

theorem foldl_purge (formed : store.WellFormed model) {order : List RowId} (gone : store.Gone order) :
    (order.foldl RowStore.purge store).WellFormed model := by
  induction order generalizing store with
  | nil => exact formed
  | cons row rest ih => exact ih (formed.purge row (gone row (List.mem_cons_self ..))) gone.purge

theorem acceptInOrder (formed : store.WellFormed model) (order : List RowId) :
    (store.acceptInOrder order).WellFormed model :=
  (formed.foldl_settleRow order).foldl_purge (store.gone_foldl_settleRow order)

theorem accept (formed : store.WellFormed model) : store.accept.WellFormed model :=
  formed.acceptInOrder _

end WellFormed

structure Succeeds (after before : RowStore) : Prop where
  numbers : before.nextNumber ≤ after.nextNumber
  origin : ∀ row record, after.records.get? row = some record → row.number < before.nextNumber →
    ∃ older, before.records.get? row = some older ∧ record.entity = older.entity ∧
      record.table = older.table ∧ record.identity = older.identity

namespace Succeeds

variable {before store after : RowStore}

theorem refl (store : RowStore) : store.Succeeds store :=
  ⟨Nat.le_refl _, fun _ record held _ => ⟨record, held, rfl, rfl, rfl⟩⟩

theorem trans (second : after.Succeeds store) (first : store.Succeeds before) :
    after.Succeeds before where
  numbers := Nat.le_trans first.numbers second.numbers
  origin := by
    intro row record held early
    obtain ⟨middle, stood, entity, table, identity⟩ :=
      second.origin row record held (Nat.lt_of_lt_of_le early first.numbers)
    obtain ⟨older, known, entity', table', identity'⟩ := first.origin row middle stood early
    exact ⟨older, known, entity.trans entity', table.trans table', identity.trans identity'⟩

theorem register (store : RowStore) (record : RowRecord) :
    (store.register record).2.Succeeds store where
  numbers := Nat.le_succ _
  origin := by
    intro row found held early
    rw [records_register, if_neg] at held
    · exact ⟨found, held, rfl, rfl, rfl⟩
    · intro same
      subst same
      exact Nat.lt_irrefl _ early

theorem write (store : RowStore) (row : RowId) (index : Nat) (value : Value) :
    (store.write row index value).Succeeds store where
  numbers := Nat.le_refl _
  origin := by
    intro other record held _
    rw [records_write] at held
    split at held
    · obtain ⟨older, stood, rfl⟩ := Option.map_eq_some_iff.mp held
      exact ⟨older, stood, rfl, rfl, rfl⟩
    · exact ⟨record, held, rfl, rfl, rfl⟩

theorem delete (store : RowStore) {row : RowId} {record : RowRecord}
    (held : store.records.get? row = some record) : (store.delete row record).Succeeds store where
  numbers := Nat.le_of_eq (nextNumber_delete ..).symm
  origin := by
    intro other found stands _
    rw [records_delete] at stands
    split at stands
    next here =>
      cases stands
      exact ⟨record, here ▸ held, rfl, rfl, rfl⟩
    next => exact ⟨found, stands, rfl, rfl, rfl⟩

theorem forget (store : RowStore) (row : RowId) : (store.forget row).Succeeds store where
  numbers := Nat.le_of_eq (nextNumber_forget ..).symm
  origin := by
    intro other record held _
    rw [records_forget] at held
    split at held
    · cases held
    · exact ⟨record, held, rfl, rfl, rfl⟩

theorem accept (store : RowStore) : store.accept.Succeeds store where
  numbers := Nat.le_of_eq (nextNumber_accept store).symm
  origin := by
    intro row record held _
    rw [records_accept, Option.bind_eq_some_iff] at held
    obtain ⟨older, stood, kept⟩ := held
    split at kept
    · cases kept
      have revised := older.settled_revises
      exact ⟨older, stood, revised.entity, revised.table, revised.identity⟩
    · cases kept

end Succeeds

end RowStore

end Cache

end RelationalMapper
