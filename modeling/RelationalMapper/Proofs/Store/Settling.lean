import Mathlib.Data.List.Nodup
import RelationalMapper.Proofs.Store.Integrity

set_option autoImplicit false

namespace RelationalMapper

namespace Assoc

variable {κ ν : Type} [DecidableEq κ] {map first second : Assoc κ ν} {key : κ}

theorem keys_modify (map : Assoc κ ν) (key : κ) (change : ν → ν) : (map.modify key change).keys = map.keys := by
  have replaced (value : ν) {entries : List (κ × ν)} {held : ν} (found : lookup entries key = some held) :
      (replaceOrAppend key value entries).map (·.1) = entries.map (·.1) := by
    induction entries with
    | nil => cases found
    | cons entry rest ih =>
      by_cases same : entry.1 = key
      · simp [replaceOrAppend, same]
      · simpa [replaceOrAppend, same] using ih (by simpa [lookup, same] using found)
  unfold modify
  split
  next held => exact replaced _ held
  next => rfl

theorem keys_erase (map : Assoc κ ν) (key : κ) : (map.erase key).keys = map.keys.filter (· ≠ key) := by
  simp [erase, keys, List.filter_map, Function.comp_def]

theorem nodup_keys_modify (nodup : map.keys.Nodup) (key : κ) (change : ν → ν) :
    (map.modify key change).keys.Nodup := by
  rwa [keys_modify]

theorem nodup_keys_erase (nodup : map.keys.Nodup) (key : κ) : (map.erase key).keys.Nodup := by
  rw [keys_erase]
  exact nodup.filter _

theorem get?_eq_none_iff : map.get? key = none ↔ key ∉ map.keys := by
  obtain ⟨entries⟩ := map
  simp only [get?, keys]
  induction entries with
  | nil => simp [lookup]
  | cons entry rest ih =>
    by_cases same : entry.1 = key
    · simp [lookup, same]
    · simpa [lookup, same, Ne.symm same] using ih

theorem eq_empty (nothing : ∀ key, map.get? key = none) : map = empty := by
  obtain ⟨entries⟩ := map
  cases entries with
  | nil => rfl
  | cons entry rest =>
    have found := nothing entry.1
    simp [get?, lookup] at found

theorem entries_eq (nodup : map.keys.Nodup) :
    map.entries.map (fun entry => (entry.1, some entry.2)) =
      map.keys.map fun key => (key, map.get? key) := by
  rw [keys, List.map_map]
  refine List.map_congr_left fun entry member => ?_
  rw [Function.comp_apply, (get?_eq_some_iff nodup).mpr member]

theorem ext_keys (nodup : first.keys.Nodup) (keys : second.keys = first.keys)
    (found : ∀ key, first.get? key = second.get? key) : first = second := by
  have paired : first.entries.map (fun entry => (entry.1, some entry.2)) =
      second.entries.map fun entry => (entry.1, some entry.2) := by
    rw [entries_eq nodup, entries_eq (keys ▸ nodup), keys]
    exact List.map_congr_left fun key _ => by rw [found]
  have injective : Function.Injective fun entry : κ × ν => (entry.1, some entry.2) := by
    intro left right same
    simpa [Prod.ext_iff] using same
  exact congrArg Assoc.mk (List.map_injective_iff.mpr injective paired)

end Assoc

namespace Cache

namespace RowRecord

def asStored (record : RowRecord) : RowRecord :=
  { record with original := some record.current, state := .unchanged }

@[simp] theorem isLive_asStored (record : RowRecord) : record.asStored.state.isLive = true := rfl

@[simp] theorem asStored_asStored (record : RowRecord) : record.asStored.asStored = record.asStored := rfl

theorem Fits.settled_eq {record : RowRecord} {entity : Entity} (fits : record.Fits entity)
    (live : record.state.isLive = true) : record.settled = record.asStored := by
  have unchanged := fits.unchanged
  obtain ⟨name, table, identity, current, original, state⟩ := record
  cases state <;> simp_all [RowRecord.settled, asStored, RowState.isLive]

end RowRecord

namespace RowStore

structure Keyed (store : RowStore) : Prop where
  records : store.records.keys.Nodup
  byTable : store.byTable.keys.Nodup

namespace Keyed

variable {store : RowStore} {row : RowId} {record : RowRecord}

theorem empty : RowStore.empty.Keyed :=
  ⟨List.nodup_nil, List.nodup_nil⟩

theorem register (keyed : store.Keyed) (record : RowRecord) : (store.register record).2.Keyed :=
  ⟨Assoc.nodup_keys_insert keyed.records .., Assoc.nodup_keys_insert keyed.byTable ..⟩

theorem write (keyed : store.Keyed) (row : RowId) (index : Nat) (value : Value) :
    (store.write row index value).Keyed :=
  ⟨Assoc.nodup_keys_modify keyed.records .., keyed.byTable⟩

theorem settleRow (keyed : store.Keyed) (row : RowId) : (store.settleRow row).Keyed :=
  ⟨Assoc.nodup_keys_modify keyed.records .., keyed.byTable⟩

theorem dropFromTable (keyed : store.Keyed) (table : String) (row : RowId) :
    (store.dropFromTable table row).Keyed :=
  ⟨keyed.records, Assoc.nodup_keys_modify keyed.byTable ..⟩

theorem delete (keyed : store.Keyed) (row : RowId) (record : RowRecord) :
    (store.delete row record).Keyed := by
  have records := Assoc.nodup_keys_insert keyed.records row { record with state := record.deletedState }
  unfold RowStore.delete
  dsimp only
  split
  · refine dropFromTable ?_ record.table row
    exact ⟨records, keyed.byTable⟩
  · exact ⟨records, keyed.byTable⟩

theorem forget (keyed : store.Keyed) (row : RowId) : (store.forget row).Keyed := by
  unfold RowStore.forget
  split
  · exact keyed
  next record held =>
    refine dropFromTable ?_ record.table row
    exact ⟨Assoc.nodup_keys_erase keyed.records row, keyed.byTable⟩

theorem purge (keyed : store.Keyed) (row : RowId) : (store.purge row).Keyed := by
  unfold RowStore.purge
  split
  · exact keyed
  next record held =>
    refine dropFromTable ?_ record.table row
    exact ⟨Assoc.nodup_keys_erase keyed.records row, keyed.byTable⟩

theorem acceptInOrder (keyed : store.Keyed) (order : List RowId) : (store.acceptInOrder order).Keyed :=
  List.foldlRecOn _ _ (List.foldlRecOn _ _ keyed fun _ keyed row _ => keyed.settleRow row)
    fun _ keyed row _ => keyed.purge row

end Keyed

/-- The order goes once through every row that has a record. -/
structure Iterates (store : RowStore) (order : List RowId) : Prop where
  once : order.Nodup
  tracked : ∀ row, row ∈ order ↔ ∃ record, store.records.get? row = some record

theorem Keyed.iterates {store : RowStore} (keyed : store.Keyed) : store.Iterates store.records.keys where
  once := keyed.records
  tracked row := by
    rw [← Option.ne_none_iff_exists', ne_eq, Assoc.get?_eq_none_iff, not_not]

structure Purges (after before : RowStore) (rows : List RowId) : Prop where
  records : after.records.keys = before.records.keys.filter (· ∉ rows)
  tables : after.byTable.keys = before.byTable.keys
  byTable : ∀ table,
    after.byTable.get? table = (before.byTable.get? table).map (·.filter (· ∉ rows))
  tombstones : ∀ identity,
    after.tombstones.get? identity = (before.tombstones.get? identity).filter (· ∉ rows)
  nextNumber : after.nextNumber = before.nextNumber

theorem Purges.trans {before store after : RowStore} {done rest : List RowId}
    (second : after.Purges store rest) (first : store.Purges before done) :
    after.Purges before (done ++ rest) where
  records := by
    rw [second.records, first.records, List.filter_filter]
    simp [Bool.and_comm]
  tables := second.tables.trans first.tables
  byTable table := by
    rw [second.byTable, first.byTable, Option.map_map]
    simp [Function.comp_def, List.filter_filter, Bool.and_comm]
  tombstones identity := by
    rw [second.tombstones, first.tombstones, Option.filter_filter]
    simp
  nextNumber := second.nextNumber.trans first.nextNumber

section

variable {store : RowStore} {model : Model} {row : RowId}

theorem WellFormed.record_of_member (formed : store.WellFormed model) {table : String} {rows : List RowId}
    (found : store.byTable.get? table = some rows) (member : row ∈ rows) :
    ∃ record, store.records.get? row = some record ∧ record.table = table ∧ record.state ≠ .detached :=
  (formed.listed table row).mp (by simpa [RowStore.rows, found] using member)

theorem purge_untracked (untracked : store.records.get? row = none) : store.purge row = store := by
  simp [purge, untracked]

theorem filter_absent {rows : List RowId} (absent : row ∉ rows) : rows.filter (· ∉ [row]) = rows := by
  refine List.filter_eq_self.mpr fun other member => ?_
  have apart : other ≠ row := fun same => absent (same ▸ member)
  simpa using apart

theorem byTable_absent {table : String}
    (absent : ∀ rows, store.byTable.get? table = some rows → row ∉ rows) :
    store.byTable.get? table = (store.byTable.get? table).map (·.filter (· ∉ [row])) := by
  cases found : store.byTable.get? table with
  | none => rfl
  | some rows => rw [Option.map_some, filter_absent (absent rows found)]

theorem keys_purge (store : RowStore) (row : RowId) :
    (store.purge row).records.keys = store.records.keys.filter (· ∉ [row]) := by
  cases held : store.records.get? row with
  | none => rw [purge_untracked held, filter_absent (Assoc.get?_eq_none_iff.mp held)]
  | some record => simp [purge, held, Assoc.keys_erase]

theorem tables_purge (store : RowStore) (row : RowId) :
    (store.purge row).byTable.keys = store.byTable.keys := by
  unfold purge
  split
  · rfl
  · exact Assoc.keys_modify ..

theorem WellFormed.byTable_purge (formed : store.WellFormed model) (row : RowId) (table : String) :
    (store.purge row).byTable.get? table =
      (store.byTable.get? table).map (·.filter (· ∉ [row])) := by
  cases held : store.records.get? row with
  | none =>
    rw [purge_untracked held]
    refine byTable_absent fun rows found member => ?_
    obtain ⟨record, tracked, -⟩ := formed.record_of_member found member
    cases held.symm.trans tracked
  | some record =>
    simp only [RowStore.purge, held, dropFromTable, Assoc.get?_modify]
    split
    next => simp
    next elsewhere =>
      refine byTable_absent fun rows found member => ?_
      obtain ⟨own, tracked, here, -⟩ := formed.record_of_member found member
      cases held.symm.trans tracked
      exact elsewhere here

theorem WellFormed.tombstones_purge (formed : store.WellFormed model) (row : RowId)
    (identity : ObjectIdentity) :
    (store.purge row).tombstones.get? identity =
      (store.tombstones.get? identity).filter (· ∉ [row]) := by
  cases buried : store.tombstones.get? identity with
  | none =>
    cases held : store.records.get? row with
    | none => simp [purge_untracked held, buried]
    | some record => simp [RowStore.purge, held, get?_eraseIfAt, buried]
  | some other =>
    obtain ⟨own, tracked, same, -⟩ := formed.tombstones identity other buried
    cases held : store.records.get? row with
    | none =>
      have apart : other ≠ row := by
        rintro rfl
        cases held.symm.trans tracked
      simp [purge_untracked held, buried, Option.filter_some, apart]
    | some record =>
      by_cases here : other = row
      · subst here
        cases held.symm.trans tracked
        simp [RowStore.purge, held, get?_eraseIfAt, buried, same, Option.filter_some]
      · simp [RowStore.purge, held, get?_eraseIfAt, buried, here, Option.filter_some]

theorem WellFormed.purges (formed : store.WellFormed model) {order : List RowId}
    (gone : store.Gone order) : (order.foldl RowStore.purge store).Purges store order := by
  induction order generalizing store with
  | nil =>
    refine ⟨by simp, rfl, by simp, fun identity => ?_, rfl⟩
    rw [List.foldl_nil]
    cases store.tombstones.get? identity <;> simp [Option.filter]
  | cons row rest ih =>
    have first : (store.purge row).Purges store [row] :=
      ⟨keys_purge store row, tables_purge store row, formed.byTable_purge row,
        formed.tombstones_purge row, nextNumber_purge ..⟩
    have formed' := formed.purge row (gone row (List.mem_cons_self ..))
    exact (ih formed' gone.purge).trans first

end

theorem foldl_settleRow_eq (store : RowStore) (order : List RowId) :
    order.foldl settleRow store =
      { store with records := order.foldl (·.modify · RowRecord.settled) store.records } := by
  induction order generalizing store with
  | nil => rfl
  | cons row rest ih => exact ih _

theorem keys_foldl_modify (records : Assoc RowId RowRecord) (order : List RowId) :
    (order.foldl (·.modify · RowRecord.settled) records).keys = records.keys := by
  induction order generalizing records with
  | nil => rfl
  | cons row rest ih => exact (ih _).trans (Assoc.keys_modify ..)

/-- All live rows are stored with the values that they have, in the order in which they stood, and there
is nothing else. -/
structure Settled (after before : RowStore) : Prop where
  records : ∀ row, after.records.get? row = (before.records.get? row).bind fun record =>
    if record.state.isLive then some record.asStored else none
  order : after.records.keys = before.records.keys.filter fun row => (before.state row).isLive
  byTable : ∀ table, after.byTable.get? table =
    (before.byTable.get? table).map (·.filter fun row => (before.state row).isLive)
  tables : after.byTable.keys = before.byTable.keys
  live : after.live = before.live
  tombstones : after.tombstones = .empty
  nextNumber : after.nextNumber = before.nextNumber

theorem WellFormed.settled {store : RowStore} {model : Model} (formed : store.WellFormed model)
    {order : List RowId} (iterates : store.Iterates order) : (store.acceptInOrder order).Settled store := by
  have purges : (store.acceptInOrder order).Purges (order.foldl RowStore.settleRow store)
      (order.filter store.isGone) :=
    (formed.foldl_settleRow order).purges (store.gone_foldl_settleRow order)
  rw [foldl_settleRow_eq] at purges
  -- Of the rows that have a record, all but the live ones are purged.
  have kept {row : RowId} {record : RowRecord} (held : store.records.get? row = some record) :
      decide (row ∉ order.filter store.isGone) = (store.state row).isLive := by
    have listed := (iterates.tracked row).mpr ⟨record, held⟩
    cases live : record.state.isLive <;> simp [List.mem_filter, listed, isGone_eq, held, state, live]
  constructor
  case records =>
    intro row
    rw [records_acceptInOrder store row fun record held => (iterates.tracked row).mpr ⟨record, held⟩]
    refine Option.bind_congr fun record held => ?_
    obtain ⟨entity, -, fits⟩ := formed.fits row record held
    split
    next live => rw [fits.settled_eq live]
    next => rfl
  case order =>
    rw [purges.records, keys_foldl_modify]
    refine List.filter_congr fun row member => ?_
    obtain ⟨record, held⟩ :=
      Option.ne_none_iff_exists'.mp fun none => Assoc.get?_eq_none_iff.mp none member
    exact kept held
  case byTable =>
    intro table
    rw [purges.byTable]
    refine Option.map_congr fun rows found => List.filter_congr fun row member => ?_
    obtain ⟨record, held, -⟩ := formed.record_of_member found member
    exact kept held
  case tombstones =>
    refine Assoc.eq_empty fun identity => ?_
    rw [purges.tombstones]
    refine Option.filter_eq_none_iff.mpr fun row buried => ?_
    obtain ⟨record, held, -, dead⟩ := formed.tombstones identity row buried
    rw [kept held, state, held]
    simp [dead]
  case tables => exact purges.tables
  case live => exact live_acceptInOrder ..
  case nextNumber => exact purges.nextNumber

namespace Settled

variable {before after other : RowStore}

theorem rows (settled : after.Settled before) (table : String) :
    after.rows table = (before.rows table).filter fun row => (before.state row).isLive := by
  simp only [RowStore.rows, settled.byTable]
  cases before.byTable.get? table <;> rfl

theorem isLive_state (settled : after.Settled before) (row : RowId) :
    (after.state row).isLive = (before.state row).isLive := by
  rw [state, state, settled.records]
  cases before.records.get? row with
  | none => rfl
  | some record =>
    cases live : record.state.isLive with
    | true => simp [live]
    | false =>
      simp only [Option.bind_some, live]
      exact live.symm

-- There is nothing that could still differ.
theorem unique (settled : after.Settled before) (same : other.Settled before) (keyed : before.Keyed) :
    after = other := by
  have records : after.records = other.records := by
    refine Assoc.ext_keys ?_ (same.order.trans settled.order.symm) fun row => ?_
    · rw [settled.order]
      exact keyed.records.filter _
    · rw [settled.records, same.records]
  have byTable : after.byTable = other.byTable := by
    refine Assoc.ext_keys ?_ (same.tables.trans settled.tables.symm) fun table => ?_
    · rw [settled.tables]
      exact keyed.byTable
    · rw [settled.byTable, same.byTable]
  have live := settled.live.trans same.live.symm
  have tombstones := settled.tombstones.trans same.tombstones.symm
  have nextNumber := settled.nextNumber.trans same.nextNumber.symm
  cases after
  cases other
  simp_all

theorem again (settled : after.Settled before) : after.Settled after where
  records row := by
    rw [settled.records]
    cases before.records.get? row with
    | none => rfl
    | some record => cases live : record.state.isLive <;> simp [live]
  order := by
    simp only [settled.isLive_state]
    rw [settled.order, List.filter_filter]
    simp
  byTable table := by
    simp only [settled.isLive_state]
    rw [settled.byTable, Option.map_map]
    simp [Function.comp_def, List.filter_filter]
  tables := rfl
  live := rfl
  tombstones := settled.tombstones
  nextNumber := rfl

end Settled

theorem WellFormed.accept_eq {store : RowStore} {model : Model} (formed : store.WellFormed model)
    (keyed : store.Keyed) {order : List RowId} (iterates : store.Iterates order) :
    store.acceptInOrder order = store.accept :=
  (formed.settled iterates).unique (formed.settled keyed.iterates) keyed

theorem WellFormed.accept_twice {store : RowStore} {model : Model} (formed : store.WellFormed model)
    (keyed : store.Keyed) {order : List RowId} (iterates : store.accept.Iterates order) :
    store.accept.acceptInOrder order = store.accept :=
  (formed.accept.settled iterates).unique (formed.settled keyed.iterates).again (keyed.acceptInOrder _)

end RowStore

end Cache

end RelationalMapper
