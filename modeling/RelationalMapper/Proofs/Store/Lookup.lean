import RelationalMapper.Cache.RowStore

set_option autoImplicit false

namespace RelationalMapper

namespace Assoc

variable {κ ν : Type} [DecidableEq κ]

theorem get?_modify (map : Assoc κ ν) (key wanted : κ) (change : ν → ν) :
    (map.modify key change).get? wanted =
      if key = wanted then (map.get? wanted).map change else map.get? wanted := by
  unfold modify
  cases held : map.get? key with
  | none => by_cases same : key = wanted <;> simp_all
  | some value =>
    rw [get?_insert]
    by_cases same : key = wanted <;> simp_all

theorem mem_entries_of_get? {map : Assoc κ ν} {key : κ} {value : ν} (held : map.get? key = some value) :
    (key, value) ∈ map.entries := by
  obtain ⟨entries⟩ := map
  simp only [get?] at held ⊢
  induction entries with
  | nil => simp [lookup] at held
  | cons entry rest ih =>
    obtain ⟨first, stored⟩ := entry
    by_cases same : first = key
    · simp_all [lookup]
    · exact List.mem_cons_of_mem _ (ih (by simpa [lookup, same] using held))

theorem mem_keys_of_get? (map : Assoc κ ν) (key : κ) (value : ν) (held : map.get? key = some value) :
    key ∈ map.keys :=
  List.mem_map_of_mem (mem_entries_of_get? held)

theorem mem_keys_insert (map : Assoc κ ν) (key wanted : κ) (value : ν) :
    wanted ∈ (map.insert key value).keys ↔ wanted = key ∨ wanted ∈ map.keys := by
  obtain ⟨entries⟩ := map
  simp only [insert, keys]
  induction entries with
  | nil => simp [replaceOrAppend]
  | cons entry rest ih =>
    by_cases same : entry.1 = key
    · simp [replaceOrAppend, same]
    · simp only [replaceOrAppend, same, if_false, List.map_cons, List.mem_cons, ih]
      exact or_left_comm

theorem nodup_keys_insert {map : Assoc κ ν} (nodup : map.keys.Nodup) (key : κ) (value : ν) :
    (map.insert key value).keys.Nodup := by
  obtain ⟨entries⟩ := map
  induction entries with
  | nil => simp [insert, keys, replaceOrAppend]
  | cons entry rest ih =>
    have among := mem_keys_insert ⟨rest⟩ key entry.1 value
    simp only [insert, keys, List.map_cons, List.nodup_cons] at nodup ih among ⊢
    by_cases same : entry.1 = key
    · simp_all [replaceOrAppend]
    · simp_all [replaceOrAppend]

theorem get?_eq_some_iff {map : Assoc κ ν} (nodup : map.keys.Nodup) {key : κ} {value : ν} :
    map.get? key = some value ↔ (key, value) ∈ map.entries := by
  obtain ⟨entries⟩ := map
  simp only [get?, keys] at nodup ⊢
  induction entries with
  | nil => simp [lookup]
  | cons entry rest ih =>
    obtain ⟨first, held⟩ := entry
    simp only [List.map_cons, List.nodup_cons] at nodup
    by_cases same : first = key
    · subst same
      have apart : (first, value) ∉ rest := fun member => nodup.1 (List.mem_map_of_mem member)
      simp [lookup, apart, eq_comm]
    · simp [lookup, same, Ne.symm same, ih nodup.2]

end Assoc

namespace Cache

namespace RowStore

variable (store : RowStore) (row other : RowId) (record : RowRecord) (identity : ObjectIdentity)
  (table : String)

theorem records_register :
    (store.register record).2.records.get? other =
      if (⟨store.nextNumber⟩ : RowId) = other then some record else store.records.get? other :=
  Assoc.get?_insert ..

theorem rows_register :
    (store.register record).2.rows table =
      if record.table = table then store.rows table ++ [⟨store.nextNumber⟩] else store.rows table := by
  simp only [register, rows, Assoc.get?_insert]
  split <;> simp_all

theorem live_register :
    (store.register record).2.live.get? identity =
      if record.identity = identity then some ⟨store.nextNumber⟩ else store.live.get? identity :=
  Assoc.get?_insert ..

theorem records_write (index : Nat) (value : Value) :
    (store.write row index value).records.get? other =
      if row = other then (store.records.get? other).map (·.write index value)
      else store.records.get? other :=
  Assoc.get?_modify ..

theorem records_settleRow :
    (store.settleRow row).records.get? other =
      if row = other then (store.records.get? other).map RowRecord.settled
      else store.records.get? other :=
  Assoc.get?_modify ..

@[simp] theorem records_dropFromTable :
    (store.dropFromTable table row).records = store.records := rfl

@[simp] theorem live_dropFromTable : (store.dropFromTable table row).live = store.live := rfl

@[simp] theorem tombstones_dropFromTable :
    (store.dropFromTable table row).tombstones = store.tombstones := rfl

@[simp] theorem nextNumber_dropFromTable :
    (store.dropFromTable table row).nextNumber = store.nextNumber := rfl

theorem rows_dropFromTable (wanted : String) :
    (store.dropFromTable table row).rows wanted =
      if table = wanted then (store.rows wanted).filter (· ≠ row) else store.rows wanted := by
  simp only [dropFromTable, rows, Assoc.get?_modify]
  split
  · cases store.byTable.get? wanted <;> simp
  · rfl

theorem records_delete :
    (store.delete row record).records.get? other =
      if row = other then some { record with state := record.deletedState }
      else store.records.get? other := by
  rw [← Assoc.get?_insert]
  by_cases gone : record.deletedState = .detached <;> simp [delete, gone]

theorem live_delete :
    (store.delete row record).live.get? identity =
      if record.identity = identity then none else store.live.get? identity := by
  rw [← Assoc.get?_erase]
  by_cases gone : record.deletedState = .detached <;> simp [delete, gone]

theorem tombstones_delete :
    (store.delete row record).tombstones.get? identity =
      if record.identity = identity then some row else store.tombstones.get? identity := by
  rw [← Assoc.get?_insert]
  by_cases gone : record.deletedState = .detached <;> simp [delete, gone]

theorem rows_delete :
    (store.delete row record).rows table =
      if record.deletedState = .detached ∧ record.table = table then
        (store.rows table).filter (· ≠ row)
      else store.rows table := by
  by_cases gone : record.deletedState = .detached
  · simp only [delete, gone, if_true, true_and]
    exact rows_dropFromTable ..
  · simp only [delete, gone, if_false, false_and]
    rfl

@[simp] theorem nextNumber_delete : (store.delete row record).nextNumber = store.nextNumber := by
  by_cases gone : record.deletedState = .detached <;> simp [delete, gone]

theorem get?_eraseIfAt (map : Assoc ObjectIdentity RowId) (wanted : ObjectIdentity) :
    (eraseIfAt map identity row).get? wanted =
      if identity = wanted ∧ map.get? wanted = some row then none else map.get? wanted := by
  unfold eraseIfAt
  by_cases here : map.get? identity = some row
  · rw [if_pos here, Assoc.get?_erase]
    by_cases same : identity = wanted <;> simp_all
  · rw [if_neg here]
    by_cases same : identity = wanted <;> simp_all

theorem records_forget :
    (store.forget row).records.get? other = if row = other then none else store.records.get? other := by
  cases held : store.records.get? row with
  | none =>
    by_cases same : row = other
    · simp [forget, held, ← same]
    · simp [forget, held, same]
  | some record =>
    simp only [forget, held, records_dropFromTable]
    exact Assoc.get?_erase ..

variable {store row record} in
theorem live_forget (held : store.records.get? row = some record) :
    (store.forget row).live.get? identity =
      if record.identity = identity ∧ store.live.get? identity = some row then none
      else store.live.get? identity := by
  simp only [forget, held, live_dropFromTable]
  exact get?_eraseIfAt ..

variable {store row record} in
theorem tombstones_forget (held : store.records.get? row = some record) :
    (store.forget row).tombstones.get? identity =
      if record.identity = identity ∧ store.tombstones.get? identity = some row then none
      else store.tombstones.get? identity := by
  simp only [forget, held, tombstones_dropFromTable]
  exact get?_eraseIfAt ..

variable {store row record} in
theorem rows_forget (held : store.records.get? row = some record) :
    (store.forget row).rows table =
      if record.table = table then (store.rows table).filter (· ≠ row) else store.rows table := by
  simp only [forget, held]
  exact rows_dropFromTable ..

-- A deleted row is not found under its identity, so that purging and forgetting are the same.
theorem purge_eq_forget
    (elsewhere : ∀ record, store.records.get? row = some record →
      store.live.get? record.identity ≠ some row) :
    store.purge row = store.forget row := by
  unfold purge forget
  split
  · rfl
  next record held => simp only [eraseIfAt, if_neg (elsewhere record held)]

@[simp] theorem nextNumber_forget : (store.forget row).nextNumber = store.nextNumber := by
  unfold forget
  split <;> rfl

theorem records_foldl_settleRow (order : List RowId) :
    (order.foldl settleRow store).records.get? other =
      if other ∈ order then (store.records.get? other).map RowRecord.settled
      else store.records.get? other := by
  induction order generalizing store with
  | nil => simp
  | cons first rest ih =>
    have twice (record : RowRecord) : record.settled.settled = record.settled := by
      cases state : record.state <;> simp [RowRecord.settled, state]
    rw [List.foldl_cons, ih, records_settleRow]
    by_cases here : first = other
    · subst here
      by_cases later : first ∈ rest <;> simp [later, Function.comp_def, twice]
    · simp [here, Ne.symm here]

theorem live_foldl_settleRow (order : List RowId) : (order.foldl settleRow store).live = store.live := by
  induction order generalizing store with
  | nil => rfl
  | cons first rest ih => exact (ih _).trans rfl

theorem records_purge :
    (store.purge row).records.get? other = if row = other then none else store.records.get? other := by
  cases held : store.records.get? row with
  | none =>
    by_cases same : row = other
    · simp [purge, held, ← same]
    · simp [purge, held, same]
  | some record =>
    simp only [purge, held, records_dropFromTable]
    exact Assoc.get?_erase ..

theorem live_purge : (store.purge row).live = store.live := by
  unfold purge
  split <;> rfl

@[simp] theorem nextNumber_purge : (store.purge row).nextNumber = store.nextNumber := by
  unfold purge
  split <;> rfl

theorem records_foldl_purge (order : List RowId) :
    (order.foldl purge store).records.get? other =
      if other ∈ order then none else store.records.get? other := by
  induction order generalizing store with
  | nil => simp
  | cons first rest ih =>
    rw [List.foldl_cons, ih, records_purge]
    by_cases here : first = other
    · simp [here]
    · simp [here, Ne.symm here]

theorem live_foldl_purge (order : List RowId) : (order.foldl purge store).live = store.live := by
  induction order generalizing store with
  | nil => rfl
  | cons first rest ih => exact (ih _).trans (live_purge ..)

theorem nextNumber_foldl_settleRow (order : List RowId) :
    (order.foldl settleRow store).nextNumber = store.nextNumber := by
  induction order generalizing store with
  | nil => rfl
  | cons first rest ih => exact (ih _).trans rfl

theorem nextNumber_foldl_purge (order : List RowId) :
    (order.foldl purge store).nextNumber = store.nextNumber := by
  induction order generalizing store with
  | nil => rfl
  | cons first rest ih => exact (ih _).trans (nextNumber_purge ..)

theorem isGone_eq :
    store.isGone row = (store.records.get? row).any fun record => !record.state.isLive := by
  unfold isGone
  congr
  funext record
  cases state : record.state <;> simp [RowState.isLive]

theorem records_acceptInOrder {order : List RowId}
    (complete : ∀ record, store.records.get? other = some record → other ∈ order) :
    (store.acceptInOrder order).records.get? other =
      (store.records.get? other).bind fun record =>
        if record.state.isLive then some record.settled else none := by
  simp only [acceptInOrder, records_foldl_purge, records_foldl_settleRow, List.mem_filter]
  cases held : store.records.get? other with
  | none => simp
  | some record =>
    have member := complete record held
    cases live : record.state.isLive <;> simp [isGone_eq, held, member, live]

theorem live_acceptInOrder (order : List RowId) : (store.acceptInOrder order).live = store.live :=
  (live_foldl_purge ..).trans (live_foldl_settleRow ..)

theorem records_accept :
    store.accept.records.get? other =
      (store.records.get? other).bind fun record =>
        if record.state.isLive then some record.settled else none :=
  records_acceptInOrder _ _ fun _ held => Assoc.mem_keys_of_get? _ _ _ held

theorem live_accept : store.accept.live = store.live :=
  live_acceptInOrder ..

@[simp] theorem nextNumber_accept : store.accept.nextNumber = store.nextNumber :=
  (nextNumber_foldl_purge ..).trans (nextNumber_foldl_settleRow ..)

end RowStore

end Cache

end RelationalMapper
