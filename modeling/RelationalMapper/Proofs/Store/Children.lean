import Mathlib.Data.List.Nodup
import RelationalMapper.Cache.ViewUpkeep
import RelationalMapper.Proofs.Store.Integrity

set_option autoImplicit false

namespace RelationalMapper.Cache

namespace RowStore

structure Extends (after before : RowStore) : Prop where
  numbers : before.nextNumber ≤ after.nextNumber
  records : ∀ row, row.number < before.nextNumber → after.records.get? row = before.records.get? row
  live : ∀ identity row, before.live.get? identity = some row → after.live.get? identity = some row

namespace Extends

variable {before store after : RowStore}

theorem refl (store : RowStore) : store.Extends store :=
  ⟨Nat.le_refl _, fun _ _ => rfl, fun _ _ found => found⟩

theorem trans (second : after.Extends store) (first : store.Extends before) :
    after.Extends before where
  numbers := Nat.le_trans first.numbers second.numbers
  records row early :=
    (second.records row (Nat.lt_of_lt_of_le early first.numbers)).trans (first.records row early)
  live identity row found := second.live identity row (first.live identity row found)

theorem register (store : RowStore) {record : RowRecord}
    (free : store.live.get? record.identity = none) : (store.register record).2.Extends store where
  numbers := Nat.le_succ _
  records := by
    intro row early
    rw [records_register, if_neg]
    intro same
    subst same
    exact Nat.lt_irrefl _ early
  live := by
    intro identity row found
    rw [live_register, if_neg]
    · exact found
    · intro same
      rw [← same, free] at found
      cases found

theorem succeeds (extended : after.Extends before) : after.Succeeds before where
  numbers := extended.numbers
  origin row record held early := ⟨record, (extended.records row early).symm.trans held, rfl, rfl, rfl⟩

end Extends

structure Lasts (after before : RowStore) : Prop where
  records : ∀ row record, before.records.get? row = some record → ∃ later,
    after.records.get? row = some later ∧ later.entity = record.entity ∧ later.table = record.table ∧
      later.identity = record.identity
  resolved : ∀ identity row, before.resolve? identity = some row → after.resolve? identity = some row
  live : ∀ identity, (before.resolve? identity).isSome → (after.live.get? identity).isSome →
    (before.live.get? identity).isSome

namespace Lasts

variable {before store after : RowStore}

theorem refl (store : RowStore) : store.Lasts store :=
  ⟨fun _ record held => ⟨record, held, rfl, rfl, rfl⟩, fun _ _ found => found, fun _ _ alive => alive⟩

theorem trans (second : after.Lasts store) (first : store.Lasts before) : after.Lasts before where
  records row record held := by
    obtain ⟨middle, stood, entity, table, identity⟩ := first.records row record held
    obtain ⟨later, stands, entity', table', identity'⟩ := second.records row middle stood
    exact ⟨later, stands, entity'.trans entity, table'.trans table, identity'.trans identity⟩
  resolved identity row found := second.resolved identity row (first.resolved identity row found)
  live identity known alive := by
    obtain ⟨row, found⟩ := Option.isSome_iff_exists.mp known
    apply first.live identity known
    apply second.live identity _ alive
    simp [first.resolved identity row found]

theorem register (store : RowStore) {record : RowRecord}
    (fresh : store.records.get? ⟨store.nextNumber⟩ = none)
    (free : store.resolve? record.identity = none) : (store.register record).2.Lasts store where
  records row held stood := by
    refine ⟨held, ?_, rfl, rfl, rfl⟩
    rw [records_register, if_neg]
    · exact stood
    · rintro rfl
      cases fresh.symm.trans stood
  resolved identity row found := by
    have apart : record.identity ≠ identity := by
      rintro rfl
      cases free.symm.trans found
    rw [resolve?, live_register, if_neg apart]
    exact found
  live identity known alive := by
    have apart : record.identity ≠ identity := by
      rintro rfl
      simp [free] at known
    simpa [live_register, apart] using alive

theorem write (store : RowStore) (row : RowId) (place : Nat) (value : Value) :
    (store.write row place value).Lasts store where
  records other record held := by
    rw [records_write]
    by_cases same : row = other <;> simp [same, held, RowRecord.write]
  resolved _ _ found := found
  live _ _ alive := alive

theorem delete {row : RowId} {record : RowRecord} (held : store.records.get? row = some record)
    (live : store.live.get? record.identity = some row) : (store.delete row record).Lasts store where
  records other found stood := by
    rw [records_delete]
    by_cases same : row = other
    · subst same
      cases held.symm.trans stood
      exact ⟨_, if_pos rfl, rfl, rfl, rfl⟩
    · exact ⟨found, by rw [if_neg same]; exact stood, rfl, rfl, rfl⟩
  resolved identity other found := by
    rw [resolve?, live_delete, tombstones_delete]
    by_cases same : record.identity = identity
    · subst same
      simpa [resolve?, live] using found
    · simpa [resolve?, same] using found
  live identity _ alive := by
    rw [live_delete] at alive
    split at alive
    · cases alive
    · exact alive

end Lasts

def IsChild (store : RowStore) (table : String) (index : Nat) (key : Value) (row : RowId)
    (identity : ObjectIdentity) : Prop :=
  ∃ record, store.records.get? row = some record ∧ record.state.isLive = true ∧
    record.table = table ∧ record.identity = identity ∧ record.current.getD index .null = key

section

variable {store : RowStore} {model : Model} {table : String} {index : Nat} {key : Value}
  {row other : RowId} {identity : ObjectIdentity} {record : RowRecord}

theorem isChild_of_record (held : store.records.get? row = some record)
    (live : record.state.isLive = true) :
    store.IsChild table index key row identity ↔
      record.table = table ∧ record.identity = identity ∧ record.current.getD index .null = key := by
  constructor
  · rintro ⟨found, stands, _, rest⟩
    cases held.symm.trans stands
    exact rest
  · intro rest
    exact ⟨record, held, live, rest⟩

theorem IsChild.identity_eq (child : store.IsChild table index key row identity)
    (held : store.records.get? row = some record) : identity = record.identity := by
  obtain ⟨found, stands, -, -, own, -⟩ := child
  cases held.symm.trans stands
  exact own.symm

theorem IsChild.row_eq (formed : store.WellFormed model)
    (child : store.IsChild table index key row identity)
    (held : store.records.get? other = some record) (live : record.state.isLive = true)
    (same : record.identity = identity) : row = other := by
  obtain ⟨found, stands, alive, -, own, -⟩ := child
  have first := formed.live_of_record stands alive
  have second := formed.live_of_record held live
  rw [own] at first
  rw [same, first] at second
  exact Option.some.inj second

theorem IsChild.resolved (formed : store.WellFormed model)
    (child : store.IsChild table index key row identity) : store.resolve? identity = some row := by
  obtain ⟨record, held, live, -, rfl, -⟩ := child
  exact formed.resolve?_of_record held live

theorem isChild_extend {after : RowStore} (extended : after.Extends store)
    (early : row.number < store.nextNumber) :
    after.IsChild table index key row identity ↔ store.IsChild table index key row identity := by
  unfold IsChild
  rw [extended.records row early]

theorem isChild_write_of_ne (place : Nat) (value : Value) (apart : row ≠ other) :
    (store.write row place value).IsChild table index key other identity ↔
      store.IsChild table index key other identity := by
  unfold IsChild
  rw [records_write, if_neg apart]

theorem isChild_write_self {place : Nat} {value : Value}
    (held : store.records.get? row = some record) (live : record.state.isLive = true) :
    (store.write row place value).IsChild table index key row identity ↔
      record.table = table ∧ record.identity = identity ∧
        (record.current.set place value).getD index .null = key := by
  have found : (store.write row place value).records.get? row = some (record.write place value) := by
    rw [records_write, if_pos rfl, held]
    rfl
  have revised := record.write_revises place value
  rw [isChild_of_record found (revised.live.trans live)]
  rfl

theorem isChild_delete :
    (store.delete row record).IsChild table index key other identity ↔
      row ≠ other ∧ store.IsChild table index key other identity := by
  unfold IsChild
  rw [records_delete]
  by_cases here : row = other
  · simp [here]
  · simp [here]

theorem isChild_accept :
    store.accept.IsChild table index key row identity ↔
      store.IsChild table index key row identity := by
  unfold IsChild
  rw [records_accept]
  constructor
  · rintro ⟨after, found, live, rest⟩
    obtain ⟨before, held, kept⟩ := Option.bind_eq_some_iff.mp found
    split at kept
    · cases kept
      have revised := before.settled_revises
      refine ⟨before, held, revised.live.symm.trans live, revised.table.symm.trans rest.1,
        revised.identity.symm.trans rest.2.1, ?_⟩
      rw [← rest.2.2]
      cases state : before.state <;> simp [RowRecord.settled, state]
    · cases kept
  · rintro ⟨before, held, live, rest⟩
    have revised := before.settled_revises
    refine ⟨before.settled, by rw [held, Option.bind_some, if_pos live], revised.live.trans live,
      revised.table.trans rest.1, revised.identity.trans rest.2.1, ?_⟩
    rw [← rest.2.2]
    cases state : before.state <;> simp [RowRecord.settled, state]

end

end RowStore

structure Mirrors (store : RowStore) (table : String) (index : Nat) (key : Value)
    (known : RowId → Prop) (members : List ObjectIdentity) : Prop where
  nodup : members.Nodup
  member : ∀ identity, identity ∈ members ↔
    ∃ row, store.IsChild table index key row identity ∧ known row

theorem nodup_joined {members : List ObjectIdentity} (nodup : members.Nodup)
    (identity : ObjectIdentity) : (joined members identity).Nodup := by
  unfold joined
  split
  · exact nodup
  next absent =>
    rw [← List.concat_eq_append]
    exact nodup.concat absent

theorem mem_joined {members : List ObjectIdentity} {identity other : ObjectIdentity} :
    other ∈ joined members identity ↔ other ∈ members ∨ other = identity := by
  unfold joined
  split
  · constructor
    · exact .inl
    · intro either
      rcases either with member | rfl <;> assumption
  · simp

namespace Mirrors

variable {store after : RowStore} {model : Model} {table : String} {index : Nat} {key : Value}
  {known known' : RowId → Prop} {members : List ObjectIdentity} {row : RowId} {record : RowRecord}

theorem unchanged (mirrors : Mirrors store table index key known members)
    (same : ∀ row identity, after.IsChild table index key row identity ∧ known' row ↔
      store.IsChild table index key row identity ∧ known row) :
    Mirrors after table index key known' members where
  nodup := mirrors.nodup
  member identity := by
    rw [mirrors.member]
    exact exists_congr fun row => (same row identity).symm

theorem resolved (formed : store.WellFormed model) (mirrors : Mirrors store table index key known members)
    (identity : ObjectIdentity) (listed : identity ∈ members) : (store.resolve? identity).isSome := by
  obtain ⟨row, child, -⟩ := (mirrors.member identity).mp listed
  rw [child.resolved formed]
  rfl

theorem extend (mirrors : Mirrors store table index key known members)
    (extended : after.Extends store) (early : ∀ row, known row → row.number < store.nextNumber) :
    Mirrors after table index key known members := by
  refine mirrors.unchanged fun row identity => ?_
  exact and_congr_left fun knows => RowStore.isChild_extend extended (early row knows)

theorem accept (mirrors : Mirrors store table index key known members) :
    Mirrors store.accept table index key known members :=
  mirrors.unchanged fun _ _ => and_congr_left fun _ => RowStore.isChild_accept

theorem delete (formed : store.WellFormed model)
    (mirrors : Mirrors store table index key known members)
    (held : store.records.get? row = some record) (live : record.state.isLive = true) :
    Mirrors (store.delete row record) table index key known (members.erase record.identity) where
  nodup := mirrors.nodup.erase _
  member identity := by
    rw [mirrors.nodup.mem_erase_iff, mirrors.member]
    constructor
    · rintro ⟨apart, other, child, knows⟩
      refine ⟨other, RowStore.isChild_delete.mpr ⟨?_, child⟩, knows⟩
      intro same
      subst same
      exact apart (child.identity_eq held)
    · rintro ⟨other, child, knows⟩
      obtain ⟨elsewhere, child⟩ := RowStore.isChild_delete.mp child
      refine ⟨?_, other, child, knows⟩
      intro same
      exact elsewhere (child.row_eq formed held live same.symm).symm

theorem delete_other (mirrors : Mirrors store table index key known members)
    (held : store.records.get? row = some record) (live : record.state.isLive = true)
    (stranger : ¬(record.table = table ∧ record.current.getD index .null = key)) :
    Mirrors (store.delete row record) table index key known members := by
  refine mirrors.unchanged fun other identity => and_congr_left fun _ => ?_
  rw [RowStore.isChild_delete]
  refine ⟨And.right, fun child => ⟨?_, child⟩⟩
  intro same
  subst same
  obtain ⟨here, -, points⟩ := (RowStore.isChild_of_record held live).mp child
  exact stranger ⟨here, points⟩

theorem write (formed : store.WellFormed model)
    (mirrors : Mirrors store table index key known members)
    (held : store.records.get? row = some record) (live : record.state.isLive = true)
    (here : record.table = table) (within : index < record.current.length) (value : Value)
    (learns : ∀ other, known' other ↔ known other ∨ other = row ∧ value = key) :
    Mirrors (store.write row index value) table index key known'
      (if value = key then joined members record.identity
        else if record.current.getD index .null = key then members.erase record.identity
        else members) := by
  have written : (record.current.set index value).getD index .null = value := by
    simp [List.getD_eq_getElem?_getD, within]
  by_cases joins : value = key
  · rw [if_pos joins]
    refine ⟨nodup_joined mirrors.nodup _, fun identity => ?_⟩
    rw [mem_joined, mirrors.member]
    constructor
    · intro given
      rcases given with ⟨other, child, knows⟩ | rfl
      · by_cases same : row = other
        · subst same
          refine ⟨row, (RowStore.isChild_write_self held live).mpr ?_, (learns row).mpr (.inl knows)⟩
          exact ⟨here, (child.identity_eq held).symm, written.trans joins⟩
        · exact ⟨other, (RowStore.isChild_write_of_ne index value same).mpr child,
            (learns other).mpr (.inl knows)⟩
      · exact ⟨row, (RowStore.isChild_write_self held live).mpr ⟨here, rfl, written.trans joins⟩,
          (learns row).mpr (.inr ⟨rfl, joins⟩)⟩
    · rintro ⟨other, child, knows⟩
      by_cases same : row = other
      · subst same
        exact .inr ((RowStore.isChild_write_self held live).mp child).2.1.symm
      · rcases (learns other).mp knows with knows | ⟨rfl, -⟩
        · exact .inl ⟨other, (RowStore.isChild_write_of_ne index value same).mp child, knows⟩
        · exact absurd rfl same
  · rw [if_neg joins]
    have knows_same (other : RowId) : known' other ↔ known other := by
      rw [learns]
      exact or_iff_left fun written => joins written.2
    have gone (identity : ObjectIdentity) :
        ¬(store.write row index value).IsChild table index key row identity := by
      intro child
      have points := ((RowStore.isChild_write_self held live).mp child).2.2
      exact joins (written.symm.trans points)
    by_cases leaves : record.current.getD index .null = key
    · rw [if_pos leaves]
      refine ⟨mirrors.nodup.erase _, fun identity => ?_⟩
      rw [mirrors.nodup.mem_erase_iff, mirrors.member]
      constructor
      · rintro ⟨apart, other, child, knows⟩
        have elsewhere : row ≠ other := by
          intro same
          subst same
          exact apart (child.identity_eq held)
        exact ⟨other, (RowStore.isChild_write_of_ne index value elsewhere).mpr child,
          (knows_same other).mpr knows⟩
      · rintro ⟨other, child, knows⟩
        have elsewhere : row ≠ other := by
          intro same
          subst same
          exact gone identity child
        have child := (RowStore.isChild_write_of_ne index value elsewhere).mp child
        refine ⟨?_, other, child, (knows_same other).mp knows⟩
        intro same
        exact elsewhere (child.row_eq formed held live same.symm).symm
    · rw [if_neg leaves]
      refine mirrors.unchanged fun other identity => ?_
      rw [knows_same]
      refine and_congr_left fun _ => ?_
      by_cases same : row = other
      · subst same
        refine ⟨fun child => absurd child (gone identity), fun child => ?_⟩
        exact absurd ((RowStore.isChild_of_record held live).mp child).2.2 leaves
      · exact RowStore.isChild_write_of_ne index value same

theorem write_other (mirrors : Mirrors store table index key known members)
    (held : store.records.get? row = some record) (live : record.state.isLive = true) {place : Nat}
    (value : Value) (elsewhere : record.table ≠ table ∨ place ≠ index ∨ ¬known row) :
    Mirrors (store.write row place value) table index key known members := by
  refine mirrors.unchanged fun other identity => and_congr_left fun knows => ?_
  by_cases same : row = other
  · subst same
    rw [RowStore.isChild_write_self held live, RowStore.isChild_of_record held live]
    rcases elsewhere with apart | apart | unknown
    · exact ⟨fun child => absurd child.1 apart, fun child => absurd child.1 apart⟩
    · simp [List.getD_eq_getElem?_getD, apart]
    · exact absurd knows unknown
  · exact RowStore.isChild_write_of_ne place value same

end Mirrors

end RelationalMapper.Cache
