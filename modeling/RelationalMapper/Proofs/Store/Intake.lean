import Mathlib.Data.List.Induction
import RelationalMapper.Proofs.Run.Step
import RelationalMapper.Proofs.Store.Children

set_option autoImplicit false

namespace RelationalMapper.Cache

/-- A stored row that can be taken in, with the identity that its key gives it. -/
structure Arrival where
  identity : ObjectIdentity
  values : List Value

namespace Arrival

def of (entity : Entity) (values : List Value) : Except Fault Arrival := do
  if values.length ≠ entity.columns.length then
    throw (.wrongWidth entity.name entity.columns.length values.length)
  return ⟨← entity.identityOf values, values⟩

def upToFault (entity : Entity) : List (List Value) → List Arrival × Option Fault
  | [] => ([], none)
  | values :: rest =>
    match of entity values with
    | .error fault => ([], some fault)
    | .ok arrival => (arrival :: (upToFault entity rest).1, (upToFault entity rest).2)

def record (entity : Entity) (arrival : Arrival) : RowRecord :=
  ⟨entity.name, entity.table, arrival.identity, arrival.values, some arrival.values, .unchanged⟩

variable {entity : Entity} {rows : List (List Value)} {arrivals : List Arrival}

theorem of_eq_ok {values : List Value} {arrival : Arrival} : of entity values = .ok arrival ↔
    values.length = entity.columns.length ∧ entity.identityOf values = .ok arrival.identity ∧
      arrival.values = values := by
  obtain ⟨identity, held⟩ := arrival
  unfold of
  by_cases width : values.length = entity.columns.length
  · cases own : entity.identityOf values with
    | error fault => simp [width, Bind.bind, Except.bind]
    | ok found => simp [width, Bind.bind, Except.bind, Pure.pure, Except.pure, eq_comm]
  · simp [width, Bind.bind, Except.bind, throw, throwThe, MonadExceptOf.throw]

theorem table_of {values : List Value} {arrival : Arrival} (read : of entity values = .ok arrival) :
    arrival.identity.table = entity.table := by
  obtain ⟨width, own, -⟩ := of_eq_ok.mp read
  exact (Entity.identityOf_eq_ok own width).table

theorem table_of_mem {arrival : Arrival} (arrived : arrival ∈ (upToFault entity rows).1) :
    arrival.identity.table = entity.table := by
  induction rows with
  | nil => cases arrived
  | cons values rest ih =>
    rw [upToFault] at arrived
    cases read : of entity values with
    | error fault =>
      rw [read] at arrived
      cases arrived
    | ok first =>
      rw [read] at arrived
      rcases List.mem_cons.mp arrived with rfl | later
      · exact table_of read
      · exact ih later

theorem upToFault_eq_none : upToFault entity rows = (arrivals, none) ↔
    rows.mapM (of entity) = .ok arrivals := by
  rw [Except.mapM_eq_ok]
  induction rows generalizing arrivals with
  | nil => simp [upToFault, eq_comm]
  | cons values rest ih =>
    rw [upToFault, List.forall₂_cons_left_iff]
    cases read : of entity values with
    | error fault => simp
    | ok arrival =>
      simp only [Prod.mk.injEq, Except.ok.injEq]
      constructor
      · rintro ⟨rfl, none⟩
        exact ⟨arrival, _, rfl, ih.mp (Prod.ext rfl none), rfl⟩
      · rintro ⟨_, later, rfl, each, rfl⟩
        rw [ih.mpr each]
        exact ⟨rfl, rfl⟩

theorem upToFault_eq_some {fault : Fault} : upToFault entity rows = (arrivals, some fault) ↔
    ∃ before values rest, rows = before ++ values :: rest ∧ before.mapM (of entity) = .ok arrivals ∧
      of entity values = .error fault := by
  simp only [Except.mapM_eq_ok]
  constructor
  · intro stopped
    induction rows generalizing arrivals with
    | nil => simp [upToFault] at stopped
    | cons values rest ih =>
      rw [upToFault] at stopped
      cases read : of entity values with
      | error fault' =>
        simp only [read, Prod.mk.injEq, Option.some.injEq] at stopped
        obtain ⟨rfl, rfl⟩ := stopped
        exact ⟨[], values, rest, rfl, .nil, read⟩
      | ok arrival =>
        simp only [read, Prod.mk.injEq] at stopped
        obtain ⟨rfl, failed⟩ := stopped
        obtain ⟨before, faulty, later, rfl, each, read'⟩ := ih (Prod.ext rfl failed)
        exact ⟨values :: before, faulty, later, rfl, .cons read each, read'⟩
  · rintro ⟨before, values, rest, rfl, each, faulty⟩
    induction each with
    | nil => simp [upToFault, faulty]
    | cons read _ ih => simp [upToFault, read, ih]

inductive Faulty (entity : Entity) (values : List Value) : Fault → Prop
  | width (wrong : values.length ≠ entity.columns.length) :
      Faulty entity values (.wrongWidth entity.name entity.columns.length values.length)
  | keyless (width : values.length = entity.columns.length) (none : entity.keyOf values = []) :
      Faulty entity values (.noPrimaryKey entity.name)
  | nullKey (width : values.length = entity.columns.length) (null : .null ∈ entity.keyOf values) :
      Faulty entity values (.nullPrimaryKey entity.name)

theorem of_eq_error {values : List Value} {fault : Fault} :
    of entity values = .error fault ↔ Faulty entity values fault := by
  have nulls : (entity.keyOf values).any Value.isNull = true ↔ .null ∈ entity.keyOf values := by
    simp [Value.isNull_iff]
  unfold of Entity.identityOf
  constructor
  · intro failed
    split at failed
    next wrong =>
      cases failed
      exact .width wrong
    next width =>
      by_cases none : (entity.keyOf values).isEmpty = true
      · rw [if_pos none] at failed
        cases failed
        exact .keyless (not_not.mp width) (List.isEmpty_iff.mp none)
      · rw [if_neg none] at failed
        by_cases null : (entity.keyOf values).any Value.isNull = true
        · rw [if_pos null] at failed
          cases failed
          exact .nullKey (not_not.mp width) (nulls.mp null)
        · rw [if_neg null] at failed
          cases failed
  · intro faulty
    cases faulty with
    | width wrong =>
      rw [if_pos wrong]
      rfl
    | keyless width none =>
      rw [if_neg (not_not.mpr width), if_pos (List.isEmpty_iff.mpr none)]
      rfl
    | nullKey width null =>
      have some : ¬(entity.keyOf values).isEmpty = true :=
        mt List.isEmpty_iff.mp (List.ne_nil_of_mem null)
      rw [if_neg (not_not.mpr width), if_neg some, if_pos (nulls.mpr null)]
      rfl

end Arrival

namespace RowStore

def enter (entity : Entity) (store : RowStore) (arrival : Arrival) : RowStore :=
  if store.resolve? arrival.identity = none then (store.register (arrival.record entity)).2 else store

def newcomers (store : RowStore) : List Arrival → List Arrival
  | [] => []
  | arrival :: rest =>
    if store.resolve? arrival.identity = none then
      arrival :: (newcomers store rest).filter (·.identity ≠ arrival.identity)
    else newcomers store rest

def registerAll (entity : Entity) (store : RowStore) (arrivals : List Arrival) : RowStore :=
  arrivals.foldl (fun store arrival => (store.register (arrival.record entity)).2) store

section

variable (store : RowStore) (entity : Entity) (arrivals : List Arrival)

theorem resolve?_register (record : RowRecord) (identity : ObjectIdentity) :
    (store.register record).2.resolve? identity =
      if record.identity = identity then some ⟨store.nextNumber⟩ else store.resolve? identity := by
  rw [resolve?, live_register]
  split <;> rfl

-- Once a row is in, those of its identity that follow are no newcomers.
theorem newcomers_register (record : RowRecord) :
    (store.register record).2.newcomers arrivals =
      (store.newcomers arrivals).filter (·.identity ≠ record.identity) := by
  induction arrivals with
  | nil => rfl
  | cons arrival rest ih =>
    simp only [newcomers, resolve?_register, ih]
    by_cases known : store.resolve? arrival.identity = none
    · by_cases same : record.identity = arrival.identity
      · rw [if_pos same, if_neg (by simp), if_pos known, List.filter_cons_of_neg (by simp [same]),
          List.filter_filter, same]
        simp
      · rw [if_neg same, if_pos known, if_pos known, List.filter_cons_of_pos (by simpa using Ne.symm same),
          List.filter_filter, List.filter_filter]
        simp only [Bool.and_comm]
    · by_cases same : record.identity = arrival.identity
      · rw [if_pos same, if_neg (by simp), if_neg known]
      · rw [if_neg same, if_neg known, if_neg known]

theorem foldl_enter :
    arrivals.foldl (enter entity) store = store.registerAll entity (store.newcomers arrivals) := by
  induction arrivals generalizing store with
  | nil => rfl
  | cons arrival rest ih =>
    rw [List.foldl_cons, ih, enter, newcomers]
    split
    · rw [newcomers_register]
      rfl
    · rfl

theorem newcomers_sublist : (store.newcomers arrivals).Sublist arrivals := by
  induction arrivals with
  | nil => exact .slnil
  | cons arrival rest ih =>
    rw [newcomers]
    split
    · exact .cons_cons _ (List.filter_sublist.trans ih)
    · exact .cons _ ih

theorem newcomers_nodup : ((store.newcomers arrivals).map (·.identity)).Nodup := by
  induction arrivals with
  | nil => exact .nil
  | cons arrival rest ih =>
    rw [newcomers]
    split
    · rw [List.map_cons, List.nodup_cons]
      refine ⟨by simp, ih.sublist (List.filter_sublist.map _)⟩
    · exact ih

theorem mem_newcomers {identity : ObjectIdentity} :
    identity ∈ (store.newcomers arrivals).map (·.identity) ↔
      identity ∈ arrivals.map (·.identity) ∧ store.resolve? identity = none := by
  induction arrivals with
  | nil => simp [newcomers]
  | cons arrival rest ih =>
    have later :
        identity ∈ ((store.newcomers rest).filter (·.identity ≠ arrival.identity)).map (·.identity) ↔
        identity ∈ (store.newcomers rest).map (·.identity) ∧ identity ≠ arrival.identity := by
      simp only [List.mem_map, List.mem_filter, decide_eq_true_eq]
      constructor
      · rintro ⟨other, ⟨member, apart⟩, rfl⟩
        exact ⟨⟨other, member, rfl⟩, apart⟩
      · rintro ⟨⟨other, member, rfl⟩, apart⟩
        exact ⟨other, ⟨member, apart⟩, rfl⟩
    rw [newcomers]
    by_cases same : identity = arrival.identity
    · subst same
      split
      next known => simp [known]
      next known => simp [ih, known]
    · split
      next => simp only [List.map_cons, List.mem_cons, same, later, ih, false_or, ne_eq, not_false_eq_true,
          and_true]
      next => simp only [List.map_cons, List.mem_cons, same, ih, false_or]

theorem tombstones_registerAll : (store.registerAll entity arrivals).tombstones = store.tombstones := by
  induction arrivals generalizing store with
  | nil => rfl
  | cons arrival rest ih => exact ih _

end

/-- What the cache has when some stored rows have arrived. Those that are new to it are there, each
identity once, and all that it had is there as it was. -/
structure TakesIn (store after : RowStore) (entity : Entity) (arrivals : List Arrival) : Prop where
  entered : after = store.registerAll entity (store.newcomers arrivals)
  inOrder : (store.newcomers arrivals).Sublist arrivals
  once : ((store.newcomers arrivals).map (·.identity)).Nodup
  new : ∀ identity, identity ∈ (store.newcomers arrivals).map (·.identity) ↔
    identity ∈ arrivals.map (·.identity) ∧
      store.live.get? identity = none ∧ store.tombstones.get? identity = none
  kept : ∀ row record, store.records.get? row = some record → after.records.get? row = some record
  live : ∀ identity row, store.live.get? identity = some row → after.live.get? identity = some row
  tombstones : after.tombstones = store.tombstones

def childAt (store : RowStore) (index : Nat) (key : Value) (row : RowId) : Option ObjectIdentity :=
  (store.records.get? row).bind fun record =>
    if record.state.isLive ∧ record.current.getD index .null = key then some record.identity else none

def childNamed (store : RowStore) (index : Nat) (key : Value) (identity : ObjectIdentity) :
    Option ObjectIdentity :=
  (store.resolve? identity).bind (store.childAt index key)

/-- The children of the key, each once: those among the identities, in their order, and then those among
the rows of the table, in the order in which these came. -/
def gathered (store : RowStore) (table : String) (index : Nat) (key : Value)
    (identities : List ObjectIdentity) : List ObjectIdentity :=
  (identities.filterMap (store.childNamed index key) ++
    (store.rows table).filterMap (store.childAt index key)).eraseDups

section

variable {store after : RowStore} {model : Model} {table : String} {index : Nat} {key : Value}
  {row : RowId} {identity : ObjectIdentity}

theorem childAt_eq_some : store.childAt index key row = some identity ↔
    ∃ record, store.records.get? row = some record ∧ record.state.isLive = true ∧
      record.identity = identity ∧ record.current.getD index .null = key := by
  simp only [childAt, Option.bind_eq_some_iff, Option.ite_none_right_eq_some, Option.some.injEq]
  constructor
  · rintro ⟨record, held, ⟨live, points⟩, own⟩
    exact ⟨record, held, live, own, points⟩
  · rintro ⟨record, held, live, own, points⟩
    exact ⟨record, held, ⟨live, points⟩, own⟩

theorem childAt_congr (same : after.records.get? row = store.records.get? row) :
    after.childAt index key row = store.childAt index key row := by
  rw [childAt, same, childAt]

theorem record_of_resolve (formed : store.WellFormed model) (found : store.resolve? identity = some row) :
    ∃ record, store.records.get? row = some record ∧ record.identity = identity ∧
      record.table = identity.table := by
  have held : ∃ record, store.records.get? row = some record ∧ record.identity = identity := by
    rcases Option.or_eq_some_iff.mp found with live | ⟨-, buried⟩
    · obtain ⟨record, held, own, -⟩ := (formed.live _ _).mp live
      exact ⟨record, held, own⟩
    · obtain ⟨record, held, own, -⟩ := formed.tombstones _ _ buried
      exact ⟨record, held, own⟩
  obtain ⟨record, held, rfl⟩ := held
  obtain ⟨entity, -, fits⟩ := formed.fits row record held
  exact ⟨record, held, rfl, fits.table.trans fits.current.table.symm⟩

theorem foldl_joined (identities : List ObjectIdentity) :
    identities.foldl joined [] = identities.eraseDups := by
  induction identities using List.reverseRecOn with
  | nil => rfl
  | append_singleton earlier last ih =>
    rw [List.foldl_append, ih, List.eraseDups_append, List.foldl_cons, List.foldl_nil, joined]
    by_cases among : last ∈ earlier
    · simp [List.mem_eraseDups, among, List.removeAll]
    · simp [List.mem_eraseDups, among, List.removeAll, List.eraseDups_cons]

theorem nodup_foldl_joined {members : List ObjectIdentity} (nodup : members.Nodup)
    (identities : List ObjectIdentity) : (identities.foldl joined members).Nodup := by
  induction identities generalizing members with
  | nil => exact nodup
  | cons identity rest ih => exact ih (nodup_joined nodup identity)

theorem nodup_gathered (store : RowStore) (table : String) (index : Nat) (key : Value)
    (identities : List ObjectIdentity) : (store.gathered table index key identities).Nodup := by
  rw [gathered, ← foldl_joined]
  exact nodup_foldl_joined .nil _

theorem mem_gathered (formed : store.WellFormed model) {identities : List ObjectIdentity}
    (stored : ∀ identity ∈ identities, identity.table = table) :
    identity ∈ store.gathered table index key identities ↔
      ∃ row, store.IsChild table index key row identity := by
  simp only [gathered, List.mem_eraseDups, List.mem_append, List.mem_filterMap, childNamed,
    Option.bind_eq_some_iff]
  constructor
  · rintro (⟨other, among, row, found, child⟩ | ⟨row, listed, child⟩)
    · obtain ⟨record, held, live, own, points⟩ := childAt_eq_some.mp child
      obtain ⟨record', held', -, here⟩ := record_of_resolve formed found
      cases held.symm.trans held'
      exact ⟨row, record, held, live, here.trans (stored other among), own, points⟩
    · obtain ⟨record, held, live, own, points⟩ := childAt_eq_some.mp child
      obtain ⟨record', held', here, -⟩ := (formed.listed table row).mp listed
      cases held.symm.trans held'
      exact ⟨row, record, held, live, here, own, points⟩
  · rintro ⟨row, record, held, live, here, own, points⟩
    have staying : record.state ≠ .detached := by
      intro detached
      rw [detached] at live
      cases live
    exact .inr ⟨row, (formed.listed table row).mpr ⟨record, held, here, staying⟩,
      childAt_eq_some.mpr ⟨record, held, live, own, points⟩⟩

end

end RowStore

namespace UnitOfWork

variable {unit : UnitOfWork} {name : String} {entity : Entity} {values : List Value}

theorem attach_of_fault (known : unit.model.entity name = .ok entity) {fault : Fault}
    (read : Arrival.of entity values = .error fault) : unit.attach name values = .error fault := by
  unfold Arrival.of at read
  simp only [attach, known, Bind.bind, Except.bind] at read ⊢
  split at read
  next narrow =>
    cases read
    rw [if_pos narrow]
    rfl
  next width =>
    rw [if_neg width]
    cases own : entity.identityOf values with
    | error other =>
      simp only [own] at read
      cases read
      rfl
    | ok identity =>
      simp only [own] at read
      cases read

theorem attach_of_arrival (known : unit.model.entity name = .ok entity) {arrival : Arrival}
    (read : Arrival.of entity values = .ok arrival) :
    ∃ row between, unit.attach name values = .ok (row, between) ∧
      between = { unit with store := unit.store.enter entity arrival } ∧
      between.store.resolve? arrival.identity = some row := by
  obtain ⟨width, own, rfl⟩ := Arrival.of_eq_ok.mp read
  cases found : unit.store.resolve? arrival.identity with
  | some row =>
    have same : unit.store.enter entity arrival = unit.store := by rw [RowStore.enter, found, if_neg nofun]
    rw [same]
    exact ⟨row, unit, attach_eq_ok.mpr ⟨entity, _, known, width, own, .inl ⟨found, rfl⟩⟩, rfl, found⟩
  | none =>
    have same : unit.store.enter entity arrival = (unit.store.register (arrival.record entity)).2 := by
      rw [RowStore.enter, if_pos found]
    rw [same]
    exact ⟨_, _, attach_eq_ok.mpr ⟨entity, _, known, width, own, .inr ⟨found, rfl, rfl⟩⟩, rfl,
      (RowStore.resolve?_register ..).trans (if_pos rfl)⟩

end UnitOfWork

end RelationalMapper.Cache
