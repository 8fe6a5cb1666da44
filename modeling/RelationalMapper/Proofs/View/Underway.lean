import RelationalMapper.Proofs.View.Quiet

set_option autoImplicit false

namespace RelationalMapper.Cache

variable {σ : Type}

structure RowRecord.Underway (record : RowRecord) (entity : Entity) (identity : ObjectIdentity)
    (written : List String) : Prop where
  belongs : record.entity = entity.name
  table : record.table = entity.table
  identified : record.identity = identity
  blank : ∀ column place, entity.columnIndex column = .ok place →
    (entity.columns[place]?).any (·.primaryKey) = false → column ∉ written →
    record.current.getD place .null = .null

namespace RowRecord.Underway

variable {record : RowRecord} {entity : Entity} {identity : ObjectIdentity} {written : List String}

theorem beginning (entity : Entity) (identity : ObjectIdentity) (arranged : List Value) :
    (UnitOfWork.beginning entity identity arranged).Underway entity identity [] where
  belongs := rfl
  table := rfl
  identified := rfl
  blank column place _ outside _ := by
    rw [UnitOfWork.beginning, UnitOfWork.keyValues, List.getD_eq_getElem?_getD, List.getElem?_map]
    cases here : (entity.columns.zip arranged)[place]? with
    | none => rfl
    | some entry =>
      have listed := (List.getElem?_zip_eq_some.mp here).1
      rw [listed] at outside
      simp_all

theorem write (underway : record.Underway entity identity written) {column : String} {place : Nat}
    (placed : entity.columnIndex column = .ok place) (value : Value) :
    (record.write place value).Underway entity identity (column :: written) where
  belongs := underway.belongs
  table := underway.table
  identified := underway.identified
  blank other place' placed' outside unwritten := by
    obtain ⟨apart, unwritten⟩ := not_or.mp (mt List.mem_cons.mpr unwritten)
    have elsewhere := Entity.columnIndex_ne placed placed' (Ne.symm apart)
    have before := underway.blank other place' placed' outside unwritten
    rw [List.getD_eq_getElem?_getD] at before ⊢
    rw [RowRecord.write, List.getElem?_set_ne elsewhere]
    exact before

end RowRecord.Underway

namespace UnitOfWork

variable {unit : UnitOfWork} {view : RelationView} {record : RowRecord} {key : Value}
  {members : List ObjectIdentity} {calls : Callbacks σ} {row : RowId} {column : String} {value : Value}
  {change : ColumnChange} {place : Nat}

def Enters (view : RelationView) (owner : Except Fault (Option Value)) (identity : ObjectIdentity)
    (values : List (String × Value)) : Prop :=
  ∃ key, owner = .ok (some key) ∧ (view.relation.childKey, key) ∈ values ∧ identity.key ≠ [key]

theorem enters_cons {owner : Except Fault (Option Value)} {identity : ObjectIdentity}
    {entry : String × Value} {rest : List (String × Value)} :
    Enters view owner identity (entry :: rest) ↔
      Enters view owner identity [entry] ∨ Enters view owner identity rest := by
  simp only [Enters, ← exists_or, List.mem_cons, List.not_mem_nil, or_false]
  exact exists_congr fun key => by tauto

def TakenIn (members : List ObjectIdentity) (identity : ObjectIdentity) (entered : Prop)
    (after : List ObjectIdentity) : Prop :=
  entered ∧ after = joined members identity ∨ ¬entered ∧ after = members

theorem TakenIn.congr {identity : ObjectIdentity} {entered entered' : Prop}
    {after : List ObjectIdentity} (taken : TakenIn members identity entered after)
    (same : entered ↔ entered') : TakenIn members identity entered' after := by
  rwa [TakenIn, ← same]

theorem TakenIn.eq_ite {identity : ObjectIdentity} {entered : Prop} [Decidable entered]
    {others : List ObjectIdentity} (taken : TakenIn members identity entered others) :
    others = if entered then joined members identity else members := by
  rcases taken with ⟨entered, rfl⟩ | ⟨outside, rfl⟩
  · rw [if_pos entered]
  · rw [if_neg outside]

theorem TakenIn.mem_iff {identity : ObjectIdentity} {entered : Prop} {others : List ObjectIdentity}
    (taken : TakenIn members identity entered others) :
    identity ∈ others ↔ identity ∈ members ∨ entered := by
  rcases taken with ⟨entered, rfl⟩ | ⟨outside, rfl⟩
  · simp [mem_joined, entered]
  · simp [outside]

theorem TakenIn.trans {identity : ObjectIdentity} {first second : Prop}
    {between after : List ObjectIdentity} (one : TakenIn members identity first between)
    (two : TakenIn between identity second after) : TakenIn members identity (first ∨ second) after := by
  rcases one with ⟨entered, rfl⟩ | ⟨outside, rfl⟩
  · refine .inl ⟨.inl entered, ?_⟩
    rcases two with ⟨-, rfl⟩ | ⟨-, rfl⟩
    · exact joined_joined members identity
    · rfl
  · exact TakenIn.congr two (or_iff_right outside).symm

theorem TakenIn.iterate_erase_ne {identity : ObjectIdentity} {entered : Prop}
    {after : List ObjectIdentity} (taken : TakenIn members identity entered after) (count : Nat) :
    (List.erase · identity)^[count] after ≠ members ↔
      identity ∉ members ∧ entered ∧ count = 0 ∨ identity ∈ members ∧ count ≠ 0 := by
  by_cases member : identity ∈ members
  · have same : after = members := by
      rcases taken with ⟨-, rfl⟩ | ⟨-, rfl⟩
      · rw [joined, if_pos member]
      · rfl
    rw [same, Cache.iterate_erase_ne]
    simp [member]
  · rcases taken with ⟨entered, rfl⟩ | ⟨outside, rfl⟩
    · rw [joined, if_neg member]
      cases count with
      | zero => simp [member, entered]
      | succ count =>
        have back : (members ++ [identity]).erase identity = members := by
          rw [List.erase_append_right _ member, List.erase_cons_head, List.append_nil]
        rw [Function.iterate_succ_apply, back, iterate_erase_of_notMem member]
        simp [member]
    · rw [iterate_erase_of_notMem member]
      simp [member, outside]

-- A row that does not point at the key yet can only enter.
theorem takenIn_membersHearing {change : ColumnChange} (elsewhere : change.current ≠ key)
    (identity : ObjectIdentity) (count : Nat) :
    TakenIn members identity
      ((change.column = view.relation.childKey ∧ change.proposed = key ∧
        ¬unit.SelfReferring change identity) ∧ count ≠ 0)
      ((unit.membersHearing view key change identity)^[count] members) := by
  by_cases enters : change.column = view.relation.childKey ∧ change.proposed = key ∧
      ¬unit.SelfReferring change identity
  · obtain ⟨foreign, joins, apart⟩ := enters
    have hears : unit.membersHearing view key change identity = (joined · identity) := by
      funext others
      rw [membersHearing, if_neg (not_or.mpr ⟨not_not.mpr foreign, apart⟩), if_pos joins]
    rw [hears, iterate_joined]
    by_cases never : count = 0
    · exact .inr ⟨fun told => told.2 never, if_pos never⟩
    · exact .inl ⟨⟨⟨foreign, joins, apart⟩, never⟩, if_neg never⟩
  · have still : unit.membersHearing view key change identity members = members := by
      rw [membersHearing]
      by_cases unconcerned : change.column ≠ view.relation.childKey ∨ unit.SelfReferring change identity
      · rw [if_pos unconcerned]
      · obtain ⟨foreign, apart⟩ := not_or.mp unconcerned
        have outside : change.proposed ≠ key := fun joins => enters ⟨not_not.mp foreign, joins, apart⟩
        rw [if_neg unconcerned, if_neg outside, if_neg elsewhere]
    exact .inr ⟨fun told => enters told.1, Function.iterate_fixed still count⟩

structure Underway (now : UnitOfWork) (row : RowId) (entity : Entity) (identity : ObjectIdentity)
    (written : List String) (id : ViewId) (view : RelationView)
    (owner : Except Fault (Option Value)) (members : List ObjectIdentity) : Prop where
  held : ∃ record, now.store.records.get? row = some record ∧
    record.Underway entity identity written
  known : now.model.entity entity.name = .ok entity
  live : now.store.live.get? identity = some row
  inserting : now.inserting = some row
  owned : now.ownerKey view = owner
  apart : now.store.live.get? view.owner ≠ some row
  found : now.views.get? id = some (view.withMembers members)
  loaded : view.members?.isSome

namespace Underway

variable {now after : UnitOfWork} {entity : Entity} {identity : ObjectIdentity}
  {written : List String} {id : ViewId} {owner : Except Fault (Option Value)}
  {values : List (String × Value)}

theorem asked (underway : now.Underway row entity identity written id view owner members)
    (asked : now.changeOf row column value = .ok (change, place)) : ∃ record,
      now.store.records.get? row = some record ∧ record.Underway entity identity written ∧
        entity.columnIndex column = .ok place ∧
        (entity.columns[place]?).any (·.primaryKey) = false ∧
        change = ⟨row, record.table, column, value, record.current.getD place .null⟩ := by
  obtain ⟨record, held, blank⟩ := underway.held
  obtain ⟨stood, found, same, -, known, placed, outside, built⟩ := changeOf_eq_ok.mp asked
  cases held.symm.trans same
  rw [blank.belongs] at known
  cases underway.known.symm.trans known
  exact ⟨record, held, blank, placed, outside, built⟩

theorem afterChange (underway : now.Underway row entity identity written id view owner members)
    (asked : now.changeOf row column value = .ok (change, place)) (fresh : column ∉ written)
    (count : Nat) : ∃ others,
      TakenIn members identity (Enters view owner identity [(column, value)] ∧ count ≠ 0) others ∧
      (now.afterChange change)^[count] (view.withMembers members) = view.withMembers others := by
  obtain ⟨record, held, blank, placed, outside, rfl⟩ := underway.asked asked
  have empty := blank.blank column place placed outside fresh
  obtain ⟨older, stood⟩ := Option.isSome_iff_exists.mp underway.loaded
  have loaded := RelationView.members?_of_loaded stood members
  by_cases owned : ∃ key, owner = .ok (some key)
  · obtain ⟨key, rfl⟩ := owned
    have owned : now.ownerKey (view.withMembers members) = .ok (some key) := by
      simpa using underway.owned
    rw [iterate_afterChange owned held loaded, RelationView.withMembers_withMembers, blank.identified]
    refine ⟨_, (takenIn_membersHearing ?_ _ _).congr (and_congr_left fun _ => ?_), rfl⟩
    · rw [empty]
      exact (ownerKey_present owned).symm
    · rw [RelationView.relation_withMembers, SelfReferring, underway.inserting, and_iff_right rfl]
      simp only [Enters, List.mem_singleton, Prod.mk.injEq]
      constructor
      · rintro ⟨foreign, joins, apart⟩
        subst joins
        exact ⟨value, rfl, ⟨foreign.symm, rfl⟩, apart⟩
      · rintro ⟨other, same, ⟨foreign, joins⟩, apart⟩
        cases same
        subst joins
        exact ⟨foreign.symm, rfl, apart⟩
  · have unowned (key : Value) : now.ownerKey (view.withMembers members) ≠ .ok (some key) := by
      intro found
      rw [ownerKey_withMembers, underway.owned] at found
      exact owned ⟨key, found⟩
    refine ⟨members, .inr ⟨?_, rfl⟩, Function.iterate_fixed (afterChange_of_unowned unowned _) count⟩
    rintro ⟨⟨key, found, _⟩, _⟩
    exact owned ⟨key, found⟩

theorem told (underway : now.Underway row entity identity written id view owner members)
    (asked : now.changeOf row column value = .ok (change, place)) (fresh : column ∉ written)
    (heard : List Subscriber) : ∃ others,
      TakenIn members identity (Enters view owner identity [(column, value)] ∧ .view id ∈ heard) others ∧
      (now.toldOfChange change heard).Underway row entity identity written id view owner others := by
  obtain ⟨others, taken, patched⟩ := underway.afterChange asked fresh (heard.count (.view id))
  refine ⟨others, taken.congr (and_congr_right fun _ => ?_), { underway with found := ?_ }⟩
  · rw [Nat.ne_zero_iff_zero_lt, List.count_pos_iff]
  · change (tellViews _ heard now.views).get? id = _
    rw [get?_tellViews, underway.found, Option.map_some, patched]

theorem write (underway : now.Underway row entity identity written id view owner members)
    (placed : entity.columnIndex column = .ok place) (value : Value) :
    UnitOfWork.Underway { now with store := now.store.write row place value } row entity identity
      (column :: written) id view owner members := by
  refine { underway with held := ?_, owned := ?_ }
  · obtain ⟨record, held, blank⟩ := underway.held
    refine ⟨record.write place value, ?_, blank.write placed value⟩
    rw [RowStore.records_write, if_pos rfl, held]
    rfl
  · rw [← underway.owned]
    refine ownerKey_congr rfl rfl fun other found => ?_
    have elsewhere : row ≠ other := by
      intro same
      exact underway.apart (same ▸ found)
    exact (RowStore.records_write ..).trans (if_neg elsewhere)

theorem changed (underway : now.Underway row entity identity written id view owner members)
    (asked : now.changeOf row column value = .ok (change, place)) (fresh : column ∉ written) :
    ∃ others, TakenIn members identity (Enters view owner identity [(column, value)] ∧
        .view id ∈ now.channels.subscribers .columnChanging entity.table) others ∧
      (now.changed change place).Underway row entity identity (column :: written) id view owner
        others := by
  obtain ⟨record, held, blank, placed, -, built⟩ := underway.asked asked
  obtain ⟨others, taken, ready⟩ :=
    underway.told asked fresh (now.channels.subscribers .columnChanging change.table)
  subst built
  refine ⟨others, ?_, ready.write placed value⟩
  rw [← blank.table]
  exact taken

theorem onward (wrote : Written row values now after)
    (underway : now.Underway row entity identity written id view owner members)
    (once : (values.map (·.1)).Nodup) (fresh : ∀ entry ∈ values, entry.1 ∉ written) :
    ∃ others, TakenIn members identity (Enters view owner identity values ∧
        .view id ∈ now.channels.subscribers .columnChanging entity.table) others ∧
      after.Underway row entity identity ((values.map (·.1)).reverse ++ written) id view owner others ∧
      after.channels = now.channels := by
  induction wrote generalizing written members with
  | nil unit =>
    refine ⟨members, .inr ⟨?_, rfl⟩, underway, rfl⟩
    rintro ⟨⟨key, _, listed, _⟩, _⟩
    cases listed
  | @cons column value rest now after change place asked later ih =>
    obtain ⟨single, once⟩ := List.nodup_cons.mp once
    obtain ⟨others, taken, between⟩ := underway.changed asked (fresh _ (List.mem_cons_self ..))
    obtain ⟨members', taken', ends, still⟩ := ih between once fun entry listed among => by
      rcases List.mem_cons.mp among with same | earlier
      · exact single (List.mem_map.mpr ⟨entry, listed, same⟩)
      · exact fresh entry (List.mem_cons_of_mem _ listed) earlier
    refine ⟨members', (taken.trans taken').congr ?_, ?_, still⟩
    · change _ ∨ _ ∧ Subscriber.view id ∈ now.channels.subscribers .columnChanging entity.table ↔ _
      rw [← or_and_right, ← enters_cons]
    · rw [List.map_cons, List.reverse_cons, List.append_assoc]
      exact ends

theorem refused {calls : Callbacks σ} (quiet : calls.Quiet)
    (underway : now.Underway row entity identity written id view owner members)
    (fresh : column ∉ written) {memory kept : σ} {fault : Fault}
    (failed : Cache.writeColumn calls row column value now memory = some ⟨.error fault, after, kept⟩) :
    ∃ others, TakenIn members identity (Enters view owner identity [(column, value)] ∧
        ∃ change place, now.changeOf row column value = .ok (change, place) ∧
          .view id ∈ acceptingChange calls change now memory) others ∧
      after.Underway row entity identity written id view owner others := by
  rcases writeColumn_refused quiet failed with ⟨rfl, unasked⟩ | ⟨change, place, asked, rfl⟩
  · refine ⟨members, .inr ⟨?_, rfl⟩, underway⟩
    rintro ⟨_, change, place, asked, _⟩
    exact unasked change place asked
  · obtain ⟨others, taken, ends⟩ :=
      underway.told asked fresh (acceptingChange calls change now memory)
    refine ⟨others, taken.congr (and_congr_right fun _ => ?_), ends⟩
    constructor
    · intro told
      exact ⟨change, place, asked, told⟩
    · rintro ⟨_, _, same, told⟩
      cases asked.symm.trans same
      exact told

-- The owner of a view that is live is another row than one that comes in.
theorem of_beginInsert {model : Model} (formed : unit.store.WellFormed model) {name table : String}
    {pending : List (String × Value)} {started : UnitOfWork}
    (begun : unit.beginInsert name values = .ok ((row, table, pending), started))
    (found : unit.views.get? id = some view) (loaded : view.members? = some members)
    (live : (unit.store.live.get? view.owner).isSome) :
    ∃ entity identity, started.Underway row entity identity [] id view (unit.ownerKey view) members ∧
      table = entity.table ∧ (pending.map (·.1)).Nodup ∧ started.channels = unit.channels ∧
      unit.model.entity name = .ok entity ∧
      ∃ arranged, arrange entity values = .ok arranged ∧ pending = pendingValues entity arranged := by
  obtain ⟨entity, arranged, identity, known, placed, -, free, rfl, rfl, rfl, rfl⟩ :=
    beginInsert_eq_ok.mp begun
  obtain ⟨parent, alive⟩ := Option.isSome_iff_exists.mp live
  have apart : identity ≠ view.owner := by
    intro same
    rw [same, alive] at free
    cases free
  have still : (unit.store.register (beginning entity identity arranged)).2.live.get? view.owner =
      unit.store.live.get? view.owner :=
    (RowStore.live_register ..).trans (if_neg apart)
  obtain ⟨record, held, -⟩ := (formed.live _ _).mp alive
  have older : (⟨unit.store.nextNumber⟩ : RowId) ≠ parent := formed.ne_next held
  refine ⟨entity, identity, ?_, rfl, nodup_pendingValues placed, rfl, known, arranged, placed, rfl⟩
  constructor
  case held =>
    exact ⟨_, (RowStore.records_register ..).trans (if_pos rfl), .beginning entity identity arranged⟩
  case known => exact Model.entity_self known
  case live => exact (RowStore.live_register ..).trans (if_pos rfl)
  case inserting => rfl
  case owned =>
    refine ownerKey_congr rfl still fun other among => ?_
    cases alive.symm.trans among
    exact (RowStore.records_register ..).trans (if_neg older)
  case apart =>
    intro same
    cases alive.symm.trans (still.symm.trans same)
    exact older rfl
  case found => rw [view.withMembers_self loaded]; exact found
  case loaded => rw [loaded]; rfl

end Underway

end UnitOfWork

end RelationalMapper.Cache
