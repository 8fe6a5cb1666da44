import RelationalMapper.Proofs.View.Onlooker

set_option autoImplicit false

namespace RelationalMapper.Cache

variable {σ : Type}

theorem findIdx?_member (members : List ObjectIdentity) (identity : ObjectIdentity) :
    members.findIdx? (· = identity) =
      if identity ∈ members then some (members.idxOf identity) else none := by
  have matches_eq : (fun other : ObjectIdentity => decide (other = identity)) = (· == identity) := by
    funext other
    rw [Bool.eq_iff_iff]
    simp
  rw [matches_eq]
  split
  next member =>
    rw [List.findIdx?_eq_some_iff_findIdx_eq]
    exact ⟨List.idxOf_lt_length_iff.mpr member, rfl⟩
  next absent =>
    simp only [List.findIdx?_eq_none_iff, beq_eq_false_iff_ne]
    intro other among same
    exact absent (same ▸ among)

-- A row has its place before it joins: the one behind all others.
theorem idxOf_joined (members : List ObjectIdentity) (identity : ObjectIdentity) :
    (joined members identity).idxOf identity = members.idxOf identity := by
  by_cases member : identity ∈ members
  · rw [joined, if_pos member]
  · rw [joined, if_neg member, List.idxOf_append_of_notMem member, List.idxOf_eq_length member]
    simp

theorem getElem?_joined (members : List ObjectIdentity) (identity : ObjectIdentity) :
    (joined members identity)[members.idxOf identity]? = some identity := by
  rw [joined]
  split
  next member => exact List.getElem?_idxOf member
  next absent => rw [List.idxOf_eq_length absent]; simp

def Channels.onlyViews (channels : Channels) : Bool :=
  (channels.columnChanging.entries ++ channels.rowDeleting.entries).all fun (_, held) =>
    held.all fun subscription => match subscription.subscriber with
      | .view _ => true
      | .listener _ => false

namespace UnitOfWork

variable {unit after : UnitOfWork} {model : Model} {calls : Callbacks σ} {id : ViewId}
  {view : RelationView} {members : List ObjectIdentity} {row : RowId} {record : RowRecord}
  {identity : ObjectIdentity} {key value : Value} {change : ColumnChange} {place : Nat}
  {memory kept : σ}

theorem alone_of_onlyViews (only : unit.channels.onlyViews = true) : unit.Alone := by
  intro channel table subscriber member
  obtain ⟨subscription, among, rfl⟩ := List.mem_map.mp member
  obtain ⟨held, entry, listed⟩ : ∃ held,
      (table, held) ∈ unit.channels.columnChanging.entries ++ unit.channels.rowDeleting.entries ∧
        subscription ∈ held := by
    cases channel with
    | columnChanging =>
      cases found : unit.channels.columnChanging.get? table with
      | none => simp [Channels.on, found] at among
      | some held =>
        exact ⟨held, List.mem_append_left _ (Assoc.mem_entries_of_get? found),
          by simpa [Channels.on, found] using among⟩
    | rowDeleting =>
      cases found : unit.channels.rowDeleting.get? table with
      | none => simp [Channels.on, found] at among
      | some held =>
        exact ⟨held, List.mem_append_right _ (Assoc.mem_entries_of_get? found),
          by simpa [Channels.on, found] using among⟩
  have view := List.all_eq_true.mp (List.all_eq_true.mp only _ entry) _ listed
  cases heard : subscription.subscriber with
  | view id => exact ⟨id, rfl⟩
  | listener key => simp [heard] at view

theorem loadView_of_loaded (found : unit.views.get? id = some view)
    (loaded : view.members? = some members) :
    loadView calls id unit memory = some ⟨.ok (), unit, memory⟩ := by
  unfold loadView
  rw [Action.ask_bind_of_ok (view_eq_ok.mpr found)]
  cases state : view.state with
  | unloaded => simp [RelationView.members?, state] at loaded
  | loaded => rfl

theorem viewMembers_of_loaded (listed : unit.members? id = some members) :
    viewMembers calls id unit memory = some ⟨.ok members, unit, memory⟩ := by
  obtain ⟨view, found, loaded⟩ := Option.bind_eq_some_iff.mp listed
  unfold viewMembers
  rw [Action.bind_of_ok (loadView_of_loaded found loaded),
    Action.ask_bind_of_ok (view_eq_ok.mpr found), loaded]
  rfl

section

variable (found : unit.views.get? id = some view) (loaded : view.members? = some members)

include found loaded

theorem removeMember_of_loaded (row : RowId) :
    removeMember calls id row unit memory =
      writeColumn calls row view.relation.childKey .null unit memory := by
  unfold removeMember
  rw [Action.bind_of_ok (loadView_of_loaded found loaded),
    Action.ask_bind_of_ok (view_eq_ok.mpr found)]

theorem addMember_of_unwritten (owned : unit.ownerKey view = .ok (some key)) {fault : Fault}
    (failed : writeColumn calls row view.relation.childKey key unit memory =
      some ⟨.error fault, after, kept⟩) :
    addMember calls id row unit memory = some ⟨.error fault, after, kept⟩ := by
  unfold addMember
  rw [Action.bind_of_ok (loadView_of_loaded found loaded),
    Action.ask_bind_of_ok (view_eq_ok.mpr found), Action.ask_bind_of_ok owned]
  exact Action.bind_of_error failed _

theorem addMember_of_written (owned : unit.ownerKey view = .ok (some key))
    (wrote : writeColumn calls row view.relation.childKey key unit memory =
      some ⟨.ok (), after, kept⟩)
    (own : after.identityOf row = .ok identity) {others : List ObjectIdentity}
    (listed : after.members? id = some others) :
    addMember calls id row unit memory = some ⟨if identity ∈ others then .ok (others.idxOf identity)
      else .error (.didNotJoin identity view.relation.name), after, kept⟩ := by
  unfold addMember
  rw [Action.bind_of_ok (loadView_of_loaded found loaded),
    Action.ask_bind_of_ok (view_eq_ok.mpr found), Action.ask_bind_of_ok owned]
  dsimp only
  rw [Action.bind_of_ok wrote, Action.ask_bind_of_ok own,
    Action.bind_of_ok (viewMembers_of_loaded listed), findIdx?_member]
  split <;> rfl

end

-- The foreign key of a child may be written, unless it is part of the child's own key.
theorem changeOf_child (mapped : (model.entities.map (·.table)).Nodup)
    (formed : unit.model = model ∧ unit.store.WellFormed model) {parent child : Entity}
    {parentIndex childIndex : Nat} {column : Column}
    (ends : view.Ends model parent child parentIndex childIndex)
    (listed : child.columns[childIndex]? = some column) (foreign : column.primaryKey = false)
    (held : unit.store.records.get? row = some record) (live : record.state.isLive = true)
    (here : record.table = view.childTable) (value : Value) :
    unit.changeOf row view.relation.childKey value =
      .ok (⟨row, record.table, view.relation.childKey, value, record.current.getD childIndex .null⟩,
        childIndex) := by
  obtain ⟨known, -⟩ := child_of_row mapped formed ends held here
  rw [← formed.1] at known
  exact changeOf_eq_ok.mpr
    ⟨record, child, held, live, known, ends.childKey, by simp [listed, foreign], rfl⟩

theorem identityOf_written (own : unit.identityOf row = .ok identity) (change : ColumnChange)
    (place : Nat) : (unit.changed change place).identityOf row = .ok identity := by
  obtain ⟨record, held, rfl⟩ := identityOf_eq_ok.mp own
  refine identityOf_eq_ok.mpr ?_
  change ∃ later, (unit.store.write change.row place change.proposed).records.get? row = some later ∧ _
  rw [RowStore.records_write]
  split
  · exact ⟨record.write place change.proposed, by rw [held]; rfl, rfl⟩
  · exact ⟨record, held, rfl⟩

theorem value_written (formed : unit.model = model ∧ unit.store.WellFormed model) {column : String}
    (asked : unit.changeOf row column value = .ok (change, place)) :
    (unit.changed change place).value row column .current = .ok value := by
  obtain ⟨record, entity, held, live, known, placed, outside, rfl⟩ := changeOf_eq_ok.mp asked
  obtain ⟨other, same, fits⟩ := formed.2.fits row record held
  rw [formed.1, same] at known
  cases known
  obtain ⟨listed, there, -⟩ := Entity.column_of_columnIndex placed
  have within : place < record.current.length := by
    rw [fits.current.width]
    exact (List.getElem?_eq_some_iff.mp there).1
  refine value_eq_ok.mpr ⟨record.write place value, entity, place, ?_, ?_, placed, ?_⟩
  · exact (RowStore.records_write ..).trans (by rw [if_pos rfl, held]; rfl)
  · exact (congrArg (·.entity record.entity) formed.1).trans same
  · simp [RowRecord.version, RowRecord.write, List.getD_eq_getElem?_getD, within]

/-- The members are the live children that point at the key of the view's owner, each of them once. -/
structure ListsChildren (unit : UnitOfWork) (view : RelationView) (members : List ObjectIdentity) :
    Prop where
  once : members.Nodup
  listed : ∀ identity, identity ∈ members ↔
    ∃ key row, unit.ownerKey view = .ok (some key) ∧ unit.PointsAt view key row identity

def membersGiven (unit : UnitOfWork) (view : RelationView) (value : Value) (identity : ObjectIdentity)
    (members : List ObjectIdentity) : List ObjectIdentity :=
  if unit.ownerKey view = .ok (some value) then joined members identity else members.erase identity

theorem ListsChildren.points (lists : unit.ListsChildren view members)
    (formed : unit.store.WellFormed model) (held : unit.store.records.get? row = some record)
    (live : record.state.isLive = true) (member : record.identity ∈ members) :
    ∃ key, unit.ownerKey view = .ok (some key) ∧
      unit.value row view.relation.childKey .current = .ok key := by
  obtain ⟨key, other, owned, record', held', live', -, same, points⟩ := (lists.listed _).mp member
  -- Live rows of one identity are one row.
  have here := formed.live_of_record held live
  have there := formed.live_of_record held' live'
  rw [same, here] at there
  cases there
  exact ⟨key, owned, points⟩

theorem ListsChildren.hearing (lists : unit.ListsChildren view members)
    (formed : unit.store.WellFormed model) (held : unit.store.records.get? change.row = some record)
    (live : record.state.isLive = true) (owned : unit.ownerKey view = .ok (some key))
    (foreign : change.column = view.relation.childKey)
    (apart : ¬unit.SelfReferring change record.identity)
    (current : unit.value change.row view.relation.childKey .current = .ok change.current) :
    unit.membersHearing view key change record.identity members =
      unit.membersGiven view change.proposed record.identity members := by
  unfold membersHearing membersGiven
  rw [if_neg (by simp [foreign, apart]), owned]
  by_cases joins : change.proposed = key
  · rw [if_pos joins, if_pos (by rw [joins])]
  · rw [if_neg joins, if_neg fun same => joins (Option.some.inj (Except.ok.inj same)).symm]
    by_cases leaves : change.current = key
    · rw [if_pos leaves]
    · rw [if_neg leaves, List.erase_of_not_mem]
      intro member
      obtain ⟨_, same, points⟩ := lists.points formed held live member
      cases owned.symm.trans same
      exact leaves (Except.ok.inj (current.symm.trans points))

theorem ListsChildren.changed (lists : unit.ListsChildren view members)
    (formed : unit.store.WellFormed model) (found : unit.views.get? id = some view)
    (loaded : view.members? = some members) {column : String}
    (asked : unit.changeOf row column value = .ok (change, place))
    (foreign : column = view.relation.childKey) (own : unit.identityOf row = .ok identity)
    (outside : unit.inserting ≠ some row)
    (told : .view id ∈ unit.channels.subscribers .columnChanging change.table) :
    (unit.changed change place).members? id =
      some (unit.membersGiven view value identity members) := by
  subst foreign
  obtain ⟨record, entity, held, live, known, placed, -, built⟩ := changeOf_eq_ok.mp asked
  obtain ⟨_, same, rfl⟩ := identityOf_eq_ok.mp own
  cases held.symm.trans same
  have counted : (unit.channels.subscribers .columnChanging change.table).count (.view id) ≠ 0 :=
    Nat.ne_zero_iff_zero_lt.mpr (List.count_pos_iff.mpr told)
  refine (members?_tellViews found _ _).trans ?_
  by_cases owned : ∃ key, unit.ownerKey view = .ok (some key)
  · obtain ⟨key, owned⟩ := owned
    have current : unit.value change.row view.relation.childKey .current = .ok change.current :=
      built ▸ value_eq_ok.mpr ⟨record, entity, place, held, known, placed, rfl⟩
    have apart : ¬unit.SelfReferring change record.identity := by
      rw [built]
      exact fun selfish => outside selfish.1
    subst built
    rw [iterate_afterChange owned held loaded, RelationView.members?_of_loaded loaded,
      iterate_membersHearing lists.once counted, lists.hearing formed held live owned rfl apart current]
  · have unowned (key : Value) : unit.ownerKey view ≠ .ok (some key) := fun same => owned ⟨key, same⟩
    have empty : members = [] := by
      refine List.eq_nil_iff_forall_not_mem.mpr fun other member => ?_
      obtain ⟨key, -, same, -⟩ := (lists.listed other).mp member
      exact unowned key same
    rw [Function.iterate_fixed (afterChange_of_unowned unowned _), loaded, membersGiven,
      if_neg (unowned value), empty]
    rfl

/-- Every view of the same children, if it listed those of its owner, has made of a row's new foreign key
what it should. -/
def ViewsFollow (before after : UnitOfWork) (view : RelationView) (value : Value)
    (identity : ObjectIdentity) : Prop :=
  ∀ other view' members', before.views.get? other = some view' → view'.members? = some members' →
    view'.childTable = view.childTable → view'.relation.childKey = view.relation.childKey →
    before.ListsChildren view' members' →
    after.members? other = some (before.membersGiven view' value identity members')

theorem Attuned.viewsFollow (attuned : unit.Attuned model) (formed : unit.store.WellFormed model)
    (asked : unit.changeOf row view.relation.childKey value = .ok (change, place))
    (own : unit.identityOf row = .ok identity) (outside : unit.inserting ≠ some row)
    (here : change.table = view.childTable) :
    unit.ViewsFollow (unit.changed change place) view value identity := by
  intro other view' members' found' loaded' table column lists'
  have told := attuned.told found' loaded'
  rw [table, ← here] at told
  exact lists'.changed formed found' loaded' asked column.symm own outside told

end UnitOfWork

open UnitOfWork

/-- A row that is added keeps its place, or goes behind the others; one that is removed leaves them in
their order. Every view of the same children follows. -/
theorem add_and_remove_keep_places {model : Model} (valid : model.validate = .ok ())
    (named : (model.entities.map (·.name)).Nodup) (mapped : (model.entities.map (·.table)).Nodup)
    {unit : UnitOfWork} (reachable : unit.Reachable model) (attuned : unit.Attuned model)
    (alone : unit.Alone) {id : ViewId} {view : RelationView} {members : List ObjectIdentity}
    (found : unit.views.get? id = some view) (loaded : view.members? = some members)
    (live : (unit.store.live.get? view.owner).isSome)
    {parent child : Entity} {parentColumn childColumn : Column}
    (parentKnown : model.entity view.relation.parent = .ok parent)
    (parentKey : parent.column view.relation.parentKey = .ok parentColumn)
    (primary : parentColumn.primaryKey = true)
    (childKnown : model.entity view.relation.child = .ok child)
    (childKey : child.column view.relation.childKey = .ok childColumn)
    (foreign : childColumn.primaryKey = false) (lists : unit.ListsChildren view members)
    {row : RowId} {record : RowRecord} (held : unit.store.records.get? row = some record)
    (alive : record.state.isLive = true) (here : record.table = view.childTable)
    (outside : unit.inserting ≠ some row) (calls : Callbacks σ) (memory : σ) :
    ∃ key, unit.ownerKey view = .ok (some key) ∧
      (∃ (index : Nat) (after : UnitOfWork) (members' : List ObjectIdentity),
        perform calls (.add id row) unit memory = some ⟨.ok index, after, memory⟩ ∧
        after.value row view.relation.childKey .current = .ok key ∧
        after.members? id = some members' ∧ members'[index]? = some record.identity ∧
        (record.identity ∈ members → index = members.idxOf record.identity ∧ members' = members) ∧
        (record.identity ∉ members →
          index = members.length ∧ members' = members ++ [record.identity]) ∧
        unit.ViewsFollow after view key record.identity) ∧
      (record.identity ∈ members →
        ∃ after, perform calls (.remove id row) unit memory = some ⟨.ok (), after, memory⟩ ∧
          after.value row view.relation.childKey .current = .ok .null ∧
          after.members? id = some (members.erase record.identity) ∧
          unit.ViewsFollow after view .null record.identity) := by
  have onlooked := reachable.onlooked valid named alone
  have formed := reachable.wellFormed
  obtain ⟨parentIndex, parentPlaced, parentListed⟩ := Entity.columnIndex_of_column parentKey
  obtain ⟨childIndex, childPlaced, childListed⟩ := Entity.columnIndex_of_column childKey
  have ends := (attuned.placed id view found).ends named parentKnown parentPlaced childKnown childPlaced
  have own : unit.identityOf row = .ok record.identity := identityOf_eq_ok.mpr ⟨record, held, rfl⟩
  have asked := changeOf_child mapped formed ends childListed foreign held alive here
  obtain ⟨key, owned⟩ : ∃ key, unit.ownerKey view = .ok (some key) :=
    ⟨_, ownerKey_of_primary mapped attuned.modelled formed.2 ends parentListed primary live⟩
  -- The view that is asked hears of the change as every other one does.
  have follow (value : Value) := attuned.viewsFollow formed.2 (asked value) own outside here
  refine ⟨key, owned, ?_, ?_⟩
  · have wrote := onlooked.writeColumn mapped calls (asked key) memory
    have listed := follow key id view members found loaded rfl rfl lists
    rw [membersGiven, if_pos owned] at listed
    refine ⟨members.idxOf record.identity, _, joined members record.identity, ?_,
      value_written formed (asked key), listed, getElem?_joined members record.identity, ?_, ?_,
      follow key⟩
    · change addMember calls id row unit memory = _
      rw [addMember_of_written found loaded owned wrote (identityOf_written own _ _) listed,
        if_pos (mem_joined.mpr (.inr rfl)), idxOf_joined]
      rfl
    · intro member
      exact ⟨rfl, if_pos member⟩
    · intro absent
      exact ⟨List.idxOf_eq_length absent, if_neg absent⟩
  · intro member
    have unowned : unit.ownerKey view ≠ .ok (some .null) := fun same => ownerKey_present same rfl
    have listed := follow .null id view members found loaded rfl rfl lists
    rw [membersGiven, if_neg unowned] at listed
    refine ⟨_, ?_, value_written formed (asked .null), listed, follow .null⟩
    change removeMember calls id row unit memory = _
    rw [removeMember_of_loaded found loaded]
    exact onlooked.writeColumn mapped calls (asked .null) memory

-- Line 7 belongs to the first of two orders, and the lines of both are loaded.
def twoOrders : Program Unit Unit :=
  .perform (.attach "Order" [.integer 1]) fun _ =>
  .perform (.attach "Order" [.integer 2]) fun _ =>
  .perform (.attach "Line" [.integer 7, .integer 1]) fun _ =>
  .perform (.openView ⟨"orders", [.integer 1]⟩ "lines") fun _ =>
  .perform (.openView ⟨"orders", [.integer 2]⟩ "lines") fun _ =>
  .perform (.load ⟨0⟩) fun _ =>
  .perform (.load ⟨1⟩) fun _ =>
  .done ()

def firstLines : RelationView :=
  { noLines with state := .loaded [⟨"lines", [.integer 7]⟩] ⟨0⟩ ⟨1⟩ }

def secondLines : RelationView :=
  { noLines with owner := ⟨"orders", [.integer 2]⟩, state := .loaded [] ⟨2⟩ ⟨3⟩ }

theorem line_moves_to_the_other_order : ∃ unit after,
    unit.Undisturbed orders ∧ unit.Alone ∧ unit.views.get? ⟨0⟩ = some firstLines ∧
      unit.views.get? ⟨1⟩ = some secondLines ∧
      perform nothingStored (.add ⟨1⟩ ⟨2⟩) unit () = some ⟨.ok (0 : Nat), after, ()⟩ ∧
      after.value ⟨2⟩ "order" .current = .ok (.integer 2) ∧
      after.members? ⟨1⟩ = some [⟨"lines", [.integer 7]⟩] ∧ after.members? ⟨0⟩ = some [] := by
  have evaluated : (twoOrders.runUnless ((answering (.ok ())).guarded (fun _ => cutsOff) 1 []) cutsOff
      (.new orders .standard) ()).any (fun started =>
        decide (started.unit.views.get? ⟨0⟩ = some firstLines ∧
          started.unit.views.get? ⟨1⟩ = some secondLines ∧
          started.unit.channels.onlyViews ∧
          started.unit.ownerKey firstLines = .ok (some (.integer 1)) ∧
          started.unit.ownerKey secondLines = .ok (some (.integer 2)) ∧
          (started.unit.store.live.get? ⟨"orders", [.integer 2]⟩).isSome ∧
          started.unit.store.records = ⟨[
            (⟨0⟩, ⟨"Order", "orders", ⟨"orders", [.integer 1]⟩, [.integer 1], some [.integer 1],
              .unchanged⟩),
            (⟨1⟩, ⟨"Order", "orders", ⟨"orders", [.integer 2]⟩, [.integer 2], some [.integer 2],
              .unchanged⟩),
            (⟨2⟩, ⟨"Line", "lines", ⟨"lines", [.integer 7]⟩, [.integer 7, .integer 1],
              some [.integer 7, .integer 1], .unchanged⟩)]⟩ ∧
          started.unit.value ⟨2⟩ "order" .current = .ok (.integer 1))) = true := by
    decide +kernel
  simp only [Option.any_eq_true, decide_eq_true_eq] at evaluated
  obtain ⟨⟨_, unit, _⟩, ran, first, second, heard, owned, owned', live, rows, points⟩ := evaluated
  have undisturbed : unit.Undisturbed orders :=
    ⟨Unit, Unit, answering (.ok ()), 1, twoOrders, .standard, (), (), _, ran⟩
  have alone : unit.Alone := alone_of_onlyViews heard
  have only (view : RelationView) (table : view.childTable = "lines")
      (column : view.relation.childKey = "order") (key : Value) (row : RowId) (identity : ObjectIdentity) :
      unit.PointsAt view key row identity ↔
        row = ⟨2⟩ ∧ identity = ⟨"lines", [.integer 7]⟩ ∧ key = .integer 1 := by
    unfold PointsAt
    rw [rows, table, column]
    constructor
    · rintro ⟨record, held, -, here, rfl, points'⟩
      simp only [Assoc.get?, Assoc.lookup] at held
      split_ifs at held with one two three <;> cases held
      · simp at here
      · simp at here
      · subst three
        exact ⟨rfl, rfl, by simpa using points'.symm.trans points⟩
    · rintro ⟨rfl, rfl, rfl⟩
      exact ⟨_, rfl, rfl, rfl, rfl, points⟩
  have lists : unit.ListsChildren secondLines [] := by
    refine ⟨.nil, fun identity => ?_⟩
    simp [only secondLines rfl rfl, owned']
  have lists' : unit.ListsChildren firstLines [⟨"lines", [.integer 7]⟩] := by
    refine ⟨List.nodup_singleton _, fun identity => ?_⟩
    simp [only firstLines rfl rfl, owned]
  have held : unit.store.records.get? ⟨2⟩ = some ⟨"Line", "lines", ⟨"lines", [.integer 7]⟩,
      [.integer 7, .integer 1], some [.integer 7, .integer 1], .unchanged⟩ := by
    rw [rows]
    rfl
  obtain ⟨key, same, ⟨index, after, members', added, points', listed, -, -, appended, follow⟩, -⟩ :=
    add_and_remove_keep_places (by decide) (by decide) (by decide) undisturbed.reachable
      undisturbed.attuned alone second rfl live rfl rfl rfl rfl rfl rfl lists held rfl rfl
      (by rw [undisturbed.idle]; simp) nothingStored ()
  cases owned'.symm.trans same
  obtain ⟨rfl, rfl⟩ := appended List.not_mem_nil
  have left := follow ⟨0⟩ firstLines _ first rfl rfl rfl lists'
  rw [membersGiven, owned, if_neg (by simp)] at left
  exact ⟨unit, after, undisturbed, alone, first, second, added, points', listed, left⟩

end RelationalMapper.Cache
