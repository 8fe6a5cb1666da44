import RelationalMapper.Proofs.Sql.Meaning
import RelationalMapper.Proofs.Store.Intake
import RelationalMapper.Proofs.View.Fetching
import RelationalMapper.Proofs.View.Onlooker

set_option autoImplicit false

namespace RelationalMapper.Cache

variable {σ : Type}

structure RelationView.Displays (view : RelationView) (model : Model) (child : Entity) (index : Nat) :
    Prop where
  known : model.entity view.childEntity = .ok child
  table : child.table = view.childTable
  placed : child.columnIndex view.relation.childKey = .ok index
  alone : ∀ entity ∈ model.entities, entity.table = view.childTable → entity.name = view.childEntity

namespace RowStore

variable {store : RowStore} {child : Entity} {values : List Value} {rest : List (List Value)}

def intake (store : RowStore) (child : Entity) (rows : List (List Value)) : RowStore :=
  (Arrival.upToFault child rows).1.foldl (enter child) store

theorem intake_eq (store : RowStore) (child : Entity) (rows : List (List Value)) :
    store.intake child rows =
      store.registerAll child (store.newcomers (Arrival.upToFault child rows).1) :=
  foldl_enter ..

theorem intake_of_fault {fault : Fault} (read : Arrival.of child values = .error fault) :
    store.intake child (values :: rest) = store := by
  simp [intake, Arrival.upToFault, read]

theorem intake_of_arrival {arrival : Arrival} (read : Arrival.of child values = .ok arrival) :
    store.intake child (values :: rest) = (store.enter child arrival).intake child rest := by
  simp [intake, Arrival.upToFault, read]

end RowStore

namespace UnitOfWork

theorem Attached.wellFormed {after before : UnitOfWork} {model : Model}
    (attached : after.Attached before model) (modelled : before.model = model) :
    after.model = model ∧ after.store.WellFormed model :=
  ⟨attached.model_eq.trans modelled, attached.formed⟩

theorem intake_attached {unit : UnitOfWork} {model : Model} {child : Entity}
    (formed : unit.model = model ∧ unit.store.WellFormed model)
    (known : model.entity child.name = .ok child) (fetched : List (List Value)) :
    ({ unit with store := unit.store.intake child fetched } : UnitOfWork).Attached unit model := by
  induction fetched generalizing unit with
  | nil => exact .refl formed.2
  | cons values rest ih =>
    cases read : Arrival.of child values with
    | error fault =>
      rw [RowStore.intake_of_fault read]
      exact .refl formed.2
    | ok arrival =>
      have known' : unit.model.entity child.name = .ok child := by rw [formed.1]; exact known
      obtain ⟨row, between, attached, same, -⟩ := attach_of_arrival known' read
      have first := attach_attached formed attached
      have onward := (ih (first.wellFormed formed.1)).trans first
      rw [RowStore.intake_of_arrival read]
      subst same
      exact onward

theorem childNamed_intake {unit : UnitOfWork} {model : Model} {child : Entity} {index : Nat} {key : Value}
    {row : RowId} {identity : ObjectIdentity}
    (formed : unit.model = model ∧ unit.store.WellFormed model)
    (known : model.entity child.name = .ok child) (fetched : List (List Value))
    (resolved : unit.store.resolve? identity = some row) :
    (unit.store.intake child fetched).childNamed index key identity = unit.store.childAt index key row := by
  have attached := intake_attached formed known fetched
  obtain ⟨record, held, -, -⟩ := RowStore.record_of_resolve formed.2 resolved
  rw [RowStore.childNamed, attached.lasts.resolved _ _ resolved, Option.bind_some]
  exact RowStore.childAt_congr (attached.extended.records row (formed.2.numbered row record held))

theorem takesIn_intake {unit : UnitOfWork} {model : Model} {child : Entity}
    (formed : unit.model = model ∧ unit.store.WellFormed model)
    (known : model.entity child.name = .ok child) (fetched : List (List Value)) :
    unit.store.TakesIn (unit.store.intake child fetched) child (Arrival.upToFault child fetched).1 := by
  have attached := intake_attached formed known fetched
  exact {
    entered := RowStore.intake_eq ..
    inOrder := RowStore.newcomers_sublist ..
    once := RowStore.newcomers_nodup ..
    new := fun identity => by rw [RowStore.mem_newcomers, RowStore.resolve?, Option.or_eq_none_iff]
    kept := fun row record held =>
      (attached.extended.records row (formed.2.numbered row record held)).trans held
    live := attached.extended.live
    tombstones := by rw [RowStore.intake_eq, RowStore.tombstones_registerAll] }

section

variable {unit : UnitOfWork} {model : Model} {view : RelationView} {child : Entity} {index : Nat}
  (formed : unit.model = model ∧ unit.store.WellFormed model) (displays : view.Displays model child index)

include formed displays

theorem value_displayed {row : RowId} {record : RowRecord}
    (held : unit.store.records.get? row = some record) (here : record.table = view.childTable) :
    unit.value row view.relation.childKey .current = .ok (record.current.getD index .null) := by
  obtain ⟨entity, known, fits⟩ := formed.2.fits row record held
  have named := displays.alone entity (Model.entity_mem known) (fits.table.symm.trans here)
  have same : entity = child := by
    have self := Model.entity_self known
    rw [named, displays.known] at self
    exact (Except.ok.inj self).symm
  subst same
  exact value_eq_ok.mpr
    ⟨record, entity, index, held, by rw [formed.1]; exact known, displays.placed, rfl⟩

theorem admitRow_displayed {row : RowId} {record : RowRecord}
    (held : unit.store.records.get? row = some record) (here : record.table = view.childTable)
    (key : Value) (members : List ObjectIdentity) :
    unit.admitRow view key members row =
      .ok ((unit.store.childAt index key row).toList.foldl joined members) := by
  have state : unit.store.state row = record.state := by simp [RowStore.state, held]
  have own : unit.identityOf row = .ok record.identity := identityOf_eq_ok.mpr ⟨record, held, rfl⟩
  unfold admitRow RowStore.childAt
  rw [state, value_displayed formed displays held here, own, held, Option.bind_some]
  by_cases live : record.state.isLive
  · by_cases points : record.current.getD index .null = key
    · simp only [live, points, Bind.bind, Except.bind, Pure.pure, Except.pure, if_true, and_self]
      rfl
    · simp only [live, points, Bind.bind, Except.bind, Pure.pure, Except.pure, if_true, if_false,
        and_false]
      rfl
  · simp only [live, Pure.pure, Except.pure, Bool.false_eq_true, if_false, false_and]
    rfl

theorem admitRows_displayed (rows : List RowId)
    (tracked : ∀ row ∈ rows, ∃ record, unit.store.records.get? row = some record ∧
      record.table = view.childTable) (key : Value) (members : List ObjectIdentity) :
    rows.foldlM (unit.admitRow view key) members =
      .ok ((rows.filterMap (unit.store.childAt index key)).foldl joined members) := by
  induction rows generalizing members with
  | nil => rfl
  | cons row rest ih =>
    obtain ⟨record, held, here⟩ := tracked row (List.mem_cons_self ..)
    have later := ih fun row member => tracked row (List.mem_cons_of_mem _ member)
    rw [List.foldlM_cons, admitRow_displayed formed displays held here, List.filterMap_cons]
    change rest.foldlM _ _ = _
    rw [later]
    cases unit.store.childAt index key row <;> rfl

theorem admitAll_displayed (key : Value) (fetched : List (List Value)) (members : List ObjectIdentity)
    (memory : σ) :
    admitAll view key fetched members unit memory = some
      ⟨match (Arrival.upToFault child fetched).2 with
        | some fault => .error fault
        | none => .ok ((((Arrival.upToFault child fetched).1.map (·.identity)).filterMap
            ((unit.store.intake child fetched).childNamed index key)).foldl joined members),
        { unit with store := unit.store.intake child fetched }, memory⟩ := by
  have known : unit.model.entity view.childEntity = .ok child := by rw [formed.1]; exact displays.known
  induction fetched generalizing unit members with
  | nil => rfl
  | cons values rest ih =>
    rw [admitAll]
    cases read : Arrival.of child values with
    | error fault =>
      have failed : attachRow view.childEntity values unit memory =
          some ⟨.error fault, unit, memory⟩ :=
        Action.ask_bind_of_error (attach_of_fault known read) _
      rw [Action.bind_of_error failed, RowStore.intake_of_fault read]
      simp only [Arrival.upToFault, read]
    | ok arrival =>
      obtain ⟨row, between, attached, same, resolved⟩ := attach_of_arrival known read
      have ran : attachRow view.childEntity values unit memory = some ⟨.ok row, between, memory⟩ := by
        rw [attachRow, Action.ask_bind_of_ok attached]
        rfl
      have first := attach_attached formed attached
      have entered := first.wellFormed formed.1
      obtain ⟨record, held, -, stored⟩ := RowStore.record_of_resolve entered.2 resolved
      have here : record.table = view.childTable :=
        stored.trans ((Arrival.table_of read).trans displays.table)
      have named : (between.store.intake child rest).childNamed index key arrival.identity =
          between.store.childAt index key row :=
        childNamed_intake entered (Model.entity_self displays.known) rest resolved
      have known' : between.model.entity view.childEntity = .ok child := by
        rw [entered.1]
        exact displays.known
      rw [Action.bind_of_ok ran,
        Action.ask_bind_of_ok (admitRow_displayed entered displays held here key members),
        ih entered _ known', RowStore.intake_of_arrival read]
      have store : between.store = unit.store.enter child arrival := by rw [same]
      simp only [Arrival.upToFault, read, List.map_cons, List.filterMap_cons, ← store, named]
      subst same
      congr 2
      cases (Arrival.upToFault child rest).2 with
      | some fault => rfl
      | none => cases RowStore.childAt _ index key row <;> rfl

theorem gathered_displayed (key : Value) (identities : List ObjectIdentity) :
    (unit.store.rows view.childTable).foldlM (unit.admitRow view key)
        ((identities.filterMap (unit.store.childNamed index key)).foldl joined []) =
      .ok (unit.store.gathered view.childTable index key identities) := by
  have tracked : ∀ row ∈ unit.store.rows view.childTable, ∃ record,
      unit.store.records.get? row = some record ∧ record.table = view.childTable := by
    intro row member
    obtain ⟨record, held, here, -⟩ := (formed.2.listed view.childTable row).mp member
    exact ⟨record, held, here⟩
  rw [admitRows_displayed formed displays _ tracked, RowStore.gathered, ← RowStore.foldl_joined,
    List.foldl_append]

section

variable {calls : Callbacks σ} {id : ViewId} {key : Value} {command : Sql.Command}
  {fetched : List (List Value)} {memory kept : σ} (wanted : unit.wantedKey view = .ok (some key))
  (compiled : unit.compiler.select (childFetch view key) = .ok command)
  (answered : calls.fetch id command (childFetch view key) unit memory = some ⟨.ok fetched, unit, kept⟩)

include wanted compiled answered

theorem queryMembers_displayed : queryMembers calls id view unit memory = some
    ⟨match (Arrival.upToFault child fetched).2 with
      | some fault => .error fault
      | none => .ok ((unit.store.intake child fetched).gathered view.childTable index key
          ((Arrival.upToFault child fetched).1.map (·.identity))),
      { unit with store := unit.store.intake child fetched }, kept⟩ := by
  have admitted := admitAll_displayed formed displays key fetched [] kept
  have entered := (intake_attached formed (Model.entity_self displays.known) fetched).wellFormed formed.1
  unfold queryMembers
  rw [Action.ask_bind_of_ok wanted]
  dsimp only
  rw [Action.ask_bind_of_ok compiled, Action.bind_of_ok answered]
  cases stopped : (Arrival.upToFault child fetched).2 with
  | some fault =>
    rw [stopped] at admitted
    exact Action.bind_of_error admitted _
  | none =>
    rw [stopped] at admitted
    rw [Action.bind_of_ok admitted, Action.ask, gathered_displayed entered displays]

theorem loadView_displayed (found : unit.views.get? id = some view) (unloaded : view.state = .unloaded) :
    loadView calls id unit memory = some
      (match (Arrival.upToFault child fetched).2 with
      | some fault => ⟨.error fault, { unit with store := unit.store.intake child fetched }, kept⟩
      | none => ⟨.ok (), ({ unit with store := unit.store.intake child fetched } : UnitOfWork).completeLoad
          id view ((unit.store.intake child fetched).gathered view.childTable index key
            ((Arrival.upToFault child fetched).1.map (·.identity))), kept⟩) := by
  have queried := queryMembers_displayed formed displays wanted compiled answered
  unfold loadView
  rw [Action.ask_bind_of_ok (view_eq_ok.mpr found), unloaded]
  dsimp only
  cases stopped : (Arrival.upToFault child fetched).2 with
  | some fault =>
    rw [stopped] at queried
    exact Action.bind_of_error queried _
  | none =>
    rw [stopped] at queried
    rw [Action.bind_of_ok queried, Action.ask_bind_of_ok (view_eq_ok.mpr found)]
    rfl

end

end

structure Showing (unit : UnitOfWork) (model : Model) : Prop where
  modelled : unit.model = model
  shows : ∀ id view, unit.views.get? id = some view →
    ∃ child, model.entity view.childEntity = .ok child ∧ child.table = view.childTable

namespace Showing

variable {unit after : UnitOfWork} {model : Model}

theorem alike (showing : unit.Showing model) (same : after.model = unit.model)
    (views : after.ViewsAlike unit) : after.Showing model := by
  refine ⟨same.trans showing.modelled, fun id view found => ?_⟩
  obtain ⟨older, stood, alike⟩ := views id view found
  obtain ⟨child, known, table⟩ := showing.shows id older stood
  exact ⟨child, alike.childEntity ▸ known, table.trans alike.childTable.symm⟩

theorem openView (showing : unit.Showing model) {owner : ObjectIdentity} {relation : String}
    {id : ViewId} (opened : unit.openView owner relation = .ok (id, after)) : after.Showing model := by
  obtain ⟨_, relation, child, -, -, -, known, rfl, rfl⟩ := openView_eq_ok.mp opened
  refine ⟨showing.modelled, fun id view found => ?_⟩
  rw [Assoc.get?_insert] at found
  split at found
  · cases found
    rw [showing.modelled] at known
    exact ⟨child, Model.entity_self known, rfl⟩
  · exact showing.shows id view found

end Showing

theorem showing_leading (model : Model) :
    Leading (·.Showing model) fun _ after => after.Showing model where
  refl showing := showing
  trans _ second := second
  arrives led := led
  attach showing attached := by
    obtain ⟨_, _, -, -, -, ⟨-, rfl⟩ | ⟨-, -, rfl⟩⟩ := attach_eq_ok.mp attached
    · exact showing
    · exact ⟨showing.modelled, showing.shows⟩
  begin := by
    rintro unit after entity values row ⟨table, pending⟩ showing begun
    obtain ⟨-, -, -, -, -, -, -, -, -, -, rfl⟩ := beginInsert_eq_ok.mp begun
    exact ⟨showing.modelled, showing.shows⟩
  inserting _ showing := ⟨showing.modelled, showing.shows⟩
  write _ _ showing applied := by
    obtain ⟨-, rfl⟩ := applyChange_eq_ok.mp applied
    exact ⟨showing.modelled, showing.shows⟩
  delete _ _ showing applied := by
    obtain ⟨_, -, rfl⟩ := applyDeletion_eq_ok.mp applied
    split
    · exact ⟨showing.modelled, showing.shows⟩
    · exact showing
  forget _ _ showing := ⟨showing.modelled, showing.shows⟩
  accept showing := ⟨showing.modelled, showing.shows⟩
  followChange {unit after id change} showing followed := by
    rw [followChange_told followed]
    exact showing.alike rfl (.tellViews (unit.afterChange_eq change) [.view id] unit)
  followDeletion {unit after id deletion} showing followed := by
    rw [followDeletion_told followed]
    exact showing.alike rfl (.tellViews (unit.afterDeletion_eq deletion) [.view id] unit)
  openView showing opened := showing.openView opened
  completeLoad members showing stood := showing.alike rfl (.completeLoad (view_eq_ok.mp stood) members)
  invalidate {unit} id showing := showing.alike (unit.model_invalidate id) (.invalidate unit id)
  closeView {unit} id showing := showing.alike (unit.model_invalidate id) (.closeView unit id)
  subscribe _ _ _ showing := ⟨showing.modelled, showing.shows⟩
  unsubscribe _ showing := ⟨showing.modelled, showing.shows⟩

theorem Reachable.showing {unit : UnitOfWork} {model : Model} (reachable : unit.Reachable model) :
    unit.Showing model :=
  reachable.good (showing_leading model) fun _ => ⟨rfl, fun _ _ found => nomatch found⟩

-- A select of the children of a key has no order and no limit, so that only names can be amiss.
theorem select_childFetch {compiler : Sql.Compiler} {view : RelationView} {key : Value}
    (present : key ≠ .null) {command : Sql.Command} :
    compiler.select (childFetch view key) = .ok command ↔ ∃ child column,
      compiler.model.entity view.childEntity = .ok child ∧
      child.column view.relation.childKey = .ok column ∧
      command = (Sql.Statement.select (child.columns.map (·.name)) child.table
        (some (.compare column.name .equals ⟨column, key⟩)) [] none).command
          compiler.writer compiler.quoting := by
  have compared (column : Column) : Sql.comparison column ⟨.equals, key⟩ =
      .ok (.compare column.name .equals ⟨column, key⟩) := by
    rw [Sql.comparison, if_neg (mt (Value.isNull_iff key).mp present)]
  constructor
  · intro compiled
    obtain ⟨statement, built, rfl⟩ := Sql.finish_eq_ok compiled
    obtain ⟨child, condition, orderings, known, resolved, ordered, rfl⟩ :=
      Sql.selectStatement_parts built
    cases ordered
    obtain ⟨found, compares, same⟩ := Except.bind_eq_ok.mp resolved
    cases same
    obtain ⟨column, placed, built⟩ := Except.bind_eq_ok.mp compares
    cases (compared column).symm.trans built
    exact ⟨child, column, known, placed, rfl⟩
  · rintro ⟨child, column, known, placed, rfl⟩
    have resolved : Sql.resolveCondition compiler.model child (childFetch view key).qualifier =
        .ok (some (.compare column.name .equals ⟨column, key⟩)) :=
      Except.bind_eq_ok.mpr ⟨_, Except.bind_eq_ok.mpr ⟨column, placed, compared column⟩, rfl⟩
    have built : Sql.selectStatement compiler.model compiler.writer (childFetch view key) = .ok _ :=
      Except.bind_eq_ok.mpr ⟨child, known, Except.bind_eq_ok.mpr ⟨_, resolved, rfl⟩⟩
    exact congrArg compiler.finish built

end UnitOfWork

structure Request where
  view : ViewId
  command : Sql.Command
  fetch : Fetch

def Action.beside {α : Type} (action : Action σ α) : Action (σ × List Request) α :=
  fun unit memory =>
    (action unit memory.1).map fun ended => ⟨ended.result, ended.unit, (ended.memory, memory.2)⟩

namespace UnitOfWork

theorem wantedKey_of_live {unit : UnitOfWork} {model : Model} {view : RelationView} {owner : RowId}
    {key : Value} (formed : unit.store.WellFormed model)
    (live : unit.store.live.get? view.owner = some owner)
    (points : unit.value owner view.relation.parentKey .current = .ok key) :
    unit.wantedKey view = .ok (if key = .null then none else some key) := by
  obtain ⟨record, held, -, alive⟩ := (formed.live _ _).mp live
  have lives : (unit.store.state owner).isLive = true := RowStore.state_isLive.mpr ⟨record, held, alive⟩
  refine wantedKey_eq_ok.mpr ⟨by simp [live], ?_⟩
  simp only [ownerKey, live, lives, points, if_true, Bind.bind, Except.bind, Pure.pure, Except.pure,
    Value.isNull_iff]

end UnitOfWork

/-- What a load makes of the stored rows that have arrived. They are taken in, and the members are the
children of the key, those that have arrived first. -/
structure Merges (unit after : UnitOfWork) (view : RelationView) (child : Entity) (index : Nat)
    (key : Value) (arrivals : List Arrival) (members : List ObjectIdentity) : Prop
    extends RowStore.TakesIn unit.store after.store child arrivals where
  ordered : members =
    after.store.gathered view.childTable index key (arrivals.map (·.identity))
  nodup : members.Nodup
  complete : ∀ identity, identity ∈ members ↔
    ∃ row, after.store.IsChild view.childTable index key row identity

theorem UnitOfWork.merges_completeLoad {unit : UnitOfWork} {model : Model} {view : RelationView}
    {child : Entity} {index : Nat} (formed : unit.model = model ∧ unit.store.WellFormed model)
    (displays : view.Displays model child index) (id : ViewId) (key : Value)
    (fetched : List (List Value)) :
    let members := (unit.store.intake child fetched).gathered view.childTable index key
      ((Arrival.upToFault child fetched).1.map (·.identity))
    Merges unit
      (({ unit with store := unit.store.intake child fetched } : UnitOfWork).completeLoad id view members)
      view child index key (Arrival.upToFault child fetched).1 members := by
  have known := Model.entity_self displays.known
  have stored : ∀ identity ∈ (Arrival.upToFault child fetched).1.map (·.identity),
      identity.table = view.childTable := by
    intro identity member
    obtain ⟨arrival, arrived, rfl⟩ := List.mem_map.mp member
    exact (Arrival.table_of_mem arrived).trans displays.table
  exact {
    toTakesIn := takesIn_intake formed known fetched
    ordered := rfl
    nodup := RowStore.nodup_gathered ..
    complete := fun identity =>
      RowStore.mem_gathered (intake_attached formed known fetched).formed stored }

-- Line 2 has moved to order 2, line 3 is deleted, and line 4 has never been stored.
def linesChanged : Program Unit Unit :=
  .perform (.attach "Order" [.integer 1]) fun _ =>
  .perform (.attach "Line" [.integer 1, .integer 1]) fun _ =>
  .perform (.attach "Line" [.integer 2, .integer 1]) fun _ =>
  .perform (.attach "Line" [.integer 3, .integer 1]) fun _ =>
  .perform (.write ⟨2⟩ "order" (.integer 2)) fun _ =>
  .perform (.delete ⟨3⟩) fun _ =>
  .perform (.insert "Line" [("id", .integer 4), ("order", .integer 1)]) fun _ =>
  .perform (.openView ⟨"orders", [.integer 1]⟩ "lines") fun _ =>
  .done ()

-- Row sources all answer with the same rows.
def bringing (rows : List (List Value)) : Environment Unit where
  columnChanging _ _ := .done (.ok ())
  rowDeleting _ _ := .done (.ok ())
  fetch _ _ _ := .done (.ok rows)

def linesStored : List (List Value) :=
  [[.integer 2, .integer 1], [.integer 3, .integer 1], [.integer 5, .integer 1],
    [.integer 1, .integer 1], [.integer 5, .integer 1]]

end RelationalMapper.Cache
