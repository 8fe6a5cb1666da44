import RelationalMapper.Cache.Program
import RelationalMapper.Proofs.View.Faithful

set_option autoImplicit false

namespace RelationalMapper.Cache

variable {σ : Type}

structure Write where
  row : RowId
  column : String
  value : Value
deriving DecidableEq

/-- An operation that was performed, with the units of work around it. -/
structure Step where
  before : UnitOfWork
  operation : Operation
  result : Except Fault operation.Answer
  after : UnitOfWork

namespace UnitOfWork

def members? (unit : UnitOfWork) (id : ViewId) : Option (List ObjectIdentity) :=
  (unit.views.get? id).bind (·.members?)

def insertion (unit : UnitOfWork) (entity : String) (values : List (String × Value)) : List Write :=
  match unit.beginInsert entity values with
  | .error _ => []
  | .ok ((row, _, pending), started) =>
    match started.identityOf row with
    | .error _ => []
    | .ok identity =>
      (pending.filter fun entry => identity.key ≠ [entry.2]).map fun entry => ⟨row, entry.1, entry.2⟩

def addition (unit : UnitOfWork) (id : ViewId) (row : RowId) : List Write :=
  match unit.view id with
  | .error _ => []
  | .ok view =>
    match unit.ownerKey view with
    | .error _ | .ok none => []
    | .ok (some key) => [⟨row, view.relation.childKey, key⟩]

def removal (unit : UnitOfWork) (id : ViewId) (row : RowId) : List Write :=
  match unit.view id with
  | .error _ => []
  | .ok view => [⟨row, view.relation.childKey, .null⟩]

end UnitOfWork

def Step.writes : Step → List Write
  | ⟨_, .write row column value, .ok _, _⟩ => [⟨row, column, value⟩]
  | ⟨before, .insert entity values, .ok _, _⟩ => before.insertion entity values
  | ⟨before, .add view row, .ok _, _⟩ => before.addition view row
  -- A row of another table is written before it turns out not to have joined.
  | ⟨before, .add view row, .error (.didNotJoin ..), after⟩ =>
    if (after.members? view).isSome then before.addition view row else []
  | ⟨before, .remove view row, .ok _, _⟩ => before.removal view row
  | _ => []

def UnitOfWork.Reshaped (after before : UnitOfWork) : Prop :=
  ∀ id view', after.views.get? id = some view' → ∃ view, before.views.get? id = some view ∧
    view'.Alike view ∧ view'.members?.isSome = view.members?.isSome

namespace UnitOfWork.Reshaped

variable {before unit after : UnitOfWork}

theorem of_views (same : after.views = before.views) : after.Reshaped before := by
  intro id view found
  rw [same] at found
  exact ⟨view, found, .refl view, rfl⟩

theorem trans (second : after.Reshaped unit) (first : unit.Reshaped before) :
    after.Reshaped before := by
  intro id view' found
  obtain ⟨view, held, alike, loaded⟩ := second id view' found
  obtain ⟨older, stood, alike', loaded'⟩ := first id view held
  exact ⟨older, stood, alike.trans alike', loaded.trans loaded'⟩

theorem was_loaded (reshaped : after.Reshaped before) {id : ViewId} {view : RelationView}
    (found : after.views.get? id = some view) (loaded : view.members?.isSome) :
    before.members? id ≠ none := by
  obtain ⟨older, stood, -, same⟩ := reshaped id view found
  rw [UnitOfWork.members?, stood, Option.bind_some]
  intro unloaded
  rw [same, unloaded] at loaded
  cases loaded

end UnitOfWork.Reshaped

structure Progress (model : Model) (before after : UnitOfWork) (written : List Write) : Prop where
  succeeds : after.store.Succeeds before.store
  early : ∀ write ∈ written, write.row.number < after.store.nextNumber
  alike : ∀ id view view', before.views.get? id = some view → after.views.get? id = some view' →
    view'.Alike view
  faithful : ∀ id view index key known, view.Keyed model index key →
    before.Faithful id view index key known →
    ∃ view', after.Faithful id view' index key fun row =>
      known row ∨ ⟨row, view.relation.childKey, key⟩ ∈ written
  loads : ∀ id view index key, before.members? id = none → after.views.get? id = some view →
    view.members?.isSome → view.Keyed model index key →
    after.Faithful id view index key after.Tracked

namespace Progress

variable {model : Model} {before between after unit : UnitOfWork} {written : List Write}

theorem of_reshaped (reshaped : after.Reshaped before) (succeeds : after.store.Succeeds before.store)
    (early : ∀ write ∈ written, write.row.number < after.store.nextNumber)
    (faithful : ∀ id view index key known, view.Keyed model index key →
      before.Faithful id view index key known →
      ∃ view', after.Faithful id view' index key fun row =>
        known row ∨ ⟨row, view.relation.childKey, key⟩ ∈ written) :
    Progress model before after written where
  succeeds := succeeds
  early := early
  alike id view view' found found' := by
    obtain ⟨older, stood, alike, -⟩ := reshaped id view' found'
    cases found.symm.trans stood
    exact alike
  faithful := faithful
  loads id view' index key unloaded found loaded _ :=
    absurd unloaded (reshaped.was_loaded found loaded)

theorem of_views (same : after.views = before.views)
    (extended : after.store.Extends before.store) : Progress model before after [] := by
  refine of_reshaped (.of_views same) extended.succeeds (List.forall_mem_nil _) fun id view index key known _ faithful => ?_
  have still : after.views.get? id = before.views.get? id := by rw [same]
  exact ⟨view, (faithful.extend still extended).congr fun row => or_iff_left List.not_mem_nil⟩

theorem refl (unit : UnitOfWork) : Progress model unit unit [] :=
  of_views rfl (.refl _)

-- A step after the rows have come in, which neither brings in nor forgets any.
theorem trans {later : List Write} (first : Progress model before between written)
    (second : Progress model between after later)
    (opened : ∀ id, (after.views.get? id).isSome → (between.views.get? id).isSome)
    (tracked : ∀ row, after.Tracked row ↔ between.Tracked row)
    (known : ∀ write ∈ later, between.Tracked write.row) :
    Progress model before after (written ++ later) where
  succeeds := second.succeeds.trans first.succeeds
  early write member := by
    rcases List.mem_append.mp member with wrote | wrote
    · exact Nat.lt_of_lt_of_le (first.early write wrote) second.succeeds.numbers
    · exact second.early write wrote
  alike id view view' found found' := by
    obtain ⟨middle, held⟩ := Option.isSome_iff_exists.mp
      (opened id (by rw [found']; rfl))
    exact (second.alike id middle view' held found').trans (first.alike id view middle found held)
  faithful id view index key known keyed faithful := by
    obtain ⟨middle, faithful'⟩ := first.faithful id view index key known keyed faithful
    have alike := first.alike id view middle faithful.found faithful'.found
    obtain ⟨last, faithful''⟩ := second.faithful id middle index key _ (keyed.alike alike) faithful'
    refine ⟨last, faithful''.congr fun row => ?_⟩
    rw [alike.relation, List.mem_append, or_assoc]
  loads id view index key unloaded found loaded keyed := by
    obtain ⟨middle, held⟩ := Option.isSome_iff_exists.mp
      (opened id (by rw [found]; rfl))
    have alike := second.alike id middle view held found
    have keyed' : middle.Keyed model index key := keyed.alike alike.symm
    cases state : middle.members? with
    | none =>
      have absent : between.members? id = none := by rw [UnitOfWork.members?, held]; exact state
      exact second.loads id view index key absent found loaded keyed
    | some members =>
      have faithful := first.loads id middle index key unloaded held (by rw [state]; rfl) keyed'
      obtain ⟨last, faithful'⟩ := second.faithful id middle index key _ keyed' faithful
      cases found.symm.trans faithful'.found
      refine faithful'.congr fun row => ?_
      rw [tracked]
      exact (or_iff_left_of_imp fun wrote => known ⟨row, _, key⟩ wrote).symm

end Progress

namespace UnitOfWork

variable {model : Model} {unit after : UnitOfWork} {row : RowId} {record : RowRecord}

theorem tracked_changed (change : ColumnChange) (place : Nat) :
    (unit.changed change place).Tracked row ↔ unit.Tracked row := by
  change ((unit.store.write change.row place change.proposed).records.get? row).isSome ↔ _
  rw [RowStore.records_write]
  split <;> simp [Tracked]

theorem identityOf_changed {column : String} {value : Value}
    {change : ColumnChange} {place : Nat}
    (found : unit.changeOf row column value = .ok (change, place)) :
    ∃ identity, (unit.changed change place).identityOf row = .ok identity := by
  obtain ⟨record, -, held, -⟩ := changeOf_eq_ok.mp found
  have there : (unit.changed change place).Tracked row := by
    rw [tracked_changed, Tracked, held]
    rfl
  obtain ⟨later, stands⟩ := Option.isSome_iff_exists.mp there
  exact ⟨later.identity, identityOf_eq_ok.mpr ⟨later, stands, rfl⟩⟩

theorem views_changed (plain : unit.Plain model) (change : ColumnChange) (place : Nat) (id : ViewId) :
    (unit.changed change place).views.get? id =
      (unit.views.get? id).map fun view =>
        if view.childTable = change.table then unit.afterChange change view else view :=
  plain.sound.get?_tellViews (unit.afterChange_unloaded change) .columnChanging change.table id

theorem changed_reshaped (plain : unit.Plain model) (change : ColumnChange) (place : Nat) :
    (unit.changed change place).Reshaped unit := by
  intro id view' found
  rw [views_changed plain, Option.map_eq_some_iff] at found
  obtain ⟨view, stood, rfl⟩ := found
  refine ⟨view, stood, ?_⟩
  split
  · exact RelationView.Repeopled.alike (unit.afterChange_eq change view)
  · exact ⟨.refl view, rfl⟩

theorem members?_changed (plain : unit.Plain model) (change : ColumnChange) (place : Nat) (id : ViewId) :
    ((unit.changed change place).members? id).isSome = (unit.members? id).isSome := by
  rw [members?, members?, views_changed plain]
  cases unit.views.get? id with
  | none => rfl
  | some view =>
    rw [Option.map_some, Option.bind_some, Option.bind_some]
    split
    · exact (RelationView.Repeopled.alike (unit.afterChange_eq change view)).2
    · rfl

theorem changed_progress (wellMapped : model.WellMapped) (plain : unit.Plain model) {column : String}
    {value : Value} {change : ColumnChange} {place : Nat}
    (found : unit.changeOf row column value = .ok (change, place)) (idle : unit.inserting = none) :
    Progress model unit (unit.changed change place) [⟨row, column, value⟩] := by
  obtain ⟨record, entity, held, live, known, placed, outside, built⟩ := changeOf_eq_ok.mp found
  have early : row.number < unit.store.nextNumber := plain.sound.rows.numbered row record held
  refine .of_reshaped (changed_reshaped plain change place) (.write ..) (List.forall_mem_singleton.mpr early)
    fun id view index key knows keyed faithful => ?_
  have steady : ¬unit.SelfReferring change record.identity :=
    fun selfish => nomatch idle.symm.trans selfish.1
  obtain ⟨view', -, faithful'⟩ := faithful.changed wellMapped plain keyed change place
    (by rw [built]; exact held) live (plain.sound.modelled ▸ known) (by rw [built]; exact placed)
    (by rw [built]) (by rw [built]) (fun _ selfish => absurd selfish steady)
  refine ⟨view', faithful'.congr fun other => or_congr_right ?_⟩
  rw [List.mem_singleton, Write.mk.injEq]
  constructor
  · rintro ⟨here, foreign, joins⟩
    rw [built]
    exact ⟨here, foreign.symm, joins.symm, by rwa [built] at steady⟩
  · rintro ⟨here, foreign, joins, _⟩
    rw [built] at here foreign joins
    exact ⟨here, foreign.symm, joins.symm⟩

theorem removed_reshaped (plain : unit.Plain model) (deletion : RowDeletion) (record : RowRecord) :
    (unit.removed deletion record).Reshaped unit := by
  intro id view' found
  have told := plain.sound.get?_tellViews (unit.afterDeletion_unloaded deletion) .rowDeleting
    deletion.table id
  obtain ⟨view, stood, rfl⟩ := Option.map_eq_some_iff.mp (told.symm.trans found)
  refine ⟨view, stood, ?_⟩
  split
  · exact RelationView.Repeopled.alike (unit.afterDeletion_eq deletion view)
  · exact ⟨.refl view, rfl⟩

theorem changeOf_ne_didNotJoin (unit : UnitOfWork) (row : RowId) (column : String) (value : Value)
    (identity : ObjectIdentity) (name : String) :
    unit.changeOf row column value ≠ .error (.didNotJoin identity name) := by
  unfold changeOf RowStore.liveRecord RowStore.record Model.entity Entity.columnIndex
  simp only [Bind.bind, Except.bind, Pure.pure, Except.pure, throw, throwThe, MonadExceptOf.throw]
  grind

-- The columns of a row under insertion are written once each, so that the row is not known before
-- its foreign key is written.
theorem Written.faithful {values : List (String × Value)} (written : Written row values unit after)
    (wellMapped : model.WellMapped) (plain : unit.Plain model) (once : (values.map (·.1)).Nodup)
    (inserting : unit.inserting = some row) (held : unit.store.records.get? row = some record)
    {id : ViewId} {view : RelationView} {index : Nat} {key : Value} {known : RowId → Prop}
    (keyed : view.Keyed model index key) (faithful : unit.Faithful id view index key known)
    (unknown : view.relation.childKey ∈ values.map (·.1) → ¬known row) :
    ∃ view', view'.Alike view ∧ after.Faithful id view' index key fun other =>
      known other ∨ other = row ∧ (view.relation.childKey, key) ∈ values ∧
        record.identity.key ≠ [key] := by
  induction written generalizing record view known with
  | nil unit =>
    refine ⟨view, .refl view, faithful.congr fun other => ?_⟩
    exact or_iff_left fun wrote => nomatch wrote.2.1
  | @cons column value rest unit after change place found later ih =>
    obtain ⟨stood, entity, same, live, entityKnown, placed, outside, built⟩ := changeOf_eq_ok.mp found
    cases same.symm.trans held
    obtain ⟨fresh, once⟩ := List.nodup_cons.mp once
    have selfish : unit.SelfReferring change record.identity ↔ record.identity.key = [value] := by
      rw [built]
      exact and_iff_right inserting
    obtain ⟨between, alike, faithful⟩ := faithful.changed wellMapped plain keyed change place
      (by rw [built]; exact held) live (plain.sound.modelled ▸ entityKnown)
      (by rw [built]; exact placed) (by rw [built]) (by rw [built])
      (fun foreign _ => by
        rw [built] at foreign ⊢
        exact unknown (List.mem_cons.mpr (.inl foreign.symm)))
    have still : (unit.changed change place).store.records.get? row =
        some (record.write place value) := by
      change (unit.store.write change.row place change.proposed).records.get? row = _
      rw [built, RowStore.records_write, if_pos rfl, held]
      rfl
    obtain ⟨view', alike', faithful'⟩ := ih (plain.changed found) once inserting still
      (keyed.alike alike) faithful (by
        rw [alike.relation]
        intro foreign knows
        rcases knows with knows | ⟨-, here, -⟩
        · exact unknown (List.mem_cons_of_mem _ foreign) knows
        · rw [built] at here
          have here : column = view.relation.childKey := here
          exact fresh (here ▸ foreign : column ∈ rest.map (·.1)))
    refine ⟨view', alike'.trans alike, faithful'.congr fun other => ?_⟩
    rw [alike.relation, selfish, built, List.mem_cons, Prod.mk.injEq]
    constructor
    · intro given
      rcases given with knows | ⟨rfl, ⟨here, rfl⟩ | there, apart⟩
      · exact .inl (.inl knows)
      · exact .inl (.inr ⟨rfl, here.symm, rfl, apart⟩)
      · exact .inr ⟨rfl, there, apart⟩
    · intro given
      rcases given with (knows | ⟨rfl, here, rfl, apart⟩) | ⟨rfl, there, apart⟩
      · exact .inl knows
      · exact .inr ⟨rfl, .inl ⟨here.symm, rfl⟩, apart⟩
      · exact .inr ⟨rfl, .inr there, apart⟩

theorem Written.reshaped {values : List (String × Value)} (written : Written row values unit after)
    (plain : unit.Plain model) : after.Reshaped unit := by
  induction written with
  | nil unit => exact .of_views rfl
  | cons found _ ih => exact (ih (plain.changed found)).trans (changed_reshaped plain _ _)

theorem Written.succeeds {values : List (String × Value)} (written : Written row values unit after) :
    after.store.Succeeds unit.store := by
  induction written with
  | nil unit => exact .refl _
  | cons found _ ih => exact ih.trans (.write ..)

structure Started (started unit : UnitOfWork) (row : RowId) (pending : List (String × Value))
    (entity : Entity) (identity : ObjectIdentity) (arranged : List Value) : Prop where
  distinct : (pending.map (·.1)).Nodup
  next : row = ⟨unit.store.nextNumber⟩
  held : started.store.records.get? row = some (beginning entity identity arranged)
  inserting : started.inserting = some row
  views : started.views = unit.views
  extended : started.store.Extends unit.store

theorem started_of_beginInsert {name table : String}
    {values pending : List (String × Value)} {started : UnitOfWork}
    (begun : unit.beginInsert name values = .ok ((row, table, pending), started)) :
    ∃ entity identity arranged, Started started unit row pending entity identity arranged := by
  obtain ⟨entity, arranged, identity, known, placed, own, free, rfl, rfl, rfl, rfl⟩ :=
    beginInsert_eq_ok.mp begun
  refine ⟨entity, identity, arranged, nodup_pendingValues placed, rfl, ?_, rfl, rfl,
    .register unit.store free⟩
  rw [RowStore.records_register, if_pos rfl]

theorem mem_insertion {name table : String} {values pending : List (String × Value)}
    {started : UnitOfWork} {entity : Entity} {identity : ObjectIdentity} {arranged : List Value}
    (begun : unit.beginInsert name values = .ok ((row, table, pending), started))
    (start : Started started unit row pending entity identity arranged) (write : Write) :
    write ∈ unit.insertion name values ↔ write.row = row ∧ (write.column, write.value) ∈ pending ∧
      identity.key ≠ [write.value] := by
  have own : started.identityOf row = .ok identity := identityOf_eq_ok.mpr ⟨_, start.held, rfl⟩
  simp only [insertion, begun, own, List.mem_map, List.mem_filter, decide_eq_true_eq]
  constructor
  · rintro ⟨⟨column, value⟩, ⟨member, apart⟩, same⟩
    rw [← same]
    exact ⟨rfl, member, apart⟩
  · rintro ⟨here, member, apart⟩
    exact ⟨(write.column, write.value), ⟨member, apart⟩, by rw [← here]⟩

theorem insert_progress (wellMapped : model.WellMapped) {name table : String}
    {values pending : List (String × Value)} {started : UnitOfWork}
    (begun : unit.beginInsert name values = .ok ((row, table, pending), started))
    (ready : started.Plain model) (written : Written row pending started after) :
    Progress model unit { after with inserting := unit.inserting } (unit.insertion name values) := by
  obtain ⟨entity, identity, arranged, start⟩ := started_of_beginInsert begun
  have reshaped : after.Reshaped unit := (written.reshaped ready).trans (.of_views start.views)
  have succeeds : after.store.Succeeds started.store := written.succeeds
  have early : row.number < after.store.nextNumber :=
    Nat.lt_of_lt_of_le (ready.sound.rows.numbered row _ start.held) succeeds.numbers
  refine .of_reshaped reshaped (succeeds.trans start.extended.succeeds) ?_
    fun id view index key knows keyed faithful => ?_
  · intro write member
    rwa [((mem_insertion begun start write).mp member).1]
  have begins := faithful.extend (by rw [start.views]) start.extended
  obtain ⟨view', -, learned⟩ := written.faithful wellMapped ready start.distinct start.inserting start.held
    keyed begins (fun _ knows => by
      have early := faithful.early row knows
      rw [start.next] at early
      exact absurd early (Nat.lt_irrefl _))
  have same := learned.congr fun other => or_congr_right
    (mem_insertion begun start ⟨other, view.relation.childKey, key⟩)
  exact ⟨view', same.found, same.live, same.early, same.mirrors⟩

theorem Sound.completeLoad (sound : unit.Sound model) {id : ViewId} {view : RelationView}
    (found : unit.views.get? id = some view) (unloaded : view.state = .unloaded)
    (members : List ObjectIdentity) : (unit.completeLoad id view members).Sound model where
  modelled := sound.modelled
  rows := sound.rows
  proper other held stood := by
    rw [UnitOfWork.completeLoad, Assoc.get?_insert] at stood
    split at stood
    · cases stood
      exact RelationView.Proper.alike (view.withState_alike _) (sound.proper id view found)
    · exact sound.proper other held stood
  wired := sound.wired.completeLoad found unloaded members

theorem Plain.completeLoad (plain : unit.Plain model) {id : ViewId} {view : RelationView}
    (found : unit.views.get? id = some view) (unloaded : view.state = .unloaded)
    (members : List ObjectIdentity) : (unit.completeLoad id view members).Plain model where
  sound := plain.sound.completeLoad found unloaded members
  alone := by
    intro channel table subscriber member
    obtain ⟨subscription, among, rfl⟩ := List.mem_map.mp member
    simp only [UnitOfWork.completeLoad, Channels.on_subscribe] at among
    have listed : subscription ∈ unit.channels.on channel table ∨
        subscription.subscriber = .view id := by grind
    rcases listed with earlier | own
    · exact plain.alone channel table _ (List.mem_map_of_mem earlier)
    · exact ⟨id, own⟩

theorem Loading.plain {id : ViewId} {result : Except Fault Unit} (loading : Loading model unit id result after)
    (plain : unit.Plain model) : after.Plain model := by
  cases loading with
  | already => exact plain
  | failed fault attached => exact attached.plain plain
  | loaded found unloaded attached live known mirrors =>
    refine (attached.plain plain).completeLoad ?_ unloaded _
    rw [attached.same]
    exact found

theorem Loading.progress (wellMapped : model.WellMapped) {id : ViewId} {result : Except Fault Unit}
    (loading : Loading model unit id result after) (plain : unit.Plain model) :
    Progress model unit after [] := by
  cases loading with
  | already => exact .refl unit
  | failed fault attached =>
    exact .of_views (by rw [attached.same]) attached.extended
  | @loaded view between members found unloaded attached live known mirrors =>
    have stable (other : ViewId) (apart : id ≠ other) :
        (between.completeLoad id view members).views.get? other = unit.views.get? other := by
      rw [completeLoad, Assoc.get?_insert, if_neg apart, attached.same]
    obtain ⟨changing, deleting, own⟩ : ∃ changing deleting,
        (between.completeLoad id view members).views.get? id =
          some { view with state := .loaded members changing deleting } :=
      ⟨_, _, by rw [completeLoad, Assoc.get?_insert, if_pos rfl]⟩
    refine ⟨attached.extended.succeeds, (List.forall_mem_nil _), ?_, ?_, ?_⟩
    · intro other before later stood found'
      by_cases here : id = other
      · subst here
        cases found.symm.trans stood
        cases own.symm.trans found'
        exact view.withState_alike _
      · rw [stable other here, stood] at found'
        cases found'
        exact .refl before
    · intro other before index key known keyed faithful
      by_cases here : id = other
      · subst here
        cases found.symm.trans faithful.found
        obtain ⟨held, loaded, -⟩ := faithful.mirrors
        rw [RelationView.members?, unloaded] at loaded
        cases loaded
      · exact ⟨before, (faithful.extend (stable other here) attached.extended).congr
          fun row => or_iff_left List.not_mem_nil⟩
    · intro other later index key absent found' loaded keyed
      by_cases here : id = other
      · subst here
        cases own.symm.trans found'
        have keyed' : view.Keyed model index key := keyed.alike (view.withState_alike _).symm
        have owned := ownerKey_of_keyed wellMapped plain.sound keyed' live
        obtain ⟨parent, child, parentIndex, -, ends, -⟩ := keyed'
        obtain ⟨owner, alive⟩ := Option.isSome_iff_exists.mp live
        refine ⟨own, ?_, ?_, members, rfl, mirrors parent child parentIndex index key ends owned⟩
        · exact Option.isSome_iff_exists.mpr ⟨owner, attached.extended.live _ _ alive⟩
        · intro row there
          obtain ⟨record, held⟩ := Option.isSome_iff_exists.mp there
          exact attached.formed.numbered row record held
      · rw [stable other here] at found'
        rw [members?, found', Option.bind_some] at absent
        rw [absent] at loaded
        cases loaded

theorem Loading.inserting {id : ViewId} {result : Except Fault Unit}
    (loading : Loading model unit id result after) : after.inserting = unit.inserting := by
  cases loading with
  | already => rfl
  | failed fault attached => rw [attached.same]
  | loaded found unloaded attached live known mirrors =>
    rw [completeLoad, attached.same]

theorem Loading.unloaded {id : ViewId} {fault : Fault} (loading : Loading model unit id (.error fault) after) :
    after.members? id = none := by
  cases loading with
  | failed fault attached unloaded =>
    rw [members?, attached.same]
    cases found : unit.views.get? id with
    | none => rfl
    | some view => rw [Option.bind_some, RelationView.members?, unloaded view found]

theorem Loading.same {id : ViewId} {result : Except Fault Unit} (loading : Loading model unit id result after)
    (loaded : (unit.members? id).isSome) : result = .ok () ∧ after = unit := by
  have loaded_state (view : RelationView) (found : unit.views.get? id = some view) :
      view.state ≠ .unloaded := by
    intro unloaded
    rw [members?, found, Option.bind_some, RelationView.members?, unloaded] at loaded
    cases loaded
  cases loading with
  | already => exact ⟨rfl, rfl⟩
  | failed fault attached unloaded =>
    obtain ⟨members, held⟩ := Option.isSome_iff_exists.mp loaded
    obtain ⟨view, found, -⟩ := Option.bind_eq_some_iff.mp held
    exact absurd (unloaded view found) (loaded_state view found)
  | loaded found unloaded => exact absurd unloaded (loaded_state _ found)

theorem Loading.found (sound : unit.Sound model) {id : ViewId}
    (loading : Loading model unit id (.ok ()) after) :
    ∃ before view members, unit.views.get? id = some before ∧ after.views.get? id = some view ∧
      view.members? = some members ∧ view.Alike before ∧
      after.ownerKey view = unit.ownerKey before := by
  cases loading with
  | @already view found loaded =>
    cases state : view.state with
    | unloaded => exact absurd state loaded
    | loaded members changing deleting =>
      exact ⟨view, view, members, found, found, by rw [RelationView.members?, state], .refl view, rfl⟩
  | @loaded view between members found unloaded attached live known mirrors =>
    refine ⟨view, _, members, found, by rw [completeLoad, Assoc.get?_insert, if_pos rfl], rfl,
      view.withState_alike _, ?_⟩
    obtain ⟨owner, alive⟩ := Option.isSome_iff_exists.mp live
    obtain ⟨record, held, -⟩ := (sound.rows.live _ _).mp alive
    have there := attached.extended.live _ _ alive
    have model : between.model = unit.model := by rw [attached.same]
    refine ownerKey_congr model (there.trans alive.symm) fun other among => ?_
    cases alive.symm.trans among
    exact attached.extended.records owner (sound.rows.numbered owner record held)

theorem Loading.changed_progress (wellMapped : model.WellMapped) (plain : unit.Plain model) {id : ViewId}
    {between : UnitOfWork} {result : Except Fault Unit} (loading : Loading model unit id result between)
    (idle : unit.inserting = none) {column : String} {value : Value} {change : ColumnChange} {place : Nat}
    (found : between.changeOf row column value = .ok (change, place)) :
    Progress model unit (between.changed change place) [⟨row, column, value⟩] := by
  have ready := loading.plain plain
  have changed := UnitOfWork.changed_progress wellMapped ready found (loading.inserting.trans idle)
  obtain ⟨record, -, held, -⟩ := changeOf_eq_ok.mp found
  refine (loading.progress wellMapped plain).trans changed ?_ (fun other => tracked_changed change place) ?_
  · intro other there
    rwa [views_changed ready, Option.isSome_map] at there
  · intro write member
    rw [List.mem_singleton.mp member, Tracked, held]
    rfl

theorem views_invalidate (unit : UnitOfWork) (id other : ViewId) :
    (unit.invalidate id).views.get? other = (unit.views.get? other).map fun view =>
      if id = other then { view with state := .unloaded } else view := by
  unfold UnitOfWork.invalidate
  split
  next absent =>
    by_cases here : id = other
    · simp [← here, absent]
    · simp [here]
  next view found =>
    split
    next unloaded =>
      by_cases here : id = other
      · obtain ⟨owner, relation, childEntity, childTable, state⟩ := view
        cases unloaded
        simp [← here, found]
      · simp [here]
    next =>
      rw [Assoc.get?_insert]
      by_cases here : id = other
      · simp [← here, found]
      · simp [here]

theorem on_invalidate (unit : UnitOfWork) (id : ViewId) (channel : Channel) (table : String)
    (subscription : Subscription)
    (member : subscription ∈ (unit.invalidate id).channels.on channel table) :
    subscription ∈ unit.channels.on channel table := by
  unfold UnitOfWork.invalidate at member
  split at member
  · exact member
  · split at member
    · exact member
    · simp only [Channels.on_unsubscribe] at member
      exact (List.mem_filter.mp (List.mem_filter.mp member).1).1

theorem inserting_invalidate (unit : UnitOfWork) (id : ViewId) :
    (unit.invalidate id).inserting = unit.inserting := by
  unfold UnitOfWork.invalidate
  split
  · rfl
  · split <;> rfl

theorem nextView_invalidate (unit : UnitOfWork) (id : ViewId) :
    (unit.invalidate id).nextView = unit.nextView := by
  unfold UnitOfWork.invalidate
  split
  · rfl
  · split <;> rfl

def ViewsAlike (after before : UnitOfWork) : Prop :=
  ∀ id view, after.views.get? id = some view → ∃ older, before.views.get? id = some older ∧ view.Alike older

namespace ViewsAlike

theorem tellViews {patch : RelationView → RelationView} (patches : ∀ view, (patch view).Repeopled view)
    (heard : List Subscriber) (unit : UnitOfWork) :
    ViewsAlike { unit with views := tellViews patch heard unit.views } unit := by
  intro id view found
  rw [get?_tellViews, Option.map_eq_some_iff] at found
  obtain ⟨older, stood, rfl⟩ := found
  exact ⟨older, stood, (RelationView.Repeopled.iterate patches _ older).alike.1⟩

theorem completeLoad {unit : UnitOfWork} {id : ViewId} {view : RelationView}
    (stood : unit.views.get? id = some view) (members : List ObjectIdentity) :
    (unit.completeLoad id view members).ViewsAlike unit := by
  intro other later found
  rw [UnitOfWork.completeLoad, Assoc.get?_insert] at found
  split at found
  next here =>
    cases found
    exact ⟨view, here ▸ stood, view.withState_alike _⟩
  next => exact ⟨later, found, .refl later⟩

theorem invalidate (unit : UnitOfWork) (id : ViewId) : (unit.invalidate id).ViewsAlike unit := by
  intro other view found
  rw [views_invalidate, Option.map_eq_some_iff] at found
  obtain ⟨older, stood, rfl⟩ := found
  refine ⟨older, stood, ?_⟩
  split
  · exact older.withState_alike _
  · exact .refl older

theorem closeView (unit : UnitOfWork) (id : ViewId) : (unit.closeView id).ViewsAlike unit := by
  intro other view found
  change ((unit.invalidate id).views.erase id).get? other = some view at found
  rw [Assoc.get?_erase] at found
  split at found
  · cases found
  · exact ViewsAlike.invalidate unit id other view found

end ViewsAlike

theorem Sound.invalidate (sound : unit.Sound model) (id : ViewId) : (unit.invalidate id).Sound model where
  modelled := by rw [model_invalidate]; exact sound.modelled
  rows := by rw [store_invalidate]; exact sound.rows
  proper other view found := by
    obtain ⟨older, stood, alike⟩ := ViewsAlike.invalidate unit id other view found
    exact .alike alike (sound.proper other older stood)
  wired := sound.wired.invalidate id

theorem Sound.closeView (sound : unit.Sound model) (id : ViewId) : (unit.closeView id).Sound model where
  modelled := (sound.invalidate id).modelled
  rows := (sound.invalidate id).rows
  proper other view found := by
    obtain ⟨older, stood, alike⟩ := ViewsAlike.closeView unit id other view found
    exact .alike alike (sound.proper other older stood)
  wired := sound.wired.closeView id

theorem Plain.invalidate (plain : unit.Plain model) (id : ViewId) : (unit.invalidate id).Plain model where
  sound := plain.sound.invalidate id
  alone := by
    intro channel table subscriber member
    obtain ⟨subscription, among, rfl⟩ := List.mem_map.mp member
    exact plain.alone channel table _ (List.mem_map_of_mem (on_invalidate unit id _ _ _ among))

theorem Plain.closeView (plain : unit.Plain model) (id : ViewId) : (unit.closeView id).Plain model where
  sound := plain.sound.closeView id
  alone := (plain.invalidate id).alone

end UnitOfWork

end RelationalMapper.Cache
