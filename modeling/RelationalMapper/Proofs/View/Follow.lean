import Mathlib.Logic.Function.Iterate
import RelationalMapper.Proofs.Run.Step
import RelationalMapper.Proofs.Schema.Validity
import RelationalMapper.Proofs.View.Wiring

set_option autoImplicit false

namespace RelationalMapper.Cache

namespace RelationView

variable (view : RelationView) (members : List ObjectIdentity)

@[simp] theorem owner_withMembers : (view.withMembers members).owner = view.owner := by
  unfold withMembers
  split <;> rfl

@[simp] theorem relation_withMembers : (view.withMembers members).relation = view.relation := by
  unfold withMembers
  split <;> rfl

@[simp] theorem childEntity_withMembers :
    (view.withMembers members).childEntity = view.childEntity := by
  unfold withMembers
  split <;> rfl

@[simp] theorem childTable_withMembers :
    (view.withMembers members).childTable = view.childTable := by
  unfold withMembers
  split <;> rfl

@[simp] theorem members?_withMembers :
    (view.withMembers members).members? = view.members?.map fun _ => members := by
  obtain ⟨owner, relation, childEntity, childTable, state⟩ := view
  cases state <;> rfl

@[simp] theorem subscriptions_withMembers :
    (view.withMembers members).subscriptions = view.subscriptions := by
  obtain ⟨owner, relation, childEntity, childTable, state⟩ := view
  cases state <;> rfl

variable {view} in
theorem members?_eq_none : view.members? = none ↔ view.state = .unloaded := by
  unfold members?
  cases view.state <;> simp

theorem withMembers_of_unloaded (unloaded : view.members? = none) :
    view.withMembers members = view := by
  rw [withMembers, members?_eq_none.mp unloaded]

variable {view} in
theorem members?_of_loaded {members : List ObjectIdentity} (loaded : view.members? = some members)
    (others : List ObjectIdentity) : (view.withMembers others).members? = some others := by
  rw [members?_withMembers, loaded, Option.map_some]

theorem withMembers_self {members : List ObjectIdentity} (loaded : view.members? = some members) :
    view.withMembers members = view := by
  obtain ⟨owner, relation, childEntity, childTable, state⟩ := view
  cases state with
  | unloaded => rfl
  | loaded =>
    cases loaded
    rfl

@[simp] theorem withMembers_withMembers (others : List ObjectIdentity) :
    (view.withMembers members).withMembers others = view.withMembers others := by
  obtain ⟨owner, relation, childEntity, childTable, state⟩ := view
  cases state <;> rfl

structure Ends (view : RelationView) (model : Model) (parent child : Entity)
    (parentIndex childIndex : Nat) : Prop where
  parentKnown : model.entity view.relation.parent = .ok parent
  parentKey : parent.columnIndex view.relation.parentKey = .ok parentIndex
  owner : parent.table = view.owner.table
  childKnown : model.entity view.relation.child = .ok child
  childKey : child.columnIndex view.relation.childKey = .ok childIndex
  childEntity : view.childEntity = child.name
  childTable : view.childTable = child.table

def Proper (view : RelationView) (model : Model) : Prop :=
  ∃ parent child parentIndex childIndex, view.Ends model parent child parentIndex childIndex

variable {view} {model : Model} in
theorem Proper.withMembers (proper : view.Proper model) (members : List ObjectIdentity) :
    (view.withMembers members).Proper model := by
  obtain ⟨parent, child, parentIndex, childIndex, ends⟩ := proper
  refine ⟨parent, child, parentIndex, childIndex, ?_⟩
  constructor <;> simp only [relation_withMembers, owner_withMembers, childEntity_withMembers,
    childTable_withMembers]
  · exact ends.parentKnown
  · exact ends.parentKey
  · exact ends.owner
  · exact ends.childKnown
  · exact ends.childKey
  · exact ends.childEntity
  · exact ends.childTable

variable {model : Model} in
-- The two ends of a relation have the columns it joins, since the model is valid.
theorem proper_opened {owner : ObjectIdentity} {name : String} {ownerEntity child : Entity}
    {relation : Relation} (valid : model.validate = .ok ())
    (named : (model.entities.map (·.name)).Nodup)
    (mapped : model.entityForTable owner.table = .ok ownerEntity)
    (listed : ownerEntity.relation name = .ok relation) (parent : relation.parent = ownerEntity.name)
    (known : model.entity relation.child = .ok child) :
    (⟨owner, relation, child.name, child.table, .unloaded⟩ : RelationView).Proper model := by
  obtain ⟨member, table⟩ := Model.entityForTable_eq_ok mapped
  obtain ⟨_, _, _, _, parentKnown, childKnown, parentHas, childHas, -⟩ :=
    Model.joins valid member (Entity.relation_eq_ok listed)
  obtain ⟨parentIndex, parentPlaced, -⟩ := Entity.columnIndex_of_column parentHas
  obtain ⟨childIndex, childPlaced, -⟩ := Entity.columnIndex_of_column childHas
  cases known.symm.trans childKnown
  rw [parent, Model.entity_eq_ok named member] at parentKnown
  cases parentKnown
  exact ⟨ownerEntity, child, parentIndex, childIndex, by rw [parent, Model.entity_eq_ok named member],
    parentPlaced, table, known, childPlaced, rfl, rfl⟩

end RelationView

def RowRecord.BelongsTo (record : RowRecord) (index : Nat) (state : RowState) (key : Value) : Prop :=
  (record.version .current).getD index .null = key ∨
    state ≠ .fresh ∧ (record.version .original).getD index .null = key

instance (record : RowRecord) (index : Nat) (state : RowState) (key : Value) :
    Decidable (record.BelongsTo index state key) :=
  inferInstanceAs (Decidable (_ ∨ _ ∧ _))

structure UnitOfWork.Sound (unit : UnitOfWork) (model : Model) : Prop where
  modelled : unit.model = model
  rows : unit.store.WellFormed model
  proper : ∀ id view, unit.views.get? id = some view → view.Proper model
  wired : unit.Wired

namespace UnitOfWork

variable {unit : UnitOfWork} {model : Model} {view : RelationView} {parent child : Entity}
  {parentIndex childIndex : Nat} {row : RowId} {record : RowRecord}

theorem Sound.openView (wellMapped : model.WellMapped) {after : UnitOfWork} {owner : ObjectIdentity}
    {name : String} {id : ViewId} (sound : unit.Sound model)
    (opened : unit.openView owner name = .ok (id, after)) : after.Sound model := by
  obtain ⟨ownerEntity, relation, child, mapped, listed, parent, known, rfl, rfl⟩ :=
    openView_eq_ok.mp opened
  obtain ⟨rfl, rows, proper, wired⟩ := sound
  refine ⟨rfl, rows, ?_, wired.openView _ rfl⟩
  intro id view found
  rw [Assoc.get?_insert] at found
  split at found
  next =>
    cases found
    exact RelationView.proper_opened wellMapped.valid wellMapped.named mapped listed parent known
  next => exact proper id view found

theorem Sound.formed (sound : unit.Sound model) : unit.model = model ∧ unit.store.WellFormed model :=
  ⟨sound.modelled, sound.rows⟩

section

variable (mapped : (model.entities.map (·.table)).Nodup)
  (formed : unit.model = model ∧ unit.store.WellFormed model)
  (ends : view.Ends model parent child parentIndex childIndex)

include mapped formed ends

theorem child_of_row (held : unit.store.records.get? row = some record)
    (here : record.table = view.childTable) :
    model.entity record.entity = .ok child ∧ record.Fits child := by
  obtain ⟨entity, known, fits⟩ := formed.2.fits row record held
  have same : entity = child := List.inj_on_of_nodup_map mapped (Model.entity_mem known)
    (Model.entity_mem ends.childKnown) (by rw [← fits.table, here, ends.childTable])
  rw [← same]
  exact ⟨known, fits⟩

theorem value_child (held : unit.store.records.get? row = some record)
    (here : record.table = view.childTable) (version : RowVersion) :
    unit.value row view.relation.childKey version =
      .ok ((record.version version).getD childIndex .null) := by
  obtain ⟨known, -⟩ := child_of_row mapped formed ends held here
  exact value_eq_ok.mpr ⟨record, child, childIndex, held, by rw [formed.1]; exact known,
    ends.childKey, rfl⟩

omit mapped formed in
theorem ownerKey_of_row (mapped : (model.entities.map (·.table)).Nodup) (modelled : unit.model = model)
    (formed : unit.store.WellFormed model) (live : unit.store.live.get? view.owner = some row) :
    ∃ record, unit.store.records.get? row = some record ∧ record.identity = view.owner ∧
      record.Fits parent ∧
      unit.ownerKey view = .ok
        (if (record.current.getD parentIndex .null).isNull then none
          else some (record.current.getD parentIndex .null)) := by
  obtain ⟨record, held, same, alive⟩ := (formed.live _ _).mp live
  obtain ⟨entity, known, fits⟩ := formed.fits row record held
  have parental : entity = parent := by
    refine List.inj_on_of_nodup_map mapped (Model.entity_mem known) (Model.entity_mem ends.parentKnown) ?_
    rw [ends.owner, ← same, fits.current.table]
  subst parental
  refine ⟨record, held, same, fits, ?_⟩
  have key : unit.value row view.relation.parentKey .current =
      .ok (record.current.getD parentIndex .null) :=
    value_eq_ok.mpr ⟨record, entity, parentIndex, held, by rw [modelled]; exact known, ends.parentKey, rfl⟩
  have lives : (unit.store.state row).isLive = true := RowStore.state_isLive.mpr ⟨record, held, alive⟩
  simp only [ownerKey, live, lives, if_true]
  rw [key]
  simp only [Bind.bind, Except.bind, Pure.pure, Except.pure]

omit mapped formed ends in
theorem ownerKey_of_dead (dead : unit.store.live.get? view.owner = none) :
    unit.ownerKey view = .ok none := by
  simp only [ownerKey, dead]
  rfl

theorem ownerKey_ok : ∃ key, unit.ownerKey view = .ok key := by
  cases live : unit.store.live.get? view.owner with
  | none => exact ⟨none, ownerKey_of_dead live⟩
  | some row =>
    obtain ⟨record, -, -, -, key⟩ :=
      ownerKey_of_row ends mapped formed.1 formed.2 live
    exact ⟨_, key⟩

end

@[simp] theorem ownerKey_withMembers (unit : UnitOfWork) (view : RelationView)
    (members : List ObjectIdentity) : unit.ownerKey (view.withMembers members) = unit.ownerKey view := by
  simp only [ownerKey, RelationView.owner_withMembers, RelationView.relation_withMembers]

theorem ownerKey_congr {before after : UnitOfWork} (model : after.model = before.model)
    (live : after.store.live.get? view.owner = before.store.live.get? view.owner)
    (records : ∀ row, before.store.live.get? view.owner = some row →
      after.store.records.get? row = before.store.records.get? row) :
    after.ownerKey view = before.ownerKey view := by
  unfold ownerKey
  rw [live]
  cases found : before.store.live.get? view.owner with
  | none => rfl
  | some row =>
    simp only [RowStore.state, UnitOfWork.value, RowStore.record, model, records row found]
    rfl

theorem ownerKey_present {key : Value} (owned : unit.ownerKey view = .ok (some key)) : key ≠ .null := by
  unfold ownerKey at owned
  split at owned
  · cases owned
  split at owned
  · obtain ⟨value, -, chosen⟩ := Except.bind_eq_ok.mp owned
    intro null
    subst null
    cases value <;> cases chosen
  · cases owned

theorem ownerKey_eq_some (mapped : (model.entities.map (·.table)).Nodup)
    (formed : unit.model = model ∧ unit.store.WellFormed model)
    (ends : view.Ends model parent child parentIndex childIndex) {key : Value} :
    unit.ownerKey view = .ok (some key) ↔ ∃ row record, unit.store.live.get? view.owner = some row ∧
      unit.store.records.get? row = some record ∧ record.current.getD parentIndex .null = key ∧
      key ≠ .null := by
  constructor
  · intro owned
    have present := ownerKey_present owned
    cases live : unit.store.live.get? view.owner with
    | none => cases owned.symm.trans (ownerKey_of_dead live)
    | some row =>
      obtain ⟨record, held, -, -, same⟩ := ownerKey_of_row ends mapped formed.1 formed.2 live
      have chosen := Except.ok.inj (owned.symm.trans same)
      split at chosen
      · cases chosen
      · exact ⟨row, record, rfl, held, (Option.some.inj chosen).symm, present⟩
  · rintro ⟨row, record, live, held, rfl, present⟩
    obtain ⟨_, stood, -, -, same⟩ := ownerKey_of_row ends mapped formed.1 formed.2 live
    cases held.symm.trans stood
    rw [same, if_neg (mt (Value.isNull_iff _).mp present)]

def SelfReferring (unit : UnitOfWork) (change : ColumnChange) (identity : ObjectIdentity) : Prop :=
  unit.inserting = some change.row ∧ identity.key = [change.proposed]

instance (unit : UnitOfWork) (change : ColumnChange) (identity : ObjectIdentity) :
    Decidable (unit.SelfReferring change identity) :=
  inferInstanceAs (Decidable (_ ∧ _))

theorem isSelfReference_eq {change : ColumnChange}
    (held : unit.store.records.get? change.row = some record) :
    unit.isSelfReference change = .ok (decide (unit.SelfReferring change record.identity)) := by
  have own : unit.identityOf change.row = .ok record.identity :=
    identityOf_eq_ok.mpr ⟨record, held, rfl⟩
  unfold isSelfReference
  by_cases inserted : unit.inserting = some change.row
  · rw [if_pos inserted, own]
    simp [SelfReferring, inserted, Bind.bind, Except.bind, Pure.pure, Except.pure]
  · rw [if_neg inserted]
    simp [SelfReferring, inserted, Pure.pure, Except.pure]

theorem membersAfterChange_of_owned {change : ColumnChange} {key : Value}
    {members : List ObjectIdentity} (owned : unit.ownerKey view = .ok (some key))
    (held : unit.store.records.get? change.row = some record) (loaded : view.members? = some members) :
    unit.membersAfterChange view change = .ok
      (if change.column ≠ view.relation.childKey ∨ unit.SelfReferring change record.identity then none
        else if change.proposed = key then some (joined members record.identity)
        else if change.current = key then some (members.erase record.identity) else none) := by
  have own : unit.identityOf change.row = .ok record.identity :=
    identityOf_eq_ok.mpr ⟨record, held, rfl⟩
  unfold membersAfterChange
  by_cases elsewhere : change.column ≠ view.relation.childKey
  · rw [if_pos elsewhere, if_pos (.inl elsewhere)]
    rfl
  · rw [if_neg elsewhere, owned, isSelfReference_eq held, loaded]
    by_cases selfish : unit.SelfReferring change record.identity
    · simp [selfish, Bind.bind, Except.bind, Pure.pure, Except.pure]
    · by_cases joins : change.proposed = key
      · simp [elsewhere, selfish, joins, own, Bind.bind, Except.bind, Pure.pure, Except.pure]
      · by_cases leaves : change.current = key <;>
          simp [elsewhere, selfish, joins, leaves, own, Bind.bind, Except.bind, Pure.pure, Except.pure]

section

variable (mapped : (model.entities.map (·.table)).Nodup)
  (formed : unit.model = model ∧ unit.store.WellFormed model)
  (ends : view.Ends model parent child parentIndex childIndex)

include mapped formed ends

theorem isRelated_eq {deletion : RowDeletion} (key : Value)
    (held : unit.store.records.get? deletion.row = some record)
    (here : record.table = view.childTable) :
    unit.isRelated view deletion key =
      .ok (decide (record.BelongsTo childIndex deletion.state key)) := by
  have current := value_child mapped formed ends held here .current
  have original := value_child mapped formed ends held here .original
  unfold isRelated RowRecord.BelongsTo
  rw [current, original]
  by_cases points : (record.version .current).getD childIndex .null = key
  · simp only [points, Bind.bind, Except.bind, Pure.pure, Except.pure, if_true, true_or, decide_true]
  · by_cases new : deletion.state = .fresh
    · simp only [points, new, Bind.bind, Except.bind, Pure.pure, Except.pure, if_true, if_false,
        ne_eq, not_true, false_and, or_false, decide_false]
    · simp only [points, new, Bind.bind, Except.bind, Pure.pure, Except.pure, if_false, ne_eq,
        not_false_eq_true, true_and, false_or]

theorem membersAfterDeletion_of_owned {deletion : RowDeletion} {key : Value}
    {members : List ObjectIdentity} (owned : unit.ownerKey view = .ok (some key))
    (held : unit.store.records.get? deletion.row = some record)
    (here : record.table = view.childTable) (live : record.state.isLive = true)
    (loaded : view.members? = some members) :
    unit.membersAfterDeletion view deletion = .ok
      (if record.BelongsTo childIndex deletion.state key then some (members.erase record.identity)
        else none) := by
  have own : unit.identityOf deletion.row = .ok record.identity :=
    identityOf_eq_ok.mpr ⟨record, held, rfl⟩
  have resolved : (unit.store.resolve? record.identity).isNone = false := by
    rw [RowStore.resolve?, formed.2.live_of_record held live]
    rfl
  unfold membersAfterDeletion
  rw [owned, own, loaded]
  simp only [isRelated_eq mapped formed ends key held here, Bind.bind, Except.bind, Pure.pure,
    Except.pure]
  by_cases belongs : record.BelongsTo childIndex deletion.state key <;> simp [belongs, resolved]

theorem membersAfterChange_ok {change : ColumnChange}
    (held : unit.store.records.get? change.row = some record) :
    ∃ members, unit.membersAfterChange view change = .ok members := by
  cases loaded : view.members? with
  | some members =>
    obtain ⟨key | key, owned⟩ := ownerKey_ok mapped formed ends
    · refine ⟨none, ?_⟩
      unfold membersAfterChange
      split
      · rfl
      · rw [owned]
        rfl
    · exact ⟨_, membersAfterChange_of_owned owned held loaded⟩
  | none =>
    refine ⟨none, ?_⟩
    obtain ⟨key, owned⟩ := ownerKey_ok mapped formed ends
    unfold membersAfterChange
    rw [owned, isSelfReference_eq held, loaded]
    cases key <;> by_cases selfish : unit.SelfReferring change record.identity <;>
      simp [selfish, Bind.bind, Except.bind, Pure.pure, Except.pure]

theorem membersAfterDeletion_ok {deletion : RowDeletion}
    (held : unit.store.records.get? deletion.row = some record)
    (here : record.table = view.childTable) :
    ∃ members, unit.membersAfterDeletion view deletion = .ok members := by
  have own : unit.identityOf deletion.row = .ok record.identity :=
    identityOf_eq_ok.mpr ⟨record, held, rfl⟩
  obtain ⟨key, owned⟩ := ownerKey_ok mapped formed ends
  cases key with
  | none =>
    refine ⟨none, ?_⟩
    unfold membersAfterDeletion
    rw [owned]
    rfl
  | some key =>
    unfold membersAfterDeletion
    rw [owned, own]
    simp only [isRelated_eq mapped formed ends key held here, Bind.bind, Except.bind, Pure.pure,
      Except.pure]
    by_cases belongs : record.BelongsTo childIndex deletion.state key <;>
      by_cases gone : (unit.store.resolve? record.identity).isNone = true <;>
      cases view.members? <;> simp [belongs, gone]

end

end UnitOfWork

end RelationalMapper.Cache
