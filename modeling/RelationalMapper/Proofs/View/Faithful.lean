import RelationalMapper.Proofs.View.Load

set_option autoImplicit false

namespace RelationalMapper.Cache

namespace RelationView

structure Alike (view other : RelationView) : Prop where
  owner : view.owner = other.owner
  relation : view.relation = other.relation
  childEntity : view.childEntity = other.childEntity
  childTable : view.childTable = other.childTable

theorem Alike.refl (view : RelationView) : view.Alike view :=
  ⟨rfl, rfl, rfl, rfl⟩

theorem Alike.trans {first second third : RelationView} (left : first.Alike second)
    (right : second.Alike third) : first.Alike third :=
  ⟨left.owner.trans right.owner, left.relation.trans right.relation,
    left.childEntity.trans right.childEntity, left.childTable.trans right.childTable⟩

theorem Alike.symm {first second : RelationView} (alike : first.Alike second) : second.Alike first :=
  ⟨alike.owner.symm, alike.relation.symm, alike.childEntity.symm, alike.childTable.symm⟩

theorem withMembers_alike (view : RelationView) (members : List ObjectIdentity) :
    (view.withMembers members).Alike view := by
  constructor <;> simp

theorem Repeopled.alike {view before : RelationView} (repeopled : view.Repeopled before) :
    view.Alike before ∧ view.members?.isSome = before.members?.isSome := by
  rcases repeopled with same | ⟨members, same⟩
  · rw [same]
    exact ⟨.refl before, rfl⟩
  · rw [same, members?_withMembers, Option.isSome_map]
    exact ⟨before.withMembers_alike members, rfl⟩

theorem withState_alike (view : RelationView) (state : ViewState) :
    ({ view with state } : RelationView).Alike view :=
  ⟨rfl, rfl, rfl, rfl⟩

variable {view other : RelationView} {model : Model} {index : Nat} {key : Value}

def Keyed (view : RelationView) (model : Model) (index : Nat) (key : Value) : Prop :=
  ∃ parent child parentIndex column, view.Ends model parent child parentIndex index ∧
    parent.columns[parentIndex]? = some column ∧ column.primaryKey = true ∧
    view.owner.key.getD (parent.keyPlace parentIndex) .null = key

theorem Ends.alike {parent child : Entity} {parentIndex childIndex : Nat} (alike : view.Alike other)
    (ends : other.Ends model parent child parentIndex childIndex) :
    view.Ends model parent child parentIndex childIndex where
  parentKnown := alike.relation ▸ ends.parentKnown
  parentKey := alike.relation ▸ ends.parentKey
  owner := alike.owner ▸ ends.owner
  childKnown := alike.relation ▸ ends.childKnown
  childKey := alike.relation ▸ ends.childKey
  childEntity := alike.childEntity.trans ends.childEntity
  childTable := alike.childTable.trans ends.childTable

theorem Proper.alike (alike : view.Alike other) (proper : other.Proper model) : view.Proper model := by
  obtain ⟨parent, child, parentIndex, childIndex, ends⟩ := proper
  exact ⟨parent, child, parentIndex, childIndex, ends.alike alike⟩

theorem Keyed.alike (alike : view.Alike other) (keyed : other.Keyed model index key) :
    view.Keyed model index key := by
  obtain ⟨parent, child, parentIndex, column, ends, rest⟩ := keyed
  exact ⟨parent, child, parentIndex, column, ends.alike alike, alike.owner ▸ rest⟩

end RelationView

theorem Mirrors.congr {store : RowStore} {table : String} {index : Nat} {key : Value}
    {known known' : RowId → Prop} {members : List ObjectIdentity}
    (mirrors : Mirrors store table index key known members)
    (same : ∀ row identity, store.IsChild table index key row identity → (known' row ↔ known row)) :
    Mirrors store table index key known' members :=
  mirrors.unchanged fun row identity => and_congr_right (same row identity)

namespace UnitOfWork

variable {unit after : UnitOfWork} {model : Model} {view : RelationView} {index : Nat} {key : Value}
  {row : RowId} {record : RowRecord}

theorem ownerKey_of_primary (mapped : (model.entities.map (·.table)).Nodup) (modelled : unit.model = model)
    (formed : unit.store.WellFormed model) {parent child : Entity} {parentIndex : Nat} {column : Column}
    (ends : view.Ends model parent child parentIndex index)
    (here : parent.columns[parentIndex]? = some column) (primary : column.primaryKey = true)
    (live : (unit.store.live.get? view.owner).isSome) :
    unit.ownerKey view = .ok (some (view.owner.key.getD (parent.keyPlace parentIndex) .null)) := by
  obtain ⟨owner, found⟩ := Option.isSome_iff_exists.mp live
  obtain ⟨record, -, same, fits, owned⟩ := ownerKey_of_row ends mapped modelled formed found
  have placed := Entity.getElem?_keyOf here primary fits.current.width
  rw [fits.current.key, same] at placed
  have value : record.current.getD parentIndex .null =
      view.owner.key.getD (parent.keyPlace parentIndex) .null := by
    rw [List.getD_eq_getElem?_getD, List.getD_eq_getElem?_getD, placed]
  have within : parentIndex < record.current.length := by
    rw [fits.current.width]
    exact (List.getElem?_eq_some_iff.mp here).1
  have present : (record.current.getD parentIndex .null).isNull = false := by
    rw [List.getElem?_eq_getElem within] at placed
    have member := List.mem_of_getElem? placed
    rw [List.getD_eq_getElem?_getD, List.getElem?_eq_getElem within, Option.getD_some]
    by_contra null
    rw [Bool.not_eq_false, Value.isNull_iff] at null
    rw [null, ← same] at member
    exact fits.current.present member
  rw [owned, present, value]
  rfl

theorem ownerKey_of_keyed (wellMapped : model.WellMapped) (sound : unit.Sound model)
    (keyed : view.Keyed model index key) (live : (unit.store.live.get? view.owner).isSome) :
    unit.ownerKey view = .ok (some key) := by
  obtain ⟨parent, child, parentIndex, column, ends, here, primary, rfl⟩ := keyed
  exact ownerKey_of_primary wellMapped.mapped sound.modelled sound.rows ends here primary live

structure Faithful (unit : UnitOfWork) (id : ViewId) (view : RelationView) (index : Nat) (key : Value)
    (known : RowId → Prop) : Prop where
  found : unit.views.get? id = some view
  live : (unit.store.live.get? view.owner).isSome
  early : ∀ row, known row → row.number < unit.store.nextNumber
  mirrors : ∃ members, view.members? = some members ∧
    Mirrors unit.store view.childTable index key known members

namespace Faithful

variable {id : ViewId} {known known' : RowId → Prop}

theorem congr (faithful : unit.Faithful id view index key known)
    (same : ∀ row, known' row ↔ known row) : unit.Faithful id view index key known' := by
  obtain ⟨members, loaded, mirrors⟩ := faithful.mirrors
  exact ⟨faithful.found, faithful.live, fun row knows => faithful.early row ((same row).mp knows),
    members, loaded, mirrors.congr fun row _ _ => same row⟩

theorem extend (faithful : unit.Faithful id view index key known)
    (same : after.views.get? id = unit.views.get? id)
    (extended : after.store.Extends unit.store) : after.Faithful id view index key known := by
  obtain ⟨members, loaded, mirrors⟩ := faithful.mirrors
  obtain ⟨owner, live⟩ := Option.isSome_iff_exists.mp faithful.live
  refine ⟨same.trans faithful.found, ?_, ?_, members, loaded, mirrors.extend extended faithful.early⟩
  · exact Option.isSome_iff_exists.mpr ⟨owner, extended.live _ _ live⟩
  · exact fun row knows => Nat.lt_of_lt_of_le (faithful.early row knows) extended.numbers

theorem accept (faithful : unit.Faithful id view index key known) :
    unit.accept.Faithful id view index key known := by
  obtain ⟨members, loaded, mirrors⟩ := faithful.mirrors
  refine ⟨faithful.found, ?_, ?_, members, loaded, mirrors.accept⟩
  · change (unit.store.accept.live.get? view.owner).isSome
    rw [RowStore.live_accept]
    exact faithful.live
  · exact fun row knows =>
      Nat.lt_of_lt_of_le (faithful.early row knows) (RowStore.Succeeds.accept unit.store).numbers

end Faithful

theorem Sound.get?_tellViews (sound : unit.Sound model) {patch : RelationView → RelationView}
    (unloaded : ∀ view, view.members? = none → patch view = view) (channel : Channel) (table : String)
    (id : ViewId) :
    (Cache.tellViews patch (unit.channels.subscribers channel table) unit.views).get? id =
      (unit.views.get? id).map fun view => if view.childTable = table then patch view else view := by
  rw [Cache.get?_tellViews, sound.wired.count_subscribers]
  cases found : unit.views.get? id with
  | none => rfl
  | some view =>
    simp only [Option.elim_some, Option.map_some, Option.some.injEq, RelationView.subscriptions]
    cases state : view.state with
    | unloaded =>
      have still := unloaded view (by rw [RelationView.members?, state])
      simp [still]
    | loaded members changing deleting =>
      by_cases here : view.childTable = table <;> cases channel <;> simp [here]

theorem afterChange_unloaded (change : ColumnChange) (view : RelationView)
    (unloaded : view.members? = none) : unit.afterChange change view = view := by
  rcases unit.afterChange_eq change view with same | ⟨members, same⟩
  · exact same
  · rw [same]
    exact view.withMembers_of_unloaded members unloaded

theorem afterDeletion_unloaded (deletion : RowDeletion) (view : RelationView)
    (unloaded : view.members? = none) : unit.afterDeletion deletion view = view := by
  rcases unit.afterDeletion_eq deletion view with same | ⟨members, same⟩
  · exact same
  · rw [same]
    exact view.withMembers_of_unloaded members unloaded

namespace Faithful

variable {id : ViewId} {known : RowId → Prop}

-- A write makes the row known if it writes the key where the key belongs, unless the row is still
-- being inserted and proposes itself.
theorem changed (wellMapped : model.WellMapped) (plain : unit.Plain model) (keyed : view.Keyed model index key)
    (faithful : unit.Faithful id view index key known) (change : ColumnChange) (place : Nat)
    {entity : Entity} (held : unit.store.records.get? change.row = some record)
    (live : record.state.isLive = true) (entityKnown : model.entity record.entity = .ok entity)
    (placed : entity.columnIndex change.column = .ok place) (table : change.table = record.table)
    (current : change.current = record.current.getD place .null)
    (fresh : change.column = view.relation.childKey → unit.SelfReferring change record.identity →
      ¬known change.row) :
    ∃ view', view'.Alike view ∧ (unit.changed change place).Faithful id view' index key fun row =>
      known row ∨ row = change.row ∧ change.column = view.relation.childKey ∧ change.proposed = key ∧
        ¬unit.SelfReferring change record.identity := by
  have owned := ownerKey_of_keyed wellMapped plain.sound keyed faithful.live
  obtain ⟨members, loaded, mirrors⟩ := faithful.mirrors
  obtain ⟨parent, child, parentIndex, -, ends, -⟩ := keyed
  have told := plain.sound.get?_tellViews (unit.afterChange_unloaded change) .columnChanging
    change.table id
  rw [faithful.found, Option.map_some] at told
  have early : ∀ row, known row ∨ row = change.row ∧ change.column = view.relation.childKey ∧
      change.proposed = key ∧ ¬unit.SelfReferring change record.identity →
      row.number < unit.store.nextNumber := by
    intro row learned
    rcases learned with knows | ⟨same, -⟩
    · exact faithful.early row knows
    · rw [same]
      exact plain.sound.rows.numbered change.row record held
  by_cases here : record.table = view.childTable
  · rw [if_pos (by rw [table, here]), afterChange_of_owned owned held loaded] at told
    refine ⟨_, view.withMembers_alike _, told, ?_, early, _,
      RelationView.members?_of_loaded loaded _, ?_⟩
    · rw [RelationView.owner_withMembers]
      exact faithful.live
    · rw [RelationView.childTable_withMembers]
      by_cases foreign : change.column = view.relation.childKey
      · obtain ⟨childKnown, fits⟩ := child_of_row wellMapped.mapped plain.sound.formed ends held here
        rw [childKnown] at entityKnown
        cases entityKnown
        rw [foreign, ends.childKey] at placed
        cases placed
        by_cases selfish : unit.SelfReferring change record.identity
        · rw [if_pos (.inr selfish)]
          refine (mirrors.write_other held live _ (.inr (.inr (fresh foreign selfish)))).congr ?_
          intro row _ _
          exact or_iff_left fun wrote => wrote.2.2.2 selfish
        · have within : index < record.current.length := by
            obtain ⟨column, there, -⟩ := Entity.column_of_columnIndex ends.childKey
            rw [fits.current.width]
            exact (List.getElem?_eq_some_iff.mp there).1
          rw [if_neg (by simp [foreign, selfish]), current]
          refine mirrors.write plain.sound.rows held live here within _ fun row => ?_
          simp [foreign, selfish]
      · rw [if_pos (.inl foreign)]
        have apart : place ≠ index := by
          obtain ⟨childKnown, -⟩ := child_of_row wellMapped.mapped plain.sound.formed ends held here
          rw [childKnown] at entityKnown
          cases entityKnown
          exact Entity.columnIndex_ne placed ends.childKey foreign
        refine (mirrors.write_other held live _ (.inr (.inl apart))).congr ?_
        intro row _ _
        exact or_iff_left fun wrote => foreign wrote.2.1
  · rw [if_neg (by rw [table]; exact Ne.symm here)] at told
    refine ⟨view, .refl view, told, faithful.live, early, members, loaded, ?_⟩
    refine (mirrors.write_other held live _ (.inl here)).congr fun row identity child => ?_
    refine or_iff_left fun wrote => ?_
    rw [wrote.1] at child
    exact here ((RowStore.isChild_write_self held live).mp child).1

theorem removed (wellMapped : model.WellMapped) (plain : unit.Plain model) (keyed : view.Keyed model index key)
    (faithful : unit.Faithful id view index key known) {deletion : RowDeletion}
    (held : unit.store.records.get? deletion.row = some record) (live : record.state.isLive = true)
    (table : deletion.table = record.table)
    (staying : ((unit.removed deletion record).store.live.get? view.owner).isSome) :
    ∃ view', view'.Alike view ∧ (unit.removed deletion record).Faithful id view' index key known := by
  have owned := ownerKey_of_keyed wellMapped plain.sound keyed faithful.live
  obtain ⟨members, loaded, mirrors⟩ := faithful.mirrors
  obtain ⟨parent, child, parentIndex, -, ends, -⟩ := keyed
  have told := plain.sound.get?_tellViews (unit.afterDeletion_unloaded deletion) .rowDeleting
    deletion.table id
  rw [faithful.found, Option.map_some] at told
  have early : ∀ row, known row → row.number < (unit.removed deletion record).store.nextNumber := by
    intro row knows
    change row.number < (unit.store.delete deletion.row record).nextNumber
    rw [RowStore.nextNumber_delete]
    exact faithful.early row knows
  by_cases here : record.table = view.childTable
  · rw [if_pos (by rw [table, here]), afterDeletion_of_owned wellMapped plain.sound ends owned held here
      live loaded] at told
    refine ⟨_, view.withMembers_alike _, told, ?_, early, _,
      RelationView.members?_of_loaded loaded _, ?_⟩
    · rw [RelationView.owner_withMembers]
      exact staying
    · rw [RelationView.childTable_withMembers]
      split
      · exact mirrors.delete plain.sound.rows held live
      next stranger =>
        refine mirrors.delete_other held live fun child => ?_
        exact stranger (.inl child.2)
  · rw [if_neg (by rw [table]; exact Ne.symm here)] at told
    exact ⟨view, .refl view, told, staying, early, members, loaded,
      mirrors.delete_other held live fun child => here child.1⟩

end Faithful

end UnitOfWork

end RelationalMapper.Cache
