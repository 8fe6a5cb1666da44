import RelationalMapper.Proofs.View.Quiet

set_option autoImplicit false

namespace RelationalMapper.Cache

namespace UnitOfWork

structure Ready (unit : UnitOfWork) (model : Model) : Prop where
  sound : unit.Sound model
  idle : unit.inserting = none

structure Lasts (after before : UnitOfWork) (model : Model) : Prop where
  ready : after.Ready model
  rows : after.store.Lasts before.store
  views : ∀ id view, before.views.get? id = some view → ∃ later, after.views.get? id = some later ∧
    later.Alike view ∧ (view.members?.isSome → later.members?.isSome)
  listed : ∀ id later identity, after.members? id = some later → identity ∈ later →
    after.store.resolve? identity = none → ∃ earlier, before.members? id = some earlier ∧ identity ∈ earlier

section

variable {unit : UnitOfWork}

theorem members?_told {patch : RelationView → RelationView} (patches : ∀ view, (patch view).Repeopled view)
    {id other : ViewId} {later : List ObjectIdentity}
    (found : UnitOfWork.members? { unit with views := tellViews patch [.view id] unit.views } other =
      some later) :
    ∃ view earlier, unit.views.get? other = some view ∧ view.members? = some earlier ∧
      (if id = other then (patch view).members? = some later else later = earlier) := by
  obtain ⟨view', stood, loaded⟩ := Option.bind_eq_some_iff.mp found
  rw [get?_tellViews, Option.map_eq_some_iff] at stood
  obtain ⟨view, stood, rfl⟩ := stood
  by_cases here : id = other
  · subst here
    obtain ⟨-, same⟩ := RelationView.Repeopled.alike (patches view)
    simp only [List.count_singleton_self, Function.iterate_one] at loaded
    rw [loaded, Option.isSome_some, eq_comm, Option.isSome_iff_exists] at same
    obtain ⟨earlier, already⟩ := same
    exact ⟨view, earlier, stood, already, by rwa [if_pos rfl]⟩
  · simp [here] at loaded
    exact ⟨view, later, stood, loaded, by rw [if_neg here]⟩

theorem members?_completeLoad (id other : ViewId) (view : RelationView) (members : List ObjectIdentity) :
    (unit.completeLoad id view members).members? other =
      if id = other then some members else unit.members? other := by
  rw [UnitOfWork.members?, UnitOfWork.completeLoad, Assoc.get?_insert]
  split <;> rfl

end

namespace Lasts

variable {before unit after : UnitOfWork} {model : Model} {row : RowId} {record : RowRecord}

theorem refl (ready : unit.Ready model) : unit.Lasts unit model :=
  ⟨ready, .refl _, fun _ view found => ⟨view, found, .refl view, id⟩,
    fun _ later _ found listed _ => ⟨later, found, listed⟩⟩

theorem trans (second : after.Lasts unit model) (first : unit.Lasts before model) :
    after.Lasts before model where
  ready := second.ready
  rows := second.rows.trans first.rows
  views id view found := by
    obtain ⟨middle, stood, alike, kept⟩ := first.views id view found
    obtain ⟨later, stands, alike', kept'⟩ := second.views id middle stood
    exact ⟨later, stands, alike'.trans alike, fun loaded => kept' (kept loaded)⟩
  listed id later identity found among unresolved := by
    obtain ⟨middle, found, among⟩ := second.listed id later identity found among unresolved
    refine first.listed id middle identity found among ?_
    by_contra resolved
    obtain ⟨row, resolved⟩ := Option.ne_none_iff_exists'.mp resolved
    cases unresolved.symm.trans (second.rows.resolved _ _ resolved)

theorem ofRows (ready : unit.Ready model) {store : RowStore} (formed : store.WellFormed model)
    (lasts : store.Lasts unit.store) : ({ unit with store } : UnitOfWork).Lasts unit model where
  ready := ⟨ready.sound.withStore formed, ready.idle⟩
  rows := lasts
  views _ view found := ⟨view, found, .refl view, id⟩
  listed _ later _ found listed _ := ⟨later, found, listed⟩

theorem write (ready : unit.Ready model) {entity : Entity} {place : Nat} (value : Value)
    (held : unit.store.records.get? row = some record) (known : model.entity record.entity = .ok entity)
    (live : record.state.isLive = true) (outside : (entity.columns[place]?).any (·.primaryKey) = false) :
    ({ unit with store := unit.store.write row place value } : UnitOfWork).Lasts unit model :=
  ofRows ready (ready.sound.rows.write held known live outside) (.write ..)

theorem delete (ready : unit.Ready model) (held : unit.store.records.get? row = some record)
    (live : record.state.isLive = true) :
    ({ unit with store := unit.store.delete row record } : UnitOfWork).Lasts unit model :=
  ofRows ready (ready.sound.rows.delete held live)
    (.delete held (ready.sound.rows.live_of_record held live))

theorem applyDeletion (ready : unit.Ready model) (taken : unit.applyDeletion row = .ok after) :
    after.Lasts unit model := by
  obtain ⟨record, held, rfl⟩ := applyDeletion_eq_ok.mp taken
  split
  next live => exact delete ready held live
  next => exact refl ready

theorem attached (ready : unit.Ready model) (attached : after.Attached unit model) :
    after.Lasts unit model := by
  rw [attached.same]
  exact ofRows ready attached.formed attached.lasts

theorem completeLoad (ready : unit.Ready model) {id : ViewId} {view : RelationView}
    (found : unit.views.get? id = some view) (unloaded : view.state = .unloaded)
    {members : List ObjectIdentity}
    (known : ∀ identity ∈ members, (unit.store.resolve? identity).isSome) :
    (unit.completeLoad id view members).Lasts unit model where
  ready := ⟨ready.sound.completeLoad found unloaded members, ready.idle⟩
  rows := .refl _
  views other held stood := by
    rw [UnitOfWork.completeLoad, Assoc.get?_insert]
    split
    next here =>
      subst here
      cases found.symm.trans stood
      exact ⟨_, rfl, view.withState_alike _, fun _ => rfl⟩
    next => exact ⟨held, stood, .refl held, fun loaded => loaded⟩
  listed other later identity listing among unresolved := by
    rw [members?_completeLoad] at listing
    split at listing
    · cases listing
      have resolved := known identity among
      change unit.store.resolve? identity = none at unresolved
      simp [unresolved] at resolved
    · exact ⟨later, listing, among⟩

theorem loading (ready : unit.Ready model) {id : ViewId} {result : Except Fault Unit}
    (loading : Loading model unit id result after) : after.Lasts unit model := by
  cases loading with
  | already => exact .refl ready
  | failed fault came => exact .attached ready came
  | @loaded view between members found unloaded came live known mirrors =>
    have first := attached ready came
    refine (completeLoad first.ready ?_ unloaded known).trans first
    rw [came.same]
    exact found

theorem told (ready : unit.Ready model) {patch : RelationView → RelationView}
    (patches : ∀ view, (patch view).Repeopled view) (id : ViewId)
    (joins : ∀ view later identity, unit.views.get? id = some view → (patch view).members? = some later →
      identity ∈ later → (unit.store.resolve? identity).isSome ∨
        ∃ earlier, view.members? = some earlier ∧ identity ∈ earlier) :
    ({ unit with views := tellViews patch [.view id] unit.views } : UnitOfWork).Lasts unit model where
  ready := ⟨ready.sound.tellViews patches _, ready.idle⟩
  rows := .refl _
  views other view found := by
    obtain ⟨alike, loaded⟩ :=
      (RelationView.Repeopled.iterate patches ([Subscriber.view id].count (.view other)) view).alike
    exact ⟨_, by simp [get?_tellViews, found], alike, fun kept => by rwa [loaded]⟩
  listed other later identity found among unresolved := by
    obtain ⟨view, earlier, stood, already, hears⟩ := members?_told patches found
    refine ⟨earlier, members?_of_found stood already, ?_⟩
    split at hears
    next here =>
      subst here
      rcases joins view later identity stood hears among with resolved | ⟨_, same, listed⟩
      · change unit.store.resolve? identity = none at unresolved
        simp [unresolved] at resolved
      · cases already.symm.trans same
        exact listed
    next => rwa [hears] at among

theorem toldOfChange (ready : unit.Ready model) {change : ColumnChange}
    (held : unit.store.records.get? change.row = some record)
    (resolved : (unit.store.resolve? record.identity).isSome) (id : ViewId) :
    (unit.toldOfChange change [.view id]).Lasts unit model := by
  refine told ready (unit.afterChange_eq change) id fun view later identity _ loaded listed => ?_
  rcases mem_afterChange held loaded listed with rfl | before
  · exact .inl resolved
  · exact .inr before

theorem toldOfDeletion (ready : unit.Ready model) {deletion : RowDeletion}
    (held : unit.store.records.get? deletion.row = some record)
    (resolved : (unit.store.resolve? record.identity).isSome) (id : ViewId) :
    (unit.toldOfDeletion deletion [.view id]).Lasts unit model := by
  refine told ready (unit.afterDeletion_eq deletion) id fun view later identity found loaded listed => ?_
  obtain ⟨-, same⟩ := RelationView.Repeopled.alike (unit.afterDeletion_eq deletion view)
  rw [loaded, Option.isSome_some, eq_comm, Option.isSome_iff_exists] at same
  obtain ⟨earlier, already⟩ := same
  obtain ⟨count, left, -⟩ := members?_toldOfDeletion deletion found already held
    (by simpa [Option.isSome_iff_ne_none] using resolved) [.view id]
  rw [UnitOfWork.toldOfDeletion, members?_tellViews found, List.count_singleton_self,
    Function.iterate_one, loaded] at left
  cases left
  exact .inr ⟨earlier, already, mem_of_mem_iterate_erase listed⟩

end Lasts

end UnitOfWork

end RelationalMapper.Cache
