import RelationalMapper.Proofs.Run.Abandon
import RelationalMapper.Proofs.View.Attuned
import RelationalMapper.Proofs.View.Fetching
import RelationalMapper.Proofs.View.Owner
import RelationalMapper.Proofs.View.Refusal

set_option autoImplicit false

namespace RelationalMapper.Cache

variable {σ τ : Type} {model : Model} {id : ViewId} {view : RelationView}

-- An owner gets its key with a write to its parent-key column, with a row of its identity that is inserted
-- or attached, or from the row source while the view itself is loaded.
inductive Step.GivesKey (id : ViewId) (view : RelationView) (key : Value) : Step → Prop
  | written {before after : UnitOfWork} {row : RowId}
      (owner : before.store.live.get? view.owner = some row) :
      GivesKey id view key ⟨before, .write row view.relation.parentKey key, .ok (), after⟩
  | inserted {before after : UnitOfWork} {entity : String} {values : List (String × Value)} {row : RowId}
      (missing : before.store.live.get? view.owner = none)
      (came : after.store.live.get? view.owner = some row) :
      GivesKey id view key ⟨before, .insert entity values, .ok row, after⟩
  | attached {before after : UnitOfWork} {entity : String} {values : List Value} {row : RowId}
      (missing : before.store.live.get? view.owner = none)
      (came : after.store.live.get? view.owner = some row) :
      GivesKey id view key ⟨before, .attach entity values, .ok row, after⟩
  | loaded {before after : UnitOfWork} : GivesKey id view key ⟨before, .load id, .ok (), after⟩

def Step.Accounts (step : Step) (id : ViewId) (view : RelationView) : Prop :=
  ∀ key, step.before.ownerKey view ≠ .ok (some key) → step.after.ownerKey view = .ok (some key) →
    step.GivesKey id view key

/-- The identity was listed when a step gave the owner the key that it did not have, and since then no row of
it has pointed at that key. -/
def StaysBehind (steps : List Step) (id : ViewId) (view : RelationView) (key : Value)
    (identity : ObjectIdentity) : Prop :=
  ∃ earlier arriving later, steps = earlier ++ arriving :: later ∧
    arriving.before.ownerKey view ≠ .ok (some key) ∧ arriving.GivesKey id view key ∧
    (∃ members, arriving.after.members? id = some members ∧ identity ∈ members) ∧
    ∀ step ∈ arriving :: later, step.after.ownerKey view = .ok (some key) ∧
      ∀ row, ¬ step.after.PointsAt view key row identity

namespace StaysBehind

variable {steps : List Step} {last : Step} {key : Value} {identity : ObjectIdentity}

theorem onward (stays : StaysBehind steps id view key identity)
    (owned : last.after.ownerKey view = .ok (some key))
    (apart : ∀ row, ¬ last.after.PointsAt view key row identity) :
    StaysBehind (steps ++ [last]) id view key identity := by
  obtain ⟨earlier, arriving, later, rfl, came, gives, listed, since⟩ := stays
  refine ⟨earlier, arriving, later ++ [last], by simp, came, gives, listed, ?_⟩
  rw [← List.cons_append, List.forall_mem_append, List.forall_mem_singleton]
  exact ⟨since, owned, apart⟩

theorem arrives (steps : List Step) (came : last.before.ownerKey view ≠ .ok (some key))
    (gives : last.GivesKey id view key) (owned : last.after.ownerKey view = .ok (some key))
    {members : List ObjectIdentity} (listed : last.after.members? id = some members)
    (member : identity ∈ members) (apart : ∀ row, ¬ last.after.PointsAt view key row identity) :
    StaysBehind (steps ++ [last]) id view key identity :=
  ⟨steps, last, [], rfl, came, gives, ⟨members, listed, member⟩,
    List.forall_mem_singleton.mpr ⟨owned, apart⟩⟩

end StaysBehind

namespace UnitOfWork

variable {unit after : UnitOfWork} {parent child : Entity} {parentIndex index place : Nat}
  {key value : Value} {row : RowId} {record : RowRecord} {column : String} {change : ColumnChange}
  {deletion : RowDeletion}

theorem owner_of_registered (rows : unit.store.WellFormed model)
    (free : unit.store.live.get? record.identity = none)
    (wrote : RowStore.WritesOnly ⟨unit.store.nextNumber⟩ after.store (unit.store.register record).2)
    (modelled : after.model = unit.model) (came : unit.ownerKey view ≠ .ok (some key))
    (owned : after.ownerKey view = .ok (some key)) :
    unit.store.live.get? view.owner = none ∧
      after.store.live.get? view.owner = some ⟨unit.store.nextNumber⟩ := by
  by_cases own : record.identity = view.owner
  · exact ⟨own ▸ free, by rw [wrote.live, RowStore.live_register, if_pos own]⟩
  · refine absurd ((ownerKey_congr modelled ?_ fun row live => ?_).symm.trans owned) came
    · rw [wrote.live, RowStore.live_register, if_neg own]
    · obtain ⟨held, stood, -⟩ := (rows.live _ _).mp live
      have apart := rows.ne_next stood
      rw [wrote.others row apart.symm, RowStore.records_register, if_neg apart]

section

variable (mapped : (model.entities.map (·.table)).Nodup)
  (formed : unit.model = model ∧ unit.store.WellFormed model)
  (ends : view.Ends model parent child parentIndex index)

include mapped formed ends

theorem owner_of_changed (found : unit.changeOf row column value = .ok (change, place))
    (kept : (unit.changed change place).model = model ∧ (unit.changed change place).store.WellFormed model)
    (came : unit.ownerKey view ≠ .ok (some key))
    (owned : (unit.changed change place).ownerKey view = .ok (some key)) :
    unit.store.live.get? view.owner = some row ∧ column = view.relation.parentKey ∧ value = key := by
  obtain ⟨record, entity, held, -, known, placed, -, rfl⟩ := changeOf_eq_ok.mp found
  obtain ⟨owner, later, alive, stood, points, present⟩ := (ownerKey_eq_some mapped kept ends).mp owned
  change unit.store.live.get? view.owner = some owner at alive
  change (unit.store.write row place value).records.get? owner = some later at stood
  have moved {earlier : RowRecord} (tracked : unit.store.records.get? owner = some earlier) :
      earlier.current.getD parentIndex .null ≠ key := fun same => came <|
    (ownerKey_eq_some mapped formed ends).mpr ⟨owner, earlier, alive, tracked, same, present⟩
  rw [RowStore.records_write] at stood
  split at stood
  next own =>
    subst own
    rw [held] at stood
    cases stood
    obtain ⟨_, same, -, fits, -⟩ := ownerKey_of_row ends mapped formed.1 formed.2 alive
    cases held.symm.trans same
    have parental : entity = parent := by
      obtain ⟨other, otherKnown, also⟩ := formed.2.fits row record held
      rw [formed.1] at known
      cases known.symm.trans otherKnown
      exact List.inj_on_of_nodup_map mapped (Model.entity_mem known) (Model.entity_mem ends.parentKnown)
        (also.table.symm.trans fits.table)
    subst parental
    by_cases keyed : column = view.relation.parentKey
    · subst keyed
      cases placed.symm.trans ends.parentKey
      have within : parentIndex < record.current.length := by
        obtain ⟨listed, there, -⟩ := Entity.column_of_columnIndex ends.parentKey
        rw [fits.current.width]
        exact (List.getElem?_eq_some_iff.mp there).1
      refine ⟨alive, rfl, ?_⟩
      simpa [RowRecord.write, List.getD_eq_getElem?_getD, within] using points
    · have aside := Entity.columnIndex_ne placed ends.parentKey keyed
      refine absurd ?_ (moved held)
      simpa [RowRecord.write, List.getD_eq_getElem?_getD, List.getElem?_set_ne aside] using points
  next => exact absurd points (moved stood)

theorem owner_of_removed (found : unit.deletionOf row = .ok deletion)
    (held : unit.store.records.get? row = some record)
    (kept : (unit.removed deletion record).model = model ∧
      (unit.removed deletion record).store.WellFormed model)
    (owned : (unit.removed deletion record).ownerKey view = .ok (some key)) :
    unit.ownerKey view = .ok (some key) := by
  obtain ⟨_, same, live, rfl⟩ := deletionOf_eq_ok.mp found
  cases held.symm.trans same
  obtain ⟨owner, later, alive, stood, points, present⟩ := (ownerKey_eq_some mapped kept ends).mp owned
  change (unit.store.delete row record).live.get? view.owner = some owner at alive
  change (unit.store.delete row record).records.get? owner = some later at stood
  rw [RowStore.live_delete] at alive
  split at alive
  next => cases alive
  next other =>
    have apart : row ≠ owner := by
      rintro rfl
      obtain ⟨_, again, own, -⟩ := (formed.2.live _ _).mp alive
      cases held.symm.trans again
      exact other own
    rw [RowStore.records_delete, if_neg apart] at stood
    exact (ownerKey_eq_some mapped formed ends).mpr ⟨owner, later, alive, stood, points, present⟩

theorem owner_of_accepted (owned : unit.accept.ownerKey view = .ok (some key)) :
    unit.ownerKey view = .ok (some key) := by
  have kept : unit.accept.model = model ∧ unit.accept.store.WellFormed model :=
    ⟨formed.1, formed.2.accept⟩
  obtain ⟨owner, later, alive, stood, points, present⟩ := (ownerKey_eq_some mapped kept ends).mp owned
  change unit.store.accept.live.get? view.owner = some owner at alive
  change unit.store.accept.records.get? owner = some later at stood
  rw [RowStore.live_accept] at alive
  rw [RowStore.records_accept, Option.bind_eq_some_iff] at stood
  obtain ⟨record, held, settled⟩ := stood
  split at settled
  · cases settled
    refine (ownerKey_eq_some mapped formed ends).mpr ⟨owner, record, alive, held, ?_, present⟩
    rw [← points]
    cases state : record.state <;> simp [RowRecord.settled, state]
  · cases settled

end

section

variable (attending : unit.Attending model id view)

include attending

theorem Attending.attach_accounts {name : String} {values : List Value}
    (attached : unit.attach name values = .ok (row, after)) :
    Step.Accounts ⟨unit, .attach name values, .ok row, after⟩ id view := by
  intro key came owned
  obtain ⟨entity, identity, -, -, -, ⟨-, rfl⟩ | ⟨free, rfl, same⟩⟩ := attach_eq_ok.mp attached
  · exact absurd owned came
  · have writes : RowStore.WritesOnly ⟨unit.store.nextNumber⟩ after.store (unit.store.register
        ⟨entity.name, entity.table, identity, values, some values, .unchanged⟩).2 := by
      rw [same]
      exact .refl _ _
    have modelled : after.model = unit.model := by rw [same]
    obtain ⟨missing, here⟩ := owner_of_registered attending.onlooked.formed.2
      (Option.or_eq_none_iff.mp free).1 writes modelled came owned
    exact .attached missing here

theorem Attending.insert_accounts {name table : String} {values pending : List (String × Value)}
    {started : UnitOfWork} (begun : unit.beginInsert name values = .ok ((row, table, pending), started))
    (wrote : Written row pending started after) :
    Step.Accounts ⟨unit, .insert name values, .ok row, { after with inserting := unit.inserting }⟩ id view := by
  intro key came owned
  obtain ⟨writes, modelled⟩ := wrote.writesOnly
  obtain ⟨entity, arranged, identity, -, -, -, free, rfl, -, -, rfl⟩ := beginInsert_eq_ok.mp begun
  obtain ⟨missing, here⟩ := owner_of_registered attending.onlooked.formed.2 free writes modelled came owned
  exact .inserted missing here

variable (mapped : (model.entities.map (·.table)).Nodup)
  (ends : view.Ends model parent child parentIndex index)

include mapped ends

theorem Attending.write_accounts (found : unit.changeOf row column value = .ok (change, place)) :
    Step.Accounts ⟨unit, .write row column value, .ok (), unit.changed change place⟩ id view := by
  intro key came owned
  obtain ⟨owner, rfl, rfl⟩ := owner_of_changed mapped attending.onlooked.formed ends found
    (attending.changed found).onlooked.formed came owned
  exact .written owner

theorem Attending.delete_accounts (found : unit.deletionOf row = .ok deletion)
    (held : unit.store.records.get? row = some record) :
    Step.Accounts ⟨unit, .delete row, .ok (), unit.removed deletion record⟩ id view :=
  fun _ came owned => absurd (owner_of_removed mapped attending.onlooked.formed ends found held
    (attending.removed found held).onlooked.formed owned) came

theorem Attending.accept_accounts : Step.Accounts ⟨unit, .accept, .ok (), unit.accept⟩ id view :=
  fun _ came owned => absurd (owner_of_accepted mapped attending.onlooked.formed ends owned) came

variable (idle : unit.inserting = none) (apart : view.owner.table ≠ view.childTable)
  (foreign : (child.columns[index]?).any (·.primaryKey) = false)

include idle apart foreign

theorem Attending.perform (calls : Callbacks σ) {operation : Operation}
    (mutates : operation.mutates = true) (memory : σ) :
    ∃ result after, Cache.perform calls operation unit memory = some ⟨result, after, memory⟩ ∧
      after.Attending model id view ∧ after.inserting = none ∧
      (Unmoved unit after id view index ∨ Followed unit after id view index) ∧
      Step.Accounts ⟨unit, operation, result, after⟩ id view := by
  have rows := attending.onlooked.formed.2
  have stays {operation : Operation} {fault : Fault}
      (failed : Cache.perform calls operation unit memory = some ⟨.error fault, unit, memory⟩) :
      ∃ result after, Cache.perform calls operation unit memory = some ⟨result, after, memory⟩ ∧
        after.Attending model id view ∧ after.inserting = none ∧
        (Unmoved unit after id view index ∨ Followed unit after id view index) ∧
        Step.Accounts ⟨unit, operation, result, after⟩ id view :=
    ⟨.error fault, unit, failed, attending, idle, .inl (.refl unit id view index),
      fun _ came owned => absurd owned came⟩
  cases operation with
  | attach name values =>
    cases attached : unit.attach name values with
    | error fault => exact stays (Action.ask_bind_of_error attached _)
    | ok answer =>
      have came := attach_attached attending.onlooked.formed attached
      refine ⟨.ok answer.1, answer.2, (Action.ask_bind_of_ok attached _).trans rfl, ?_, ?_, .inl ?_,
        attending.attach_accounts attached⟩ <;> rw [came.same]
      · exact attending.withStore came.formed
      · exact idle
      · exact ⟨rfl, fun _ _ _ child => child.extend rows came.extended⟩
  | insert name values =>
    cases begun : unit.beginInsert name values with
    | error fault => exact stays (insertRow_of_unbegun begun)
    | ok answer =>
      obtain ⟨⟨row, table, pending⟩, started⟩ := answer
      obtain ⟨after, ran, wrote⟩ := attending.onlooked.insertRow mapped begun calls memory
      have done := (attending.begun begun).written wrote
      have heeds := attending.inserted mapped ends apart foreign begun wrote
      exact ⟨.ok row, _, ran, ⟨⟨done.onlooked.formed, done.onlooked.proper, done.onlooked.hears⟩,
        done.told, done.stands⟩, idle, heeds, attending.insert_accounts begun wrote⟩
  | write row column value =>
    cases found : unit.changeOf row column value with
    | error fault => exact stays (Action.ask_bind_of_error found _)
    | ok answer =>
      obtain ⟨change, place⟩ := answer
      have seen := found
      obtain ⟨record, entity, held, -, -, -, -, -⟩ := changeOf_eq_ok.mp seen
      refine ⟨.ok (), _, attending.onlooked.writeColumn mapped calls found memory,
        attending.changed found, idle, ?_, attending.write_accounts mapped ends found⟩
      by_cases here : record.table = view.childTable
      · refine .inr (attending.changed_followed mapped ends apart found held here fun _ selfish => ?_)
        exact nomatch idle.symm.trans selfish.1
      · exact .inl (attending.changed_elsewhere found held here)
  | delete row =>
    cases found : unit.deletionOf row with
    | error fault => exact stays (Action.ask_bind_of_error found _)
    | ok deletion =>
      have seen := found
      obtain ⟨record, held, -, -⟩ := deletionOf_eq_ok.mp seen
      refine ⟨.ok (), _, attending.onlooked.deleteRow mapped calls found held memory,
        attending.removed found held, idle, ?_, attending.delete_accounts mapped ends found held⟩
      by_cases here : record.table = view.childTable
      · exact .inr (attending.removed_followed mapped ends apart found held here)
      · exact .inl (attending.removed_elsewhere found held here)
  | accept =>
    exact ⟨.ok (), unit.accept, rfl, attending.withStore rows.accept, idle, .inl
      ⟨rfl, fun _ _ _ => RowStore.isChild_accept.mpr⟩, attending.accept_accounts mapped ends⟩
  | _ => cases mutates

end

def Explained (unit : UnitOfWork) (steps : List Step) (id : ViewId) (view : RelationView) (index : Nat) :
    Prop :=
  ∀ key, unit.ownerKey view = .ok (some key) →
    unit.Confined id view index key (StaysBehind steps id view key)

end UnitOfWork

section

variable {steps : List Step} {unit : UnitOfWork} {parent child : Entity} {parentIndex index : Nat}
  (mapped : (model.entities.map (·.table)).Nodup)
  (ends : view.Ends model parent child parentIndex index)

include mapped ends

theorem UnitOfWork.Explained.step (last : Step) (explained : last.before.Explained steps id view index)
    (formed : last.after.model = model ∧ last.after.store.WellFormed model)
    (heeds : Unmoved last.before last.after id view index ∨ Followed last.before last.after id view index)
    (accounts : last.Accounts id view) : last.after.Explained (steps ++ [last]) id view index := by
  intro key owned members listed identity member
  by_cases points : ∃ row, last.after.store.IsChild view.childTable index key row identity
  · exact .inl points
  have apart (row : RowId) : ¬ last.after.PointsAt view key row identity := fun pointing =>
    points ⟨row, (isChild_iff_pointsAt_of_ends mapped formed ends key row identity).mpr pointing⟩
  by_cases same : last.before.ownerKey view = .ok (some key)
  · have before := explained key same
    have after : last.after.Confined id view index key (StaysBehind steps id view key) :=
      heeds.elim (·.confined before) (·.2 key _ same before)
    rcases after members listed identity member with child | stays
    · exact absurd child points
    · exact .inr (stays.onward owned apart)
  · exact .inr (.arrives steps same (accounts key same owned) owned listed member apart)

theorem PlainRun.explained {calls : Callbacks σ} {opening : UnitOfWork} {earlier : List Step} {memory : σ}
    (run : PlainRun calls opening steps unit memory)
    (mutates : ∀ step ∈ steps, step.operation.mutates = true)
    (apart : view.owner.table ≠ view.childTable)
    (foreign : (child.columns[index]?).any (·.primaryKey) = false)
    (attending : opening.Attending model id view) (idle : opening.inserting = none)
    (explained : opening.Explained earlier id view index) :
    unit.Attending model id view ∧ unit.inserting = none ∧
      unit.Explained (earlier ++ steps) id view index := by
  induction run with
  | start memory => exact ⟨attending, idle, by rwa [List.append_nil]⟩
  | @step steps before after memory kept operation result run allowed performed ih =>
    obtain ⟨earlierMutate, lastMutates⟩ := List.forall_mem_append.mp mutates
    obtain ⟨attending, idle, explained⟩ := ih earlierMutate
    have permitted : operation.mutates = true := lastMutates _ (List.mem_singleton_self _)
    obtain ⟨result', after', performed', attending', idle', heeds, accounts⟩ :=
      attending.perform mapped ends idle apart foreign calls permitted memory
    cases performed.symm.trans performed'
    rw [← List.append_assoc]
    exact ⟨attending', idle', explained.step mapped ends ⟨before, operation, result, after⟩
      attending'.onlooked.formed heeds accounts⟩

end

section

variable {environment : Environment σ} {depth : Nat} {start opening : UnitOfWork} {memory kept : σ}
  {parent child : Entity} {parentIndex index : Nat}
  (valid : model.validate = .ok ()) (named : (model.entities.map (·.name)).Nodup)
  (mapped : (model.entities.map (·.table)).Nodup)

include valid named mapped

theorem UnitOfWork.Undisturbed.opens (undisturbed : start.Undisturbed model)
    (ran : loadView (environment.guarded (fun _ => cutsOff) depth []) id start memory =
      some ⟨.ok (), opening, kept⟩)
    (found : start.views.get? id = some view) (unloaded : view.state = .unloaded) (alone : opening.Alone)
    (ends : view.Ends model parent child parentIndex index) :
    opening.Attending model id view ∧ opening.inserting = none ∧
      opening.Explained [⟨start, .load id, .ok (), opening⟩] id view index := by
  have below := loadView_below (environment.guarded_below (fun _ => cutsOff) depth []) id _ _ _ ran
  have formed := undisturbed.reachable.wellFormed
  have tethered := undisturbed.reachable.tethered valid named
  have arrived : opening.Tethered model := (tethered_leading valid named).performed tethered
    (show perform (environment.callbacks depth) (.load id) start memory = _ from below)
  have settled := wellFormed_perform (.load id) formed below
  have attuned : opening.Attuned model := (attuned_upheld model).perform
    ((attuned_upheld model).guarded False.elim depth [])
    (show start.cutsOff (.load id) = false from rfl) _ _ _ _ ran undisturbed.attuned
  obtain ⟨members, between, later, queried, stood, rfl⟩ := loadView_eq_ok below found unloaded
  have retains := (leads_queryMembers retains_concluding
    (Environment.lead retains_concluding environment.within_all depth) id view _ _ _ _ queried).1
  obtain ⟨_, same, alike⟩ := retains.views id later (tethered.opened id view found).1 stood
  cases found.symm.trans same
  obtain ⟨distinct, gathered⟩ := (queried_of_queryMembers queried).gathers mapped formed ends
  obtain ⟨now, held, same, loaded⟩ : ∃ now, (between.completeLoad id later members).views.get? id = some now ∧
      now.Alike view ∧ now.members? = some members :=
    ⟨_, by rw [completeLoad, Assoc.get?_insert, if_pos rfl], (later.withState_alike _).trans alike, rfl⟩
  refine ⟨⟨arrived.onlooked settled alone, fun channel => ?_, now, held, same, members, loaded, distinct⟩,
    (inserting_perform (.load id) below).trans undisturbed.idle, fun key owned others listed identity member => ?_⟩
  · rw [← same.childTable]
    exact attuned.hearing held loaded channel
  · cases (members?_of_found held loaded).symm.trans listed
    obtain ⟨key', row, before, child⟩ := gathered identity member
    by_cases points : ∃ row, (between.completeLoad id later members).store.IsChild view.childTable index key
        row identity
    · exact .inl points
    -- The members were found by a key that the row source has replaced.
    refine .inr (.arrives [] ?_ .loaded owned listed member fun row pointing => points ⟨row, ?_⟩)
    · intro asked
      cases before.symm.trans asked
      exact points ⟨row, child⟩
    · exact (isChild_iff_pointsAt_of_ends mapped settled ends key row identity).mpr pointing

/-- While rows are worked on, a view that has been loaded lists children of its owner's key only, and those
that it has listed since before its owner had that key. -/
theorem members_follow_key_or_stay_behind {steps : List Step} {unit : UnitOfWork} {column : Column}
    (undisturbed : start.Undisturbed model) (found : start.views.get? id = some view)
    (unloaded : view.members? = none) (apart : view.owner.table ≠ view.childTable)
    (childKnown : model.entity view.relation.child = .ok child)
    (childKey : child.column view.relation.childKey = .ok column) (foreign : column.primaryKey = false)
    (loaded : perform (environment.guarded (fun _ => UnitOfWork.cutsOff) depth []) (.load id) start memory =
      some ⟨.ok (), opening, kept⟩)
    (alone : opening.Alone) {calls : Callbacks τ} {memory' : τ}
    (run : PlainRun calls opening steps unit memory')
    (mutates : ∀ step ∈ steps, step.operation.mutates = true) :
    ∃ members, unit.members? id = some members ∧
      ∀ key, unit.ownerKey view = .ok (some key) → ∀ identity ∈ members,
        (∃ row, unit.PointsAt view key row identity) ∨
          StaysBehind (⟨start, .load id, .ok (), opening⟩ :: steps) id view key identity := by
  obtain ⟨owner, other, parentIndex, index, ends⟩ :=
    ((undisturbed.reachable.tethered valid named).opened id view found).2
  cases childKnown.symm.trans ends.childKnown
  obtain ⟨_, placed, listed⟩ := Entity.columnIndex_of_column childKey
  cases placed.symm.trans ends.childKey
  have state := RelationView.members?_eq_none.mp unloaded
  obtain ⟨attending, idle, explained⟩ := undisturbed.opens valid named mapped loaded found state alone ends
  obtain ⟨attending, -, explained⟩ := run.explained mapped ends mutates apart (by simp [listed, foreign])
    attending idle explained
  obtain ⟨now, members, -, -, -, -, listing⟩ := attending.members?_eq
  refine ⟨members, listing, fun key owned identity member => ?_⟩
  refine (explained key owned members listing identity member).imp_left <| Exists.imp fun row child => ?_
  exact (UnitOfWork.isChild_iff_pointsAt_of_ends mapped attending.onlooked.formed ends key row identity).mp
    child

end

def lineOfCode : Program Unit Unit :=
  .perform (.attach "Order" [.integer 1, .integer 5]) fun _ =>
  .perform (.attach "Line" [.integer 7, .integer 5]) fun _ =>
  .perform (.openView ⟨"orders", [.integer 1]⟩ "lines") fun _ =>
  .done ()

def linesOfCode : RelationView where
  owner := ⟨"orders", [.integer 1]⟩
  relation := ⟨"lines", "Order", "Line", "code", "order"⟩
  childEntity := "Line"
  childTable := "lines"
  state := .unloaded

-- Order 1 is given code 6 while its lines are loaded. Line 7 has code 5 still.
theorem line_of_recoded_order : ∃ start opening unit steps,
    start.Undisturbed codedOrders ∧ start.views.get? ⟨0⟩ = some linesOfCode ∧
      perform ((answering (.ok ())).guarded (fun _ => UnitOfWork.cutsOff) 1 []) (.load ⟨0⟩) start () =
        some ⟨.ok (), opening, ()⟩ ∧
      opening.Alone ∧ PlainRun nothingStored opening steps unit () ∧
      (∀ step ∈ steps, step.operation.changesRows = true ∧ step.operation.mutates = true) ∧
      unit.members? ⟨0⟩ = some [⟨"lines", [.integer 7]⟩] ∧
      unit.ownerKey linesOfCode = .ok (some (.integer 6)) ∧
      ∀ row, ¬ unit.PointsAt linesOfCode (.integer 6) row ⟨"lines", [.integer 7]⟩ := by
  refine ⟨_, _, _, _, ⟨Unit, Unit, answering (.ok ()), 1, lineOfCode, .standard, (), (), .ok (), rfl⟩, rfl,
    rfl, ?_, .step (.write ⟨0⟩ "code" (.integer 6)) (.start ()) rfl rfl, ?_, rfl, rfl, ?_⟩
  · intro channel table subscriber member
    change subscriber ∈ Channels.subscribers ⟨2, ⟨[("lines", [⟨⟨0⟩, .view ⟨0⟩⟩])]⟩,
      ⟨[("lines", [⟨⟨1⟩, .view ⟨0⟩⟩])]⟩⟩ channel table at member
    refine ⟨⟨0⟩, ?_⟩
    by_cases here : "lines" = table
    · cases channel <;>
        simpa [Channels.subscribers, Channels.on, Assoc.get?, Assoc.lookup, here] using member
    · cases channel <;>
        simp [Channels.subscribers, Channels.on, Assoc.get?, Assoc.lookup, here] at member
  · exact List.forall_mem_singleton.mpr ⟨rfl, rfl⟩
  · rintro row ⟨record, held, -, -, own, points⟩
    change Assoc.get? ⟨[(⟨0⟩, _), (⟨1⟩, _)]⟩ row = _ at held
    simp only [Assoc.get?, Assoc.lookup] at held
    split at held
    · cases held
      exact absurd own (by decide)
    split at held
    next here =>
      subst here
      cases points
    · cases held

-- A line stays listed that has another key than its order.
theorem line_of_recoded_order_listed : ¬ ∀ start opening unit steps view members key,
    start.Undisturbed codedOrders → start.views.get? ⟨0⟩ = some view → view.members? = none →
      view.owner.table ≠ view.childTable →
      perform ((answering (.ok ())).guarded (fun _ => UnitOfWork.cutsOff) 1 []) (.load ⟨0⟩) start () =
        some ⟨.ok (), opening, ()⟩ →
      opening.Alone → PlainRun nothingStored opening steps unit () →
      (∀ step ∈ steps, step.operation.changesRows = true) → unit.members? ⟨0⟩ = some members →
      unit.ownerKey view = .ok (some key) →
      ∀ identity ∈ members, ∃ row, unit.PointsAt view key row identity := by
  intro follows
  obtain ⟨start, opening, unit, steps, undisturbed, found, loaded, alone, run, each, listed, owned, apart⟩ :=
    line_of_recoded_order
  obtain ⟨row, points⟩ := follows start opening unit steps linesOfCode _ _ undisturbed found rfl (by decide)
    loaded alone run (fun step member => (each step member).1) listed owned _ (List.mem_singleton_self _)
  exact apart row points

theorem line_of_recoded_order_stays_behind : ∃ start opening unit steps,
    start.Undisturbed codedOrders ∧ PlainRun nothingStored opening steps unit () ∧
      ∃ members, unit.members? ⟨0⟩ = some members ∧
        ∀ key, unit.ownerKey linesOfCode = .ok (some key) → ∀ identity ∈ members,
          (∃ row, unit.PointsAt linesOfCode key row identity) ∨
            StaysBehind (⟨start, .load ⟨0⟩, .ok (), opening⟩ :: steps) ⟨0⟩ linesOfCode key identity := by
  obtain ⟨start, opening, unit, steps, undisturbed, found, loaded, alone, run, each, -⟩ :=
    line_of_recoded_order
  exact ⟨start, opening, unit, steps, undisturbed, run, members_follow_key_or_stay_behind (by decide)
    (by decide) (by decide) undisturbed found rfl (by decide) rfl rfl rfl loaded alone run
    fun step member => (each step member).2⟩

end RelationalMapper.Cache
