import RelationalMapper.Proofs.View.Membership
import RelationalMapper.Proofs.View.Onlooker
import RelationalMapper.Proofs.View.Underway

set_option autoImplicit false

namespace RelationalMapper.Cache

variable {σ : Type}

namespace RowStore

variable {store : RowStore} {model : Model} {table : String} {index place : Nat} {key value : Value}
  {row other : RowId} {identity : ObjectIdentity} {record : RowRecord}

theorem isChild_write_aside (held : store.records.get? row = some record)
    (live : record.state.isLive = true) (aside : record.table ≠ table ∨ place ≠ index) :
    (store.write row place value).IsChild table index key other identity ↔
      store.IsChild table index key other identity := by
  by_cases here : row = other
  · subst here
    rw [isChild_write_self held live, isChild_of_record held live]
    refine and_congr_right fun within => and_congr_right fun _ => ?_
    have apart : place ≠ index := aside.resolve_left (not_not.mpr within)
    rw [List.getD_eq_getElem?_getD, List.getD_eq_getElem?_getD, List.getElem?_set_ne apart]
  · exact isChild_write_of_ne place value here

theorem isChild_delete_aside (held : store.records.get? row = some record)
    (aside : record.table ≠ table) :
    (store.delete row record).IsChild table index key other identity ↔
      store.IsChild table index key other identity := by
  rw [isChild_delete]
  refine and_iff_right_of_imp ?_
  rintro ⟨found, stands, -, within, -⟩ rfl
  cases held.symm.trans stands
  exact aside within

theorem IsChild.extend {after : RowStore} (rows : store.WellFormed model) (extended : after.Extends store)
    (child : store.IsChild table index key other identity) :
    after.IsChild table index key other identity := by
  have held := child
  obtain ⟨record, held, -⟩ := held
  exact (isChild_extend extended (rows.numbered other record held)).mpr child

theorem IsChild.ne_identity (child : store.IsChild table index key other identity)
    (rows : store.WellFormed model) (held : store.records.get? row = some record)
    (live : record.state.isLive = true) (aside : record.current.getD index .null ≠ key) :
    identity ≠ record.identity := by
  rintro rfl
  cases child.row_eq rows held live rfl
  exact aside ((isChild_of_record held live).mp child).2.2

theorem IsChild.write_other (child : store.IsChild table index key other identity)
    (held : store.records.get? row = some record) (apart : identity ≠ record.identity) (place : Nat)
    (value : Value) : (store.write row place value).IsChild table index key other identity := by
  refine (isChild_write_of_ne place value ?_).mpr child
  rintro rfl
  exact apart (child.identity_eq held)

theorem IsChild.delete_other (child : store.IsChild table index key other identity)
    (held : store.records.get? row = some record) (apart : identity ≠ record.identity) :
    (store.delete row record).IsChild table index key other identity := by
  refine isChild_delete.mpr ⟨?_, child⟩
  rintro rfl
  exact apart (child.identity_eq held)

end RowStore

def RelationView.Listing (now view : RelationView) : Prop :=
  now.Alike view ∧ ∃ members, now.members? = some members ∧ members.Nodup

theorem RelationView.Listing.iterate {now view : RelationView} {patch : RelationView → RelationView}
    (listing : now.Listing view) (keeps : ∀ now : RelationView, now.Listing view → (patch now).Listing view)
    (count : Nat) : (patch^[count] now).Listing view := by
  induction count with
  | zero => exact listing
  | succ count ih =>
    rw [Function.iterate_succ_apply']
    exact keeps _ ih

namespace UnitOfWork

variable {unit between after : UnitOfWork} {model : Model} {id : ViewId} {now view : RelationView}
  {parent child : Entity} {parentIndex index : Nat} {row : RowId} {record : RowRecord}
  {column : String} {value key : Value} {change : ColumnChange} {place : Nat} {deletion : RowDeletion}
  {left : ObjectIdentity → Prop}

theorem ownerKey_alike (alike : now.Alike view) : unit.ownerKey now = unit.ownerKey view := by
  unfold ownerKey
  rw [alike.owner, alike.relation]

structure Attending (unit : UnitOfWork) (model : Model) (id : ViewId) (view : RelationView) : Prop where
  onlooked : unit.Onlooked model
  told : ∀ channel, .view id ∈ unit.channels.subscribers channel view.childTable
  stands : ∃ now, unit.views.get? id = some now ∧ now.Listing view

def Confined (unit : UnitOfWork) (id : ViewId) (view : RelationView) (index : Nat) (key : Value)
    (left : ObjectIdentity → Prop) : Prop :=
  ∀ members, unit.members? id = some members → ∀ identity ∈ members,
    (∃ row, unit.store.IsChild view.childTable index key row identity) ∨ left identity

def Unmoved (before after : UnitOfWork) (id : ViewId) (view : RelationView) (index : Nat) : Prop :=
  after.members? id = before.members? id ∧ ∀ key row identity,
    before.store.IsChild view.childTable index key row identity →
      after.store.IsChild view.childTable index key row identity

def Followed (before after : UnitOfWork) (id : ViewId) (view : RelationView) (index : Nat) : Prop :=
  after.ownerKey view = before.ownerKey view ∧ ∀ key left, before.ownerKey view = .ok (some key) →
    before.Confined id view index key left → after.Confined id view index key left

namespace Unmoved

theorem refl (unit : UnitOfWork) (id : ViewId) (view : RelationView) (index : Nat) :
    Unmoved unit unit id view index :=
  ⟨rfl, fun _ _ _ child => child⟩

theorem trans (first : Unmoved unit between id view index) (second : Unmoved between after id view index) :
    Unmoved unit after id view index :=
  ⟨second.1.trans first.1,
    fun key row identity child => second.2 key row identity (first.2 key row identity child)⟩

theorem confined (unmoved : Unmoved unit after id view index)
    (confined : unit.Confined id view index key left) : after.Confined id view index key left := by
  intro members listed identity member
  rw [unmoved.1] at listed
  exact (confined members listed identity member).imp_left <| Exists.imp fun row child =>
    unmoved.2 key row identity child

theorem followed (unmoved : Unmoved unit after id view index)
    (same : after.ownerKey view = unit.ownerKey view) : Followed unit after id view index :=
  ⟨same, fun _ _ _ => unmoved.confined⟩

end Unmoved

theorem Followed.trans (first : Followed unit between id view index)
    (second : Followed between after id view index) : Followed unit after id view index :=
  ⟨second.1.trans first.1, fun key left owned confined =>
    second.2 key left (first.1.trans owned) (first.2 key left owned confined)⟩

theorem listing_afterChange (listing : now.Listing view)
    (held : unit.store.records.get? change.row = some record) :
    (unit.afterChange change now).Listing view := by
  obtain ⟨alike, members, loaded, distinct⟩ := listing
  refine ⟨(RelationView.Repeopled.alike (unit.afterChange_eq change now)).1.trans alike, ?_⟩
  by_cases owned : ∃ key, unit.ownerKey now = .ok (some key)
  · obtain ⟨key, owned⟩ := owned
    rw [afterChange_of_owned owned held loaded, RelationView.members?_of_loaded loaded]
    refine ⟨_, rfl, ?_⟩
    split_ifs
    · exact distinct
    · exact nodup_joined distinct _
    · exact distinct.erase _
    · exact distinct
  · rw [afterChange_of_unowned (fun key found => owned ⟨key, found⟩)]
    exact ⟨members, loaded, distinct⟩

theorem listing_afterDeletion (listing : now.Listing view)
    (held : unit.store.records.get? deletion.row = some record)
    (resolved : (unit.store.resolve? record.identity).isNone = false) :
    (unit.afterDeletion deletion now).Listing view := by
  obtain ⟨alike, members, loaded, distinct⟩ := listing
  refine ⟨(RelationView.Repeopled.alike (unit.afterDeletion_eq deletion now)).1.trans alike, ?_⟩
  by_cases owned : ∃ key, unit.ownerKey now = .ok (some key)
  · obtain ⟨key, owned⟩ := owned
    by_cases pointing : unit.Pointing now deletion key
    · rw [afterDeletion_of_pointing owned pointing held resolved loaded,
        RelationView.members?_of_loaded loaded]
      exact ⟨_, rfl, distinct.erase _⟩
    · rw [afterDeletion_of_not_pointing owned pointing]
      exact ⟨members, loaded, distinct⟩
  · rw [afterDeletion_of_unowned (fun key found => owned ⟨key, found⟩)]
    exact ⟨members, loaded, distinct⟩

theorem get?_changed (unit : UnitOfWork) (change : ColumnChange) (place : Nat) (id : ViewId) :
    (unit.changed change place).views.get? id = (unit.views.get? id).map
      (unit.afterChange change)^[(unit.channels.subscribers .columnChanging change.table).count (.view id)] :=
  get?_tellViews ..

theorem get?_removed (unit : UnitOfWork) (deletion : RowDeletion) (record : RowRecord) (id : ViewId) :
    (unit.removed deletion record).views.get? id = (unit.views.get? id).map
      (unit.afterDeletion deletion)^[(unit.channels.subscribers .rowDeleting deletion.table).count (.view id)] :=
  get?_tellViews ..

theorem ownerKey_elsewhere (formed : unit.store.WellFormed model) (apart : view.owner.table ≠ view.childTable)
    (modelled : after.model = unit.model)
    (live : ∀ identity, identity.table ≠ view.childTable →
      after.store.live.get? identity = unit.store.live.get? identity)
    (records : ∀ other found, unit.store.records.get? other = some found → found.table ≠ view.childTable →
      after.store.records.get? other = some found) : after.ownerKey view = unit.ownerKey view := by
  refine ownerKey_congr modelled (live _ apart) fun owner alive => ?_
  obtain ⟨found, stood, own, -⟩ := (formed.live _ _).mp alive
  obtain ⟨entity, -, fits⟩ := formed.fits owner found stood
  rw [stood]
  refine records owner found stood ?_
  rwa [fits.table, ← fits.current.table, own]

namespace Attending

theorem untold (attending : unit.Attending model id view) (channel : Channel) {table : String}
    (elsewhere : table ≠ view.childTable) :
    (unit.channels.subscribers channel table).count (.view id) = 0 := by
  refine List.count_eq_zero.mpr fun member => ?_
  obtain ⟨now, found, alike, -⟩ := attending.stands
  obtain ⟨_, same, own⟩ := attending.onlooked.hears channel table _ member
  cases same
  exact elsewhere ((own now found).symm.trans alike.childTable)

theorem counted (attending : unit.Attending model id view) (channel : Channel) :
    (unit.channels.subscribers channel view.childTable).count (.view id) ≠ 0 :=
  Nat.ne_of_gt (List.count_pos_iff.mpr (attending.told channel))

theorem changed (attending : unit.Attending model id view)
    (found : unit.changeOf row column value = .ok (change, place)) :
    (unit.changed change place).Attending model id view := by
  obtain ⟨now, stood, listing⟩ := attending.stands
  obtain ⟨record, entity, held, -, -, -, -, built⟩ := changeOf_eq_ok.mp found
  refine ⟨attending.onlooked.changed found, attending.told, _, by rw [get?_changed, stood]; rfl, ?_⟩
  exact listing.iterate (fun _ listing => listing_afterChange listing (by rw [built]; exact held)) _

theorem removed (attending : unit.Attending model id view) (found : unit.deletionOf row = .ok deletion)
    (held : unit.store.records.get? row = some record) :
    (unit.removed deletion record).Attending model id view := by
  obtain ⟨_, same, live, rfl⟩ := deletionOf_eq_ok.mp found
  cases held.symm.trans same
  obtain ⟨now, stood, listing⟩ := attending.stands
  have rows := attending.onlooked.formed.2
  have resolved : (unit.store.resolve? record.identity).isNone = false := by
    rw [rows.resolve?_of_record held live]
    rfl
  refine ⟨(attending.onlooked.tellViews (unit.afterDeletion_eq _) _).withStore (rows.delete held live),
    attending.told, _, by rw [get?_removed, stood]; rfl, ?_⟩
  exact listing.iterate (fun _ listing => listing_afterDeletion listing held resolved) _

theorem withStore (attending : unit.Attending model id view) {store : RowStore}
    (formed : store.WellFormed model) : ({ unit with store } : UnitOfWork).Attending model id view :=
  ⟨attending.onlooked.withStore formed, attending.told, attending.stands⟩

theorem members?_eq (attending : unit.Attending model id view) : ∃ now members,
    unit.views.get? id = some now ∧ now.Alike view ∧ now.members? = some members ∧ members.Nodup ∧
      unit.members? id = some members := by
  obtain ⟨now, stood, alike, members, loaded, distinct⟩ := attending.stands
  exact ⟨now, members, stood, alike, loaded, distinct, members?_of_found stood loaded⟩

section

variable (attending : unit.Attending model id view)

include attending

theorem changed_elsewhere (found : unit.changeOf row column value = .ok (change, place))
    (held : unit.store.records.get? row = some record) (elsewhere : record.table ≠ view.childTable) :
    Unmoved unit (unit.changed change place) id view index := by
  obtain ⟨_, entity, same, live, -, -, -, built⟩ := changeOf_eq_ok.mp found
  cases held.symm.trans same
  have unheard := attending.untold .columnChanging elsewhere
  subst built
  refine ⟨?_, fun _ _ _ => (RowStore.isChild_write_aside held live (.inl elsewhere)).mpr⟩
  rw [UnitOfWork.members?, get?_changed, unheard, Function.iterate_zero, Option.map_id_fun]
  rfl

theorem removed_elsewhere (found : unit.deletionOf row = .ok deletion)
    (held : unit.store.records.get? row = some record) (elsewhere : record.table ≠ view.childTable) :
    Unmoved unit (unit.removed deletion record) id view index := by
  obtain ⟨_, same, live, built⟩ := deletionOf_eq_ok.mp found
  cases held.symm.trans same
  have unheard := attending.untold .rowDeleting elsewhere
  subst built
  refine ⟨?_, fun _ _ _ => (RowStore.isChild_delete_aside held elsewhere).mpr⟩
  rw [UnitOfWork.members?, get?_removed, unheard, Function.iterate_zero, Option.map_id_fun]
  rfl

variable (mapped : (model.entities.map (·.table)).Nodup)
  (ends : view.Ends model parent child parentIndex index)

include mapped ends

-- Whoever pointed at the key does so still, except the row that is written, and that one is let go of.
-- A row under insertion that names itself is not heard of; it has no foreign key before.
theorem changed_confined (found : unit.changeOf row column value = .ok (change, place))
    (held : unit.store.records.get? row = some record) (here : record.table = view.childTable)
    (blank : change.column = view.relation.childKey → unit.SelfReferring change record.identity →
      record.current.getD index .null = .null) (owned : unit.ownerKey view = .ok (some key))
    (confined : unit.Confined id view index key left) :
    (unit.changed change place).Confined id view index key left := by
  obtain ⟨_, entity, same, live, known, placed, -, rfl⟩ := changeOf_eq_ok.mp found
  cases held.symm.trans same
  obtain ⟨now, members, stood, alike, loaded, distinct, listed⟩ := attending.members?_eq
  obtain ⟨childKnown, fits⟩ := child_of_row mapped attending.onlooked.formed ends held here
  rw [attending.onlooked.formed.1, childKnown] at known
  cases known
  have rows := attending.onlooked.formed.2
  have told := attending.counted .columnChanging
  rw [← here] at told
  intro later hearing identity member
  rw [UnitOfWork.members?, get?_changed, stood, Option.map_some, Option.bind_some,
    iterate_afterChange (by rw [ownerKey_alike alike]; exact owned) held loaded,
    RelationView.members?_of_loaded loaded, iterate_membersHearing distinct told] at hearing
  cases hearing
  change (∃ other, (unit.store.write row place value).IsChild view.childTable index key other identity) ∨ _
  dsimp only at blank
  have others (apart : identity ≠ record.identity) (earlier : identity ∈ members) :
      (∃ other, (unit.store.write row place value).IsChild view.childTable index key other identity) ∨
        left identity :=
    (confined members listed identity earlier).imp_left <| Exists.imp fun _ child =>
      child.write_other held apart place value
  have aside (elsewhere : record.current.getD index .null ≠ key) (earlier : identity ∈ members) :
      (∃ other, (unit.store.write row place value).IsChild view.childTable index key other identity) ∨
        left identity :=
    (confined members listed identity earlier).imp_left <| Exists.imp fun _ child =>
      child.write_other held (child.ne_identity rows held live elsewhere) place value
  unfold membersHearing at member
  rw [alike.relation] at member
  by_cases foreign : column = view.relation.childKey
  · rw [foreign, ends.childKey] at placed
    cases placed
    split_ifs at member with unmoved joins leaves
    · refine aside ?_ member
      rw [blank foreign (unmoved.resolve_left (not_not.mpr foreign))]
      exact (ownerKey_present owned).symm
    · by_cases own : identity = record.identity
      · have within : index < record.current.length := by
          obtain ⟨listed, there, -⟩ := Entity.column_of_columnIndex ends.childKey
          rw [fits.current.width]
          exact (List.getElem?_eq_some_iff.mp there).1
        refine .inl ⟨row, (RowStore.isChild_write_self held live).mpr ⟨here, own.symm, ?_⟩⟩
        simpa [List.getD_eq_getElem?_getD, within] using joins
      · exact others own ((mem_joined.mp member).resolve_right own)
    · exact others (distinct.mem_erase_iff.mp member).1 (distinct.mem_erase_iff.mp member).2
    · exact aside leaves member
  · rw [if_pos (.inl foreign)] at member
    have unkeyed : place ≠ index := Entity.columnIndex_ne placed ends.childKey foreign
    exact (confined members listed identity member).imp_left <| Exists.imp fun _ child =>
      (RowStore.isChild_write_aside held live (.inr unkeyed)).mpr child

-- A deleted row is let go of if it points at the key, and was no child if it does not.
theorem removed_confined (found : unit.deletionOf row = .ok deletion)
    (held : unit.store.records.get? row = some record) (here : record.table = view.childTable)
    (owned : unit.ownerKey view = .ok (some key)) (confined : unit.Confined id view index key left) :
    (unit.removed deletion record).Confined id view index key left := by
  obtain ⟨_, same, live, rfl⟩ := deletionOf_eq_ok.mp found
  cases held.symm.trans same
  obtain ⟨now, members, stood, alike, loaded, distinct, listed⟩ := attending.members?_eq
  have rows := attending.onlooked.formed.2
  have told := attending.counted .rowDeleting
  rw [← here] at told
  have owned' : unit.ownerKey now = .ok (some key) := by rw [ownerKey_alike alike]; exact owned
  intro later hearing identity member
  rw [UnitOfWork.members?, get?_removed, stood, Option.map_some, Option.bind_some] at hearing
  suffices settled : identity ∈ members ∧ ∀ other,
      unit.store.IsChild view.childTable index key other identity → identity ≠ record.identity from
    (confined members listed identity settled.1).imp_left <| Exists.imp fun other child =>
      child.delete_other held (settled.2 other child)
  by_cases pointing : unit.Pointing now ⟨row, record.table, record.state⟩ key
  · have resolved : (unit.store.resolve? record.identity).isNone = false := by
      rw [rows.resolve?_of_record held live]
      rfl
    rw [iterate_afterDeletion owned' pointing held resolved loaded,
      RelationView.members?_of_loaded loaded] at hearing
    cases hearing
    obtain ⟨again, more⟩ := Nat.exists_eq_succ_of_ne_zero told
    rw [more, Function.iterate_succ_apply] at member
    have staying := distinct.mem_erase_iff.mp (mem_of_mem_iterate_erase member)
    exact ⟨staying.2, fun _ _ => staying.1⟩
  · rw [Function.iterate_fixed (afterDeletion_of_not_pointing owned' pointing), loaded] at hearing
    cases hearing
    refine ⟨member, fun other child => child.ne_identity rows held live fun points => pointing (.inl ?_)⟩
    rw [value_child mapped attending.onlooked.formed (ends.alike alike) held
      (here.trans alike.childTable.symm) .current]
    exact congrArg _ points

variable (apart : view.owner.table ≠ view.childTable)

include apart

theorem changed_followed (found : unit.changeOf row column value = .ok (change, place))
    (held : unit.store.records.get? row = some record) (here : record.table = view.childTable)
    (blank : change.column = view.relation.childKey → unit.SelfReferring change record.identity →
      record.current.getD index .null = .null) :
    Followed unit (unit.changed change place) id view index := by
  refine ⟨?_, fun key left => attending.changed_confined mapped ends found held here blank⟩
  obtain ⟨_, entity, -, -, -, -, -, rfl⟩ := changeOf_eq_ok.mp found
  refine ownerKey_elsewhere attending.onlooked.formed.2 apart rfl (fun _ _ => rfl) ?_
  intro other owner stood elsewhere
  change (unit.store.write row place value).records.get? other = _
  rw [RowStore.records_write, if_neg, stood]
  rintro rfl
  cases held.symm.trans stood
  exact elsewhere here

theorem removed_followed (found : unit.deletionOf row = .ok deletion)
    (held : unit.store.records.get? row = some record) (here : record.table = view.childTable) :
    Followed unit (unit.removed deletion record) id view index := by
  refine ⟨?_, fun key left => attending.removed_confined mapped ends found held here⟩
  obtain ⟨_, same, live, rfl⟩ := deletionOf_eq_ok.mp found
  cases held.symm.trans same
  have rows := attending.onlooked.formed.2
  refine ownerKey_elsewhere rows apart rfl (fun identity elsewhere => ?_) ?_
  · obtain ⟨entity, -, fits⟩ := rows.fits row record held
    change (unit.store.delete row record).live.get? identity = _
    rw [RowStore.live_delete, if_neg]
    rintro rfl
    exact elsewhere (fits.current.table.trans (fits.table.symm.trans here))
  · intro other owner stood elsewhere
    change (unit.store.delete row record).records.get? other = _
    rw [RowStore.records_delete, if_neg, stood]
    rintro rfl
    cases held.symm.trans stood
    exact elsewhere here

end

theorem written {values : List (String × Value)} (attending : unit.Attending model id view)
    (wrote : Written row values unit after) : after.Attending model id view := by
  induction wrote with
  | nil => exact attending
  | cons found _ ih => exact ih (attending.changed found)

theorem begun (attending : unit.Attending model id view) {name table : String}
    {values pending : List (String × Value)} {started : UnitOfWork}
    (begun : unit.beginInsert name values = .ok ((row, table, pending), started)) :
    started.Attending model id view := by
  refine ⟨attending.onlooked.beginInsert begun, ?_, ?_⟩ <;>
    obtain ⟨entity, arranged, identity, -, -, -, -, -, -, -, rfl⟩ := beginInsert_eq_ok.mp begun
  · exact attending.told
  · exact attending.stands

theorem written_elsewhere {values : List (String × Value)} (attending : unit.Attending model id view)
    (wrote : Written row values unit after) (held : unit.store.records.get? row = some record)
    (elsewhere : record.table ≠ view.childTable) : Unmoved unit after id view index := by
  induction wrote generalizing record with
  | nil unit => exact .refl unit id view index
  | @cons column value rest unit after change place found _ ih =>
    have moved : Unmoved unit (unit.changed change place) id view index :=
      attending.changed_elsewhere found held elsewhere
    have still : (unit.changed change place).store.records.get? row = some (record.write place value) := by
      obtain ⟨_, _, -, -, -, -, -, rfl⟩ := changeOf_eq_ok.mp found
      exact (RowStore.records_write ..).trans (by rw [if_pos rfl, held]; rfl)
    exact moved.trans (ih (attending.changed found) still elsewhere)

section

variable (mapped : (model.entities.map (·.table)).Nodup)
  (ends : view.Ends model parent child parentIndex index) (apart : view.owner.table ≠ view.childTable)
  (foreign : (child.columns[index]?).any (·.primaryKey) = false)

include mapped ends apart foreign

-- Each column is written once, so that nothing points at the key until the foreign key is written.
theorem written_here {values : List (String × Value)} {identity : ObjectIdentity} {done : List String}
    (attending : unit.Attending model id view) (wrote : Written row values unit after)
    (held : unit.store.records.get? row = some record) (underway : record.Underway child identity done)
    (once : (values.map (·.1)).Nodup) (fresh : ∀ entry ∈ values, entry.1 ∉ done) :
    Followed unit after id view index := by
  induction wrote generalizing record done with
  | nil unit => exact ⟨rfl, fun _ _ _ confined => confined⟩
  | @cons column value rest unit after change place found _ ih =>
    obtain ⟨single, once⟩ := List.nodup_cons.mp once
    have here := underway.table.trans ends.childTable.symm
    have seen := found
    obtain ⟨_, entity, same, -, known, placed, -, rfl⟩ := changeOf_eq_ok.mp seen
    cases held.symm.trans same
    have unwritten := fresh (column, value) (List.mem_cons_self ..)
    have followed := attending.changed_followed mapped ends apart found held here fun names _ =>
      underway.blank view.relation.childKey index ends.childKey foreign (names ▸ unwritten)
    rw [attending.onlooked.formed.1, underway.belongs, Model.entity_self ends.childKnown] at known
    cases known
    refine followed.trans (ih (attending.changed found) ?_ (underway.write placed value) once ?_)
    · exact (RowStore.records_write ..).trans (by rw [if_pos rfl, held]; rfl)
    · intro entry listed among
      rcases List.mem_cons.mp among with names | earlier
      · exact single (List.mem_map.mpr ⟨entry, listed, names⟩)
      · exact fresh entry (List.mem_cons_of_mem _ listed) earlier

theorem inserted (attending : unit.Attending model id view) {name table : String}
    {values pending : List (String × Value)} {started : UnitOfWork}
    (begun : unit.beginInsert name values = .ok ((row, table, pending), started))
    (wrote : Written row pending started after) :
    Unmoved unit after id view index ∨ Followed unit after id view index := by
  have rows := attending.onlooked.formed.2
  have ready := attending.begun begun
  have led := (attending.onlooked.beginInsert begun).formed
  obtain ⟨entity, arranged, identity, known, placed, -, free, rfl, rfl, rfl, rfl⟩ :=
    beginInsert_eq_ok.mp begun
  rw [attending.onlooked.formed.1] at known
  have held : (unit.store.register (beginning entity identity arranged)).2.records.get?
      ⟨unit.store.nextNumber⟩ = some (beginning entity identity arranged) := by
    rw [RowStore.records_register, if_pos rfl]
  have came : Unmoved unit { unit with
      store := (unit.store.register (beginning entity identity arranged)).2
      inserting := some ⟨unit.store.nextNumber⟩ } id view index :=
    ⟨rfl, fun key _ _ child => child.extend rows (.register unit.store free)⟩
  by_cases here : entity.table = view.childTable
  · have underway := RowRecord.Underway.beginning entity identity arranged
    have same : entity = child := List.inj_on_of_nodup_map mapped (Model.entity_mem known)
      (Model.entity_mem ends.childKnown) (here.trans ends.childTable)
    subst same
    refine .inr ((came.followed ?_).trans (ready.written_here mapped ends apart foreign wrote held underway
      (nodup_pendingValues placed) fun _ _ => List.not_mem_nil))
    refine ownerKey_elsewhere rows apart rfl (fun other elsewhere => ?_) fun other owner stood _ => ?_
    · refine (RowStore.live_register ..).trans (if_neg ?_)
      rintro rfl
      obtain ⟨_, -, fits⟩ := led.2.fits _ _ held
      exact elsewhere (fits.current.table.trans (fits.table.symm.trans here))
    · exact (RowStore.records_register ..).trans (by rw [if_neg (rows.ne_next stood), stood])
  · exact .inl (came.trans (ready.written_elsewhere wrote held here))

end

end Attending

end UnitOfWork

end RelationalMapper.Cache
