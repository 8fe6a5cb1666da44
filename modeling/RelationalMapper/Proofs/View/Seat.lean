import RelationalMapper.Proofs.View.Lasting
import RelationalMapper.Proofs.View.Membership
import RelationalMapper.Proofs.View.Quiet

set_option autoImplicit false

namespace RelationalMapper.Cache

theorem count_joined (members : List ObjectIdentity) (identity other : ObjectIdentity) :
    (joined members other).count identity =
      if other = identity then max (members.count identity) 1 else members.count identity := by
  unfold joined
  by_cases same : other = identity
  · subst same
    by_cases listed : other ∈ members
    · have := List.count_pos_iff.mpr listed
      simp only [listed, if_true]
      omega
    · simp [listed, List.count_eq_zero.mpr listed]
  · split <;> simp [List.count_append, same]

theorem count_iterate_erase (members : List ObjectIdentity) (identity other : ObjectIdentity)
    (count : Nat) : ((List.erase · other)^[count] members).count identity =
      if other = identity then members.count identity - count else members.count identity := by
  induction count generalizing members with
  | zero => simp
  | succ count ih =>
    rw [Function.iterate_succ_apply, ih, List.count_erase]
    by_cases same : other = identity
    · simp only [same, if_true, beq_self_eq_true]
      omega
    · simp [same]

/-- A row and its identity, and a view of the children of a key. -/
structure Seat where
  id : ViewId
  view : RelationView
  index : Nat
  key : Value
  row : RowId
  identity : ObjectIdentity

namespace Seat

variable {seat : Seat} {unit after : UnitOfWork} {model : Model} {listed : Nat} {points : Bool}

def Points (seat : Seat) (unit : UnitOfWork) : Prop :=
  unit.store.IsChild seat.view.childTable seat.index seat.key seat.row seat.identity

structure Kept (seat : Seat) (unit : UnitOfWork) (model : Model) : Prop where
  ready : unit.Ready model
  keyed : seat.view.Keyed model seat.index seat.key
  found : ∃ view, unit.views.get? seat.id = some view ∧ view.Alike seat.view
  resolved : unit.store.resolve? seat.identity = some seat.row

structure Stands (seat : Seat) (unit : UnitOfWork) (listed : Nat) (points : Bool) : Prop where
  points : seat.Points unit ↔ points = true
  owned : (unit.members? seat.id).isSome → (unit.store.resolve? seat.view.owner).isSome
  listed : ∀ members, unit.members? seat.id = some members →
    (unit.store.live.get? seat.view.owner).isSome → members.count seat.identity = listed

namespace Kept

theorem lasts (kept : seat.Kept unit model) (lasts : after.Lasts unit model) : seat.Kept after model where
  ready := lasts.ready
  keyed := kept.keyed
  found := by
    obtain ⟨view, found, alike⟩ := kept.found
    obtain ⟨later, found', alike', -⟩ := lasts.views _ view found
    exact ⟨later, found', alike'.trans alike⟩
  resolved := lasts.rows.resolved _ _ kept.resolved

theorem record (kept : seat.Kept unit model) :
    ∃ record, unit.store.records.get? seat.row = some record ∧ record.identity = seat.identity := by
  have formed := kept.ready.sound.rows
  rcases Option.or_eq_some_iff.mp kept.resolved with live | ⟨-, buried⟩
  · obtain ⟨record, held, same, -⟩ := (formed.live _ _).mp live
    exact ⟨record, held, same⟩
  · obtain ⟨record, held, same, -⟩ := formed.tombstones _ _ buried
    exact ⟨record, held, same⟩

theorem identity_eq (kept : seat.Kept unit model) {record : RowRecord}
    (held : unit.store.records.get? seat.row = some record) : record.identity = seat.identity := by
  obtain ⟨found, stood, same⟩ := kept.record
  cases held.symm.trans stood
  exact same

theorem row_eq (kept : seat.Kept unit model) {row : RowId} {record : RowRecord}
    (held : unit.store.records.get? row = some record) (live : record.state.isLive = true)
    (same : record.identity = seat.identity) : row = seat.row := by
  have resolved := kept.resolved
  rw [RowStore.resolve?, ← same, kept.ready.sound.rows.live_of_record held live] at resolved
  exact Option.some.inj resolved

theorem live_iff (kept : seat.Kept unit model) : (unit.store.live.get? seat.identity).isSome ↔
    ∃ record, unit.store.records.get? seat.row = some record ∧ record.state.isLive = true := by
  have formed := kept.ready.sound.rows
  constructor
  · intro alive
    obtain ⟨row, found⟩ := Option.isSome_iff_exists.mp alive
    have resolved := kept.resolved
    rw [RowStore.resolve?, found] at resolved
    cases resolved
    obtain ⟨record, held, -, live⟩ := (formed.live _ _).mp found
    exact ⟨record, held, live⟩
  · rintro ⟨record, held, live⟩
    rw [← kept.identity_eq held, formed.live_of_record held live]
    rfl

theorem ownerKey (wellMapped : model.WellMapped) (kept : seat.Kept unit model) {view : RelationView}
    (found : unit.views.get? seat.id = some view)
    (live : (unit.store.live.get? seat.view.owner).isSome) : unit.ownerKey view = .ok (some seat.key) := by
  obtain ⟨held, stood, alike⟩ := kept.found
  cases found.symm.trans stood
  apply UnitOfWork.ownerKey_of_keyed wellMapped kept.ready.sound (kept.keyed.alike alike)
  rwa [alike.owner]

theorem value (wellMapped : model.WellMapped) (kept : seat.Kept unit model) {view : RelationView}
    (found : unit.views.get? seat.id = some view) (points : seat.Points unit) :
    unit.value seat.row view.relation.childKey .current = .ok seat.key := by
  obtain ⟨held, stood, alike⟩ := kept.found
  cases found.symm.trans stood
  obtain ⟨-, -, -, -, -, valued⟩ :=
    (UnitOfWork.isChild_iff_pointsAt wellMapped kept.ready.sound kept.keyed _ _).mp points
  rwa [alike.relation]

theorem told (seated : seat.Kept unit model) (channel : Channel) (table : String) :
    (unit.channels.subscribers channel table).count (.view seat.id) ≤ 1 ∧
      (.view seat.id ∈ unit.channels.subscribers channel table → table = seat.view.childTable) ∧
      (.view seat.id ∉ unit.channels.subscribers channel table → table = seat.view.childTable →
        unit.members? seat.id = none) := by
  obtain ⟨view, found, alike⟩ := seated.found
  have counted := seated.ready.sound.wired.count_subscribers seat.id channel table
  rw [found, Option.elim_some, RelationView.subscriptions] at counted
  refine ⟨?_, ?_, ?_⟩
  · rw [counted]
    cases view.state <;> cases channel <;> grind
  · intro among
    rw [← alike.childTable]
    exact (seated.ready.sound.childTable found among).symm
  · rintro unheard rfl
    rw [List.count_eq_zero.mpr unheard] at counted
    cases state : view.state with
    | unloaded => simp [UnitOfWork.members?, found, RelationView.members?, state]
    | loaded => cases channel <;> simp [state, alike.childTable] at counted

end Kept

theorem Stands.move (stands : seat.Stands unit listed points) (rows : after.store.Lasts unit.store)
    {listed' : Nat} {points' : Bool} (pointing : seat.Points after ↔ points' = true)
    (members : ∀ later, after.members? seat.id = some later →
      ∃ earlier, unit.members? seat.id = some earlier ∧
        ((unit.store.live.get? seat.view.owner).isSome → earlier.count seat.identity = listed →
          later.count seat.identity = listed')) : seat.Stands after listed' points' where
  points := pointing
  owned loaded := by
    obtain ⟨later, found⟩ := Option.isSome_iff_exists.mp loaded
    obtain ⟨earlier, stood, -⟩ := members later found
    obtain ⟨owner, known⟩ := Option.isSome_iff_exists.mp (stands.owned (by simp [stood]))
    simp [rows.resolved _ _ known]
  listed later found live := by
    obtain ⟨earlier, stood, counted⟩ := members later found
    have lived := rows.live _ (stands.owned (by simp [stood])) live
    exact counted lived (stands.listed earlier stood lived)

theorem Stands.of_unloaded (stands : seat.Stands unit listed points)
    (unloaded : unit.members? seat.id = none) (others : Nat) : seat.Stands unit others points where
  points := stands.points
  owned := stands.owned
  listed members found := by simp [unloaded] at found

theorem Stands.stay (stands : seat.Stands unit listed points) (rows : after.store.Lasts unit.store)
    {points' : Bool} (pointing : seat.Points after ↔ points' = true)
    (members : after.members? seat.id = unit.members? seat.id) : seat.Stands after listed points' :=
  stands.move rows pointing fun later found => ⟨later, members ▸ found, fun _ counted => counted⟩

def heard (seat : Seat) (change : ColumnChange) (listed : Nat) : Nat :=
  if change.proposed = seat.key then max listed 1
  else if change.current = seat.key then listed - 1 else listed

-- A view that was right lists the row if and only if the new key is its own.
theorem heard_of_right {change : ColumnChange} (right : listed = points.toNat)
    (current : points = true ↔ change.current = seat.key) :
    seat.heard change listed = (decide (change.proposed = seat.key)).toNat := by
  subst right
  unfold heard
  by_cases joins : change.proposed = seat.key
  · cases points <;> simp [joins]
  · cases points <;> simp_all

theorem Stands.toldOfChange (wellMapped : model.WellMapped) (kept : seat.Kept unit model)
    (stands : seat.Stands unit listed points) {change : ColumnChange} {record : RowRecord}
    (held : unit.store.records.get? change.row = some record) (id : ViewId) :
    seat.Stands (unit.toldOfChange change [.view id])
      (if id = seat.id ∧ record.identity = seat.identity ∧
          change.column = seat.view.relation.childKey then seat.heard change listed else listed)
      points := by
  have rows : (unit.toldOfChange change [.view id]).store.Lasts unit.store := .refl _
  refine stands.move rows stands.points fun later found => ?_
  obtain ⟨view, earlier, stood, already, hears⟩ := UnitOfWork.members?_told (unit.afterChange_eq change) found
  refine ⟨earlier, UnitOfWork.members?_of_found stood already, fun live counted => ?_⟩
  by_cases here : id = seat.id
  · obtain ⟨_, stood', alike⟩ := kept.found
    cases stood.symm.trans stood'
    rw [if_pos here, UnitOfWork.afterChange_of_owned (kept.ownerKey wellMapped stood live) held already,
      RelationView.members?_of_loaded already, alike.relation] at hears
    cases hears
    by_cases foreign : change.column = seat.view.relation.childKey
    · have apart : ¬unit.SelfReferring change record.identity := by
        simp [UnitOfWork.SelfReferring, kept.ready.idle]
      rw [if_neg (by simp [foreign, apart])]
      by_cases same : record.identity = seat.identity <;>
        by_cases joins : change.proposed = seat.key <;>
        by_cases leaves : change.current = seat.key <;>
        simp [here, foreign, same, joins, leaves, heard, count_joined, List.count_erase, counted]
    · simp [foreign, counted]
  · rw [if_neg here] at hears
    simp [here, hears, counted]

theorem Kept.members?_toldOfDeletion (wellMapped : model.WellMapped) (kept : seat.Kept unit model)
    {deletion : RowDeletion} {record : RowRecord}
    (held : unit.store.records.get? deletion.row = some record)
    (resolved : (unit.store.resolve? record.identity).isSome) (id : ViewId)
    {members : List ObjectIdentity} (loaded : unit.members? seat.id = some members)
    (live : (unit.store.live.get? seat.view.owner).isSome) :
    ∃ count, (unit.toldOfDeletion deletion [.view id]).members? seat.id =
        some ((List.erase · record.identity)^[count] members) ∧ (id ≠ seat.id → count = 0) ∧
      (id = seat.id → deletion.row = seat.row → seat.Points unit → count ≠ 0) := by
  obtain ⟨view, found, already⟩ := Option.bind_eq_some_iff.mp loaded
  have owned := kept.ownerKey wellMapped found live
  obtain ⟨count, left, told⟩ := UnitOfWork.members?_toldOfDeletion deletion found already held
    (by simpa [Option.isSome_iff_ne_none] using resolved) [.view id]
  refine ⟨count, left, ?_, ?_⟩
  · intro apart
    by_contra heard
    obtain ⟨-, -, -, among⟩ := told.mp heard
    simp [apart.symm] at among
  · rintro rfl here pointing
    refine told.mpr ⟨seat.key, owned, .inl ?_, by simp⟩
    rw [here]
    exact kept.value wellMapped found pointing

-- A view that hears of the row's deletion lists it no longer, if it was right about the row.
theorem Stands.toldOfDeletion (wellMapped : model.WellMapped) (kept : seat.Kept unit model)
    (stands : seat.Stands unit listed points) {deletion : RowDeletion} {record : RowRecord}
    (held : unit.store.records.get? deletion.row = some record)
    (resolved : (unit.store.resolve? record.identity).isSome) (id : ViewId) :
    ∃ listed', seat.Stands (unit.toldOfDeletion deletion [.view id]) listed' points ∧ listed' ≤ listed ∧
      (id ≠ seat.id ∨ record.identity ≠ seat.identity → listed' = listed) ∧
      (id = seat.id → deletion.row = seat.row → listed ≤ points.toNat → listed' = 0) := by
  have rows : (unit.toldOfDeletion deletion [.view id]).store.Lasts unit.store := .refl _
  by_cases counting : (unit.members? seat.id).isSome ∧ (unit.store.live.get? seat.view.owner).isSome
  · obtain ⟨loaded, live⟩ := counting
    obtain ⟨members, loaded⟩ := Option.isSome_iff_exists.mp loaded
    obtain ⟨count, left, unheard, erased⟩ :=
      kept.members?_toldOfDeletion wellMapped held resolved id loaded live
    refine ⟨if record.identity = seat.identity then listed - count else listed, ?_, ?_, ?_, ?_⟩
    · refine stands.move rows stands.points fun later found' => ⟨members, loaded, fun _ counted => ?_⟩
      cases left.symm.trans found'
      rw [count_iterate_erase, counted]
    · split <;> omega
    · rintro (apart | apart)
      · simp [unheard apart]
      · rw [if_neg apart]
    · intro here same right
      rw [if_pos (kept.identity_eq (same ▸ held))]
      cases points with
      | false => exact Nat.eq_zero_of_le_zero (Nat.le_trans (Nat.sub_le ..) right)
      | true =>
        have once : listed ≤ 1 := right
        have gone := erased here same (stands.points.mpr rfl)
        omega
  · -- A view that is not loaded, or whose owner is not live, may list what it likes.
    refine ⟨if id = seat.id ∧ deletion.row = seat.row then 0 else listed, ?_, ?_, ?_, ?_⟩
    · refine stands.move rows stands.points fun later found => ?_
      obtain ⟨view, earlier, stood, already, -⟩ :=
        UnitOfWork.members?_told (unit.afterDeletion_eq deletion) found
      have loaded := UnitOfWork.members?_of_found stood already
      exact ⟨earlier, loaded, fun live => absurd ⟨by simp [loaded], live⟩ counting⟩
    · split <;> omega
    · intro apart
      rw [if_neg]
      rintro ⟨here, same⟩
      exact apart.elim (absurd here) (absurd (kept.identity_eq (same ▸ held)))
    · intro here same _
      simp [here, same]

section

variable {row : RowId} {record : RowRecord} {entity : Entity} {column : String} {place : Nat}
  (wellMapped : model.WellMapped)

include wellMapped

theorem place_eq (kept : seat.Kept unit model) (held : unit.store.records.get? row = some record)
    (known : model.entity record.entity = .ok entity) (placed : entity.columnIndex column = .ok place)
    (table : record.table = seat.view.childTable) :
    (place = seat.index ↔ column = seat.view.relation.childKey) ∧ place < record.current.length := by
  obtain ⟨parent, child, parentIndex, -, ends, -⟩ := kept.keyed
  obtain ⟨childKnown, fits⟩ := UnitOfWork.child_of_row wellMapped.mapped kept.ready.sound.formed ends held table
  cases known.symm.trans childKnown
  refine ⟨⟨?_, ?_⟩, ?_⟩
  · intro here
    by_contra apart
    exact Entity.columnIndex_ne placed ends.childKey apart here
  · rintro rfl
    cases placed.symm.trans ends.childKey
    rfl
  · obtain ⟨there, here, -⟩ := Entity.column_of_columnIndex placed
    rw [fits.current.width]
    exact (List.getElem?_eq_some_iff.mp here).1

theorem points_iff (kept : seat.Kept unit model) (held : unit.store.records.get? seat.row = some record)
    (live : record.state.isLive = true) (known : model.entity record.entity = .ok entity)
    (placed : entity.columnIndex seat.view.relation.childKey = .ok place) :
    seat.Points unit ↔
      record.table = seat.view.childTable ∧ record.current.getD place .null = seat.key := by
  rw [Points, RowStore.isChild_of_record held live]
  refine and_congr_right fun table => ?_
  rw [(place_eq wellMapped kept held known placed table).1.mpr rfl]
  simp [kept.identity_eq held]

theorem points_write_of_ne (kept : seat.Kept unit model) (held : unit.store.records.get? row = some record)
    (live : record.state.isLive = true) (known : model.entity record.entity = .ok entity)
    (placed : entity.columnIndex column = .ok place) (value : Value)
    (apart : row = seat.row → column ≠ seat.view.relation.childKey) :
    seat.Points { unit with store := unit.store.write row place value } ↔ seat.Points unit := by
  by_cases here : row = seat.row
  · subst here
    rw [Points, Points, RowStore.isChild_write_self held live, RowStore.isChild_of_record held live]
    refine and_congr_right fun table => and_congr_right fun _ => ?_
    have elsewhere : place ≠ seat.index := by
      rw [ne_eq, (place_eq wellMapped kept held known placed table).1]
      exact apart rfl
    simp [List.getD_eq_getElem?_getD, elsewhere]
  · exact RowStore.isChild_write_of_ne place value here

theorem points_write (kept : seat.Kept unit model)
    (held : unit.store.records.get? seat.row = some record) (live : record.state.isLive = true)
    (known : model.entity record.entity = .ok entity)
    (placed : entity.columnIndex seat.view.relation.childKey = .ok place) (value : Value) :
    seat.Points { unit with store := unit.store.write seat.row place value } ↔
      record.table = seat.view.childTable ∧ value = seat.key := by
  rw [Points, RowStore.isChild_write_self held live]
  refine and_congr_right fun table => ?_
  obtain ⟨same, within⟩ := place_eq wellMapped kept held known placed table
  rw [← same.mpr rfl]
  simp [kept.identity_eq held, List.getD_eq_getElem?_getD, within]

theorem Stands.write (kept : seat.Kept unit model) (stands : seat.Stands unit listed points)
    (held : unit.store.records.get? seat.row = some record) (live : record.state.isLive = true)
    (known : model.entity record.entity = .ok entity)
    (placed : entity.columnIndex seat.view.relation.childKey = .ok place) (value : Value) :
    seat.Stands { unit with store := unit.store.write seat.row place value } listed
      (decide (record.table = seat.view.childTable ∧ value = seat.key)) := by
  refine stands.stay (.write ..) ?_ rfl
  rw [points_write wellMapped kept held live known placed, decide_eq_true_iff]

theorem Stands.write_of_ne (kept : seat.Kept unit model) (stands : seat.Stands unit listed points)
    (held : unit.store.records.get? row = some record) (live : record.state.isLive = true)
    (known : model.entity record.entity = .ok entity) (placed : entity.columnIndex column = .ok place)
    (value : Value) (apart : row = seat.row → column ≠ seat.view.relation.childKey) :
    seat.Stands { unit with store := unit.store.write row place value } listed points := by
  refine stands.stay (.write ..) ?_ rfl
  rw [points_write_of_ne wellMapped kept held live known placed value apart]
  exact stands.points

end

theorem Stands.applyDeletion (kept : seat.Kept unit model) (stands : seat.Stands unit listed points)
    {row : RowId} (taken : unit.applyDeletion row = .ok after) :
    seat.Stands after listed (points && decide (row ≠ seat.row)) := by
  have lasts := UnitOfWork.Lasts.applyDeletion kept.ready taken
  obtain ⟨record, held, rfl⟩ := UnitOfWork.applyDeletion_eq_ok.mp taken
  by_cases live : record.state.isLive = true
  · simp only [if_pos live] at lasts ⊢
    refine stands.stay lasts.rows ?_ rfl
    rw [Points, RowStore.isChild_delete, Bool.and_eq_true, decide_eq_true_iff, and_comm, ← stands.points,
      Points]
  · simp only [if_neg live] at lasts ⊢
    refine stands.stay lasts.rows ?_ rfl
    rw [stands.points, Bool.and_eq_true, decide_eq_true_iff, iff_self_and]
    rintro pointing rfl
    obtain ⟨_, stood, alive, -⟩ := stands.points.mpr pointing
    cases held.symm.trans stood
    exact live alive

theorem live_applyDeletion (kept : seat.Kept unit model) {row : RowId} (apart : row ≠ seat.row)
    (taken : unit.applyDeletion row = .ok after) (alive : (unit.store.live.get? seat.identity).isSome) :
    (after.store.live.get? seat.identity).isSome := by
  obtain ⟨record, held, rfl⟩ := UnitOfWork.applyDeletion_eq_ok.mp taken
  split
  next live =>
    have elsewhere : record.identity ≠ seat.identity := fun same => apart (kept.row_eq held live same)
    change ((unit.store.delete row record).live.get? seat.identity).isSome
    rwa [RowStore.live_delete, if_neg elsewhere]
  next => exact alive

theorem points_attached (kept : seat.Kept unit model) (attached : after.Attached unit model) :
    seat.Points after ↔ seat.Points unit := by
  obtain ⟨record, held, -⟩ := kept.record
  exact RowStore.isChild_extend attached.extended (kept.ready.sound.rows.numbered _ record held)

theorem count_of_mirrors (kept : seat.Kept unit model) {members : List ObjectIdentity}
    (mirrors : Mirrors unit.store seat.view.childTable seat.index seat.key unit.Tracked members)
    (pointing : seat.Points unit ↔ points = true) : members.count seat.identity = points.toNat := by
  obtain ⟨record, held, same⟩ := kept.record
  have listed : seat.identity ∈ members ↔ seat.Points unit := by
    rw [mirrors.member]
    constructor
    · rintro ⟨row, child, -⟩
      have given := child
      obtain ⟨found, stood, alive, -, own, -⟩ := given
      cases kept.row_eq stood alive own
      exact child
    · exact fun child => ⟨seat.row, child, by simp [UnitOfWork.Tracked, held]⟩
  cases points with
  | false =>
    apply List.count_eq_zero.mpr
    simp [listed, pointing]
  | true => exact List.count_eq_one_of_mem mirrors.nodup (listed.mpr (pointing.mpr rfl))

theorem Stands.completeLoad (wellMapped : model.WellMapped) (kept : seat.Kept unit model)
    {between : UnitOfWork} {view : RelationView} {members : List ObjectIdentity}
    (found : unit.views.get? seat.id = some view) (came : between.Attached unit model)
    (live : (unit.store.live.get? view.owner).isSome)
    (mirrors : ∀ parent child parentIndex childIndex key,
      view.Ends model parent child parentIndex childIndex → unit.ownerKey view = .ok (some key) →
      Mirrors between.store view.childTable childIndex key between.Tracked members)
    (stands : seat.Stands unit listed points) :
    seat.Stands (between.completeLoad seat.id view members) points.toNat points := by
  have kept' := kept.lasts (.attached kept.ready came)
  have pointing := (points_attached kept came).trans stands.points
  obtain ⟨_, stood, alike⟩ := kept.found
  cases found.symm.trans stood
  rw [alike.owner] at live
  refine ⟨pointing, fun _ => ?_, fun others listing _ => ?_⟩
  · obtain ⟨owner, alive⟩ := Option.isSome_iff_exists.mp live
    have resolved : unit.store.resolve? seat.view.owner = some owner := by
      rw [RowStore.resolve?, alive, Option.some_or]
    change (between.store.resolve? seat.view.owner).isSome
    simp [came.lasts.resolved _ _ resolved]
  · rw [UnitOfWork.members?_completeLoad, if_pos rfl] at listing
    cases listing
    obtain ⟨parent, child, parentIndex, -, ends, -⟩ := kept.keyed.alike alike
    have mirrored := mirrors _ _ _ _ _ ends (kept.ownerKey wellMapped found live)
    rw [alike.childTable] at mirrored
    exact count_of_mirrors kept' mirrored pointing

end Seat

end RelationalMapper.Cache
