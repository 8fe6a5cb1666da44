import RelationalMapper.Proofs.View.Nested
import RelationalMapper.Proofs.View.Seat

set_option autoImplicit false

namespace RelationalMapper.Cache

namespace Seat

variable {σ : Type} {seat : Seat} {model : Model} {amid : List Announcement}
  {before unit after : UnitOfWork} {listed listed' listed'' : Nat} {points points' points'' : Bool}

def Fits (seat : Seat) (amid : List Announcement) (listed : Nat) (points : Bool) : Prop :=
  if .change seat.row seat.view.relation.childKey ∈ amid then True
  else if .deletion seat.row ∈ amid then listed ≤ points.toNat
  else listed = points.toNat

def Turn (seat : Seat) (amid : List Announcement) (listed : Nat) (points : Bool) (listed' : Nat)
    (points' : Bool) : Prop :=
  if .change seat.row seat.view.relation.childKey ∈ amid then listed' = listed ∧ points' = points
  else if .deletion seat.row ∈ amid then listed' ≤ listed ∧ listed' ≤ points'.toNat
  else listed' = points'.toNat

theorem Fits.turn (fits : seat.Fits amid listed points) : seat.Turn amid listed points listed points := by
  unfold Fits at fits
  unfold Turn
  split at fits
  · simp [*]
  · split at fits <;> simp_all

theorem Turn.fits (turn : seat.Turn amid listed points listed' points') :
    seat.Fits amid listed' points' := by
  unfold Turn at turn
  unfold Fits
  split at turn
  · simp [*]
  · split at turn <;> simp_all

theorem Turn.trans (first : seat.Turn amid listed points listed' points')
    (second : seat.Turn amid listed' points' listed'' points'') :
    seat.Turn amid listed points listed'' points'' := by
  unfold Turn at *
  split at first
  next changing =>
    rw [if_pos changing] at second ⊢
    exact ⟨second.1.trans first.1, second.2.trans first.2⟩
  next unchanging =>
    rw [if_neg unchanging] at second ⊢
    split at first
    next deleting =>
      rw [if_pos deleting] at second ⊢
      exact ⟨Nat.le_trans second.1 first.1, second.2⟩
    next idle =>
      rw [if_neg idle] at second ⊢
      exact second

def Concerned (seat : Seat) (announcement : Announcement) : Prop :=
  announcement = .change seat.row seat.view.relation.childKey ∨ announcement = .deletion seat.row

structure Course (seat : Seat) (model : Model) (amid : List Announcement) (before after : UnitOfWork) :
    Prop where
  lasts : after.Lasts before model
  live : .change seat.row seat.view.relation.childKey ∈ amid →
    (before.store.live.get? seat.identity).isSome → (after.store.live.get? seat.identity).isSome
  turns : ∀ listed points, seat.Fits amid listed points → seat.Stands before listed points →
    ∃ listed' points', seat.Turn amid listed points listed' points' ∧ seat.Stands after listed' points'

namespace Course

theorem still (lasts : after.Lasts before model)
    (live : (before.store.live.get? seat.identity).isSome →
      (after.store.live.get? seat.identity).isSome)
    (stays : ∀ listed points, seat.Stands before listed points → seat.Stands after listed points) :
    seat.Course model amid before after :=
  ⟨lasts, fun _ => live, fun listed points fits stands =>
    ⟨listed, points, fits.turn, stays listed points stands⟩⟩

theorem refl (ready : unit.Ready model) : seat.Course model amid unit unit :=
  still (.refl ready) (fun alive => alive) fun _ _ stands => stands

theorem trans (first : seat.Course model amid before unit) (second : seat.Course model amid unit after) :
    seat.Course model amid before after where
  lasts := second.lasts.trans first.lasts
  live changing alive := second.live changing (first.live changing alive)
  turns listed points fits stands := by
    obtain ⟨listed', points', turn, stands⟩ := first.turns listed points fits stands
    obtain ⟨listed'', points'', turn', stands⟩ := second.turns listed' points' turn.fits stands
    exact ⟨listed'', points'', turn.trans turn', stands⟩

theorem changing (course : seat.Course model amid before after)
    (changing : .change seat.row seat.view.relation.childKey ∈ amid)
    (stands : seat.Stands before listed points) : seat.Stands after listed points := by
  obtain ⟨listed', points', turn, stays⟩ := course.turns listed points (by simp [Fits, changing]) stands
  rw [Turn, if_pos changing] at turn
  obtain ⟨rfl, rfl⟩ := turn
  exact stays

theorem deleting (course : seat.Course model (.deletion seat.row :: amid) before after)
    (unchanging : .change seat.row seat.view.relation.childKey ∉ amid)
    (stands : seat.Stands before listed points) (fair : listed ≤ points.toNat) :
    ∃ listed' points', seat.Stands after listed' points' ∧ listed' ≤ listed ∧ listed' ≤ points'.toNat := by
  obtain ⟨listed', points', turn, stands⟩ :=
    course.turns listed points (by simpa [Fits, unchanging] using fair) stands
  rw [Turn, if_neg (by simp [unchanging]), if_pos (List.mem_cons_self ..)] at turn
  exact ⟨listed', points', stands, turn⟩

theorem aside {announcement : Announcement} (apart : ¬seat.Concerned announcement) :
    seat.Course model (announcement :: amid) before after ↔ seat.Course model amid before after := by
  simp only [Concerned, not_or, ← ne_eq] at apart
  have changing : .change seat.row seat.view.relation.childKey ∈ announcement :: amid ↔
      .change seat.row seat.view.relation.childKey ∈ amid := by simp [apart.1.symm]
  have deleting : .deletion seat.row ∈ announcement :: amid ↔ .deletion seat.row ∈ amid := by
    simp [apart.2.symm]
  constructor <;> rintro ⟨lasts, live, turns⟩ <;>
    exact ⟨lasts, by simpa only [changing] using live,
      by simpa only [Fits, Turn, changing, deleting] using turns⟩

end Course

theorem Kept.row_of_announced (kept : seat.Kept unit model) {row : RowId} {identity : ObjectIdentity}
    {table : String} {subscribers : List Subscriber}
    (announced : Announced unit row identity table subscribers) (same : identity = seat.identity) :
    row = seat.row := by
  have resolved := announced.resolved
  rw [same, kept.resolved] at resolved
  exact (Option.some.inj resolved).symm

structure Obeys (seat : Seat) (model : Model) (amid : List Announcement) (calls : Callbacks σ) : Prop where
  columnChanging : ∀ {key change unit memory result after kept}, seat.Kept unit model →
    calls.columnChanging key change unit memory = some ⟨result, after, kept⟩ →
    result = .ok () ∧ seat.Course model (.change change.row change.column :: amid) unit after
  rowDeleting : ∀ {key deletion unit memory result after kept}, seat.Kept unit model →
    calls.rowDeleting key deletion unit memory = some ⟨result, after, kept⟩ →
    result = .ok () ∧ seat.Course model (.deletion deletion.row :: amid) unit after
  fetch : ∀ {view command fetch unit memory result after kept},
    calls.fetch view command fetch unit memory = some ⟨result, after, kept⟩ → after = unit

section

variable {follow : UnitOfWork → ViewId → Except Fault UnitOfWork} {call : ListenerKey → Action σ Unit}
  {memory kept : σ} {result : Except Fault Unit}

theorem tell_append (subscribers others : List Subscriber) :
    tell follow call (subscribers ++ others) =
      tell follow call subscribers >>= fun _ => tell follow call others := by
  induction subscribers with
  | nil => rfl
  | cons subscriber rest ih =>
    rw [List.cons_append, tell, tell, ih, Action.bind_bind]

-- A view that is told in between hears what those before it have left.
theorem tell_between {id : ViewId} {earlier later : List Subscriber}
    (told : tell follow call (earlier ++ .view id :: later) unit memory = some ⟨result, after, kept⟩)
    (accepted : ∀ {answer between halfway},
      tell follow call earlier unit memory = some ⟨answer, between, halfway⟩ → answer = .ok ()) :
    ∃ between halfway, tell follow call earlier unit memory = some ⟨.ok (), between, halfway⟩ ∧
      ∀ followed, follow between id = .ok followed →
        tell follow call later followed halfway = some ⟨result, after, kept⟩ := by
  rw [tell_append] at told
  rcases Action.bind_eq_some.mp told with ⟨_, between, halfway, first, told⟩ | ⟨_, _, _, first, _⟩
  · refine ⟨between, halfway, first, fun followed same => ?_⟩
    rw [tell, tellOne, Action.bind_bind, Action.ask_bind_of_ok same] at told
    exact told
  · cases accepted first

theorem split_of_mem {subscriber : Subscriber} {subscribers : List Subscriber}
    (among : subscriber ∈ subscribers) (once : subscribers.count subscriber ≤ 1) :
    ∃ earlier later, subscribers = earlier ++ subscriber :: later ∧ subscriber ∉ earlier ∧
      subscriber ∉ later := by
  obtain ⟨earlier, later, rfl⟩ := List.append_of_mem among
  rw [List.count_append, List.count_cons_self] at once
  refine ⟨earlier, later, rfl, ?_, ?_⟩ <;> rw [← List.count_eq_zero] <;> omega

theorem course_onward (row : RowId) (identity : ObjectIdentity) (table : String)
    (subscribers : List Subscriber) :
    Onward (fun unit => seat.Kept unit model ∧ Announced unit row identity table subscribers)
      (seat.Course model amid) where
  refl holds := .refl holds.1.ready
  trans := .trans
  arrives holds course := ⟨holds.1.lasts course.lasts, holds.2.lasts course.lasts⟩

-- The subscribers before the view and those after it keep to the course.
theorem tell_split {row : RowId} {identity : ObjectIdentity} {table : String}
    {subscribers : List Subscriber}
    (listeners : ∀ {key unit memory result after kept}, seat.Kept unit model →
      call key unit memory = some ⟨result, after, kept⟩ →
      result = .ok () ∧ seat.Course model amid unit after)
    (views : ∀ {id unit}, .view id ∈ subscribers → seat.Kept unit model →
      Announced unit row identity table subscribers → ∃ after, follow unit id = .ok after ∧
        after.Lasts unit model ∧ (id ≠ seat.id → seat.Course model amid unit after))
    (seated : seat.Kept unit model) (announced : Announced unit row identity table subscribers)
    (among : .view seat.id ∈ subscribers) (once : subscribers.count (.view seat.id) ≤ 1)
    (told : tell follow call subscribers unit memory = some ⟨result, after, kept⟩) :
    result = .ok () ∧ ∃ between heard, seat.Course model amid unit between ∧
      Announced between row identity table subscribers ∧ follow between seat.id = .ok heard ∧
      seat.Course model amid heard after := by
  obtain ⟨earlier, later, rfl, unheard, unheard'⟩ := split_of_mem among once
  have part {others : List Subscriber}
      (within : ∀ id, .view id ∈ others → .view id ∈ earlier ++ .view seat.id :: later)
      (without : .view seat.id ∉ others) {unit after : UnitOfWork} {memory kept : σ}
      {result : Except Fault Unit} (seated : seat.Kept unit model)
      (announced : Announced unit row identity table (earlier ++ .view seat.id :: later))
      (told : tell follow call others unit memory = some ⟨result, after, kept⟩) :
      result = .ok () ∧ seat.Course model amid unit after := by
    refine tell_onward (course_onward ..) (fun holds => listeners holds.1) ?_ ⟨seated, announced⟩ told
    rintro id unit among ⟨seated, announced⟩
    obtain ⟨followed, same, -, course⟩ := views (within id among) seated announced
    exact ⟨followed, same, course fun here => without (here ▸ among)⟩
  have before (id : ViewId) (among : .view id ∈ earlier) :
      .view id ∈ earlier ++ .view seat.id :: later := List.mem_append_left _ among
  have behind (id : ViewId) (among : .view id ∈ later) :
      .view id ∈ earlier ++ .view seat.id :: later :=
    List.mem_append_right _ (List.mem_cons_of_mem _ among)
  obtain ⟨between, halfway, came, rest⟩ :=
    tell_between told fun came => (part before unheard seated announced came).1
  obtain ⟨-, course⟩ := part before unheard seated announced came
  have seated' := seated.lasts course.lasts
  have announced' := announced.lasts course.lasts
  obtain ⟨heard, followed, lasts, -⟩ := views among seated' announced'
  obtain ⟨accepted, course'⟩ :=
    part behind unheard' (seated'.lasts lasts) (announced'.lasts lasts) (rest heard followed)
  exact ⟨accepted, between, heard, course, announced', followed, course'⟩

end

section

variable {calls : Callbacks σ} {memory kept : σ} {result : Except Fault Unit} {identity : ObjectIdentity}
  {table : String} {subscribers : List Subscriber} (wellMapped : model.WellMapped)

include wellMapped

theorem course_toldOfChange (seated : seat.Kept unit model) {change : ColumnChange}
    (announced : Announced unit change.row identity table subscribers) (id : ViewId)
    (elsewhere : id = seat.id → change.row = seat.row → change.column ≠ seat.view.relation.childKey) :
    seat.Course model amid unit (unit.toldOfChange change [.view id]) := by
  refine .still (announced.toldOfChange seated.ready id) (fun alive => alive) ?_
  intro listed points stands
  obtain ⟨record, held, -, own⟩ := announced.record
  have heard := stands.toldOfChange wellMapped seated held id
  rwa [if_neg] at heard
  rintro ⟨here, same, foreign⟩
  exact elsewhere here (seated.row_of_announced announced (own.symm.trans same)) foreign

theorem course_toldOfDeletion (seated : seat.Kept unit model) {deletion : RowDeletion}
    (announced : Announced unit deletion.row identity table subscribers) (id : ViewId)
    (elsewhere : id = seat.id → deletion.row ≠ seat.row) :
    seat.Course model amid unit (unit.toldOfDeletion deletion [.view id]) := by
  refine .still (announced.toldOfDeletion seated.ready id) (fun alive => alive) ?_
  intro listed points stands
  obtain ⟨record, held, -, own⟩ := announced.record
  obtain ⟨listed', heard, -, same, -⟩ := stands.toldOfDeletion wellMapped seated held
    (by simp [own, announced.resolved]) id
  rwa [same] at heard
  by_cases here : id = seat.id
  · exact .inr fun same => elsewhere here (seated.row_of_announced announced (own.symm.trans same))
  · exact .inl here

variable (obeys : seat.Obeys model amid calls)

include obeys

theorem tellChange_course (seated : seat.Kept unit model) {change : ColumnChange}
    (announced : Announced unit change.row identity table subscribers)
    (elsewhere : .view seat.id ∈ subscribers → change.row = seat.row →
      change.column ≠ seat.view.relation.childKey)
    (told : tellChange calls change subscribers unit memory = some ⟨result, after, kept⟩) :
    result = .ok () ∧ seat.Course model (.change change.row change.column :: amid) unit after := by
  rw [tellChange_eq] at told
  refine tell_onward (course_onward ..) (fun holds => obeys.columnChanging holds.1) ?_
    ⟨seated, announced⟩ told
  rintro id unit among ⟨seated, announced⟩
  refine ⟨_, announced.followChange wellMapped seated.ready.sound id, ?_⟩
  exact course_toldOfChange wellMapped seated announced id fun here => elsewhere (here ▸ among)

theorem tellDeletion_course (seated : seat.Kept unit model) {deletion : RowDeletion}
    (announced : Announced unit deletion.row identity table subscribers)
    (elsewhere : .view seat.id ∈ subscribers → deletion.row ≠ seat.row)
    (told : tellDeletion calls deletion subscribers unit memory = some ⟨result, after, kept⟩) :
    result = .ok () ∧ seat.Course model (.deletion deletion.row :: amid) unit after := by
  rw [tellDeletion_eq] at told
  refine tell_onward (course_onward ..) (fun holds => obeys.rowDeleting holds.1) ?_
    ⟨seated, announced⟩ told
  rintro id unit among ⟨seated, announced⟩
  refine ⟨_, announced.followDeletion wellMapped seated.ready.sound among, ?_⟩
  exact course_toldOfDeletion wellMapped seated announced id fun here => elsewhere (here ▸ among)

-- The foreign key of the seat's row is announced to change, and the view hears of it once if at all.
theorem tellChange_own (seated : seat.Kept unit model) {change : ColumnChange}
    (announced : Announced unit change.row identity table subscribers) (own : change.row = seat.row)
    (foreign : change.column = seat.view.relation.childKey)
    (once : subscribers.count (.view seat.id) ≤ 1)
    (told : tellChange calls change subscribers unit memory = some ⟨result, after, kept⟩) :
    result = .ok () ∧ after.Lasts unit model ∧
      ((unit.store.live.get? seat.identity).isSome → (after.store.live.get? seat.identity).isSome) ∧
      ∀ listed points, seat.Stands unit listed points → seat.Stands after
        (if .view seat.id ∈ subscribers then seat.heard change listed else listed) points := by
  have changing : .change seat.row seat.view.relation.childKey ∈
      .change change.row change.column :: amid := by simp [own, foreign]
  by_cases among : .view seat.id ∈ subscribers
  · rw [tellChange_eq] at told
    obtain ⟨accepted, between, heard, course, announced', followed, course'⟩ :=
      tell_split obeys.columnChanging (fun _ seated announced =>
        ⟨_, announced.followChange wellMapped seated.ready.sound _, announced.toldOfChange seated.ready _,
          fun apart => course_toldOfChange wellMapped seated announced _ fun here => absurd here apart⟩)
        seated announced among once told
    have seated' := seated.lasts course.lasts
    cases followed.symm.trans (announced'.followChange wellMapped seated'.ready.sound seat.id)
    have hears := announced'.toldOfChange seated'.ready seat.id
    refine ⟨accepted, course'.lasts.trans (hears.trans course.lasts),
      fun alive => course'.live changing (course.live changing alive), fun listed points stands => ?_⟩
    rw [if_pos among]
    apply course'.changing changing
    obtain ⟨record, held, -, same⟩ := announced'.record
    have heard := (course.changing changing stands).toldOfChange wellMapped seated' held seat.id
    rwa [if_pos ⟨rfl, seated'.identity_eq (own ▸ held), foreign⟩] at heard
  · obtain ⟨accepted, course⟩ :=
      tellChange_course wellMapped obeys seated announced (fun heard => absurd heard among) told
    refine ⟨accepted, course.lasts, course.live changing, fun listed points stands => ?_⟩
    rw [if_neg among]
    exact course.changing changing stands

-- The seat's row is announced to go, and a view that was right and hears of it lists the row no more.
theorem tellDeletion_own (seated : seat.Kept unit model) {deletion : RowDeletion}
    (announced : Announced unit deletion.row identity table subscribers) (own : deletion.row = seat.row)
    (unchanging : .change seat.row seat.view.relation.childKey ∉ amid)
    (once : subscribers.count (.view seat.id) ≤ 1)
    (told : tellDeletion calls deletion subscribers unit memory = some ⟨result, after, kept⟩) :
    result = .ok () ∧ after.Lasts unit model ∧
      ∀ listed points, seat.Stands unit listed points → listed ≤ points.toNat →
        ∃ listed' points', seat.Stands after listed' points' ∧ listed' ≤ listed ∧
          listed' ≤ points'.toNat ∧ (.view seat.id ∈ subscribers → listed' = 0) := by
  by_cases among : .view seat.id ∈ subscribers
  · rw [tellDeletion_eq] at told
    obtain ⟨accepted, between, heard, course, announced', followed, course'⟩ :=
      tell_split obeys.rowDeleting (fun among seated announced =>
        ⟨_, announced.followDeletion wellMapped seated.ready.sound among,
          announced.toldOfDeletion seated.ready _,
          fun apart => course_toldOfDeletion wellMapped seated announced _ fun here => absurd here apart⟩)
        seated announced among once told
    have seated' := seated.lasts course.lasts
    cases followed.symm.trans (announced'.followDeletion wellMapped seated'.ready.sound among)
    have hears := announced'.toldOfDeletion seated'.ready seat.id
    refine ⟨accepted, course'.lasts.trans (hears.trans course.lasts), fun listed points stands fair => ?_⟩
    rw [own] at course course'
    obtain ⟨fewer, points', stands, less, fair⟩ := course.deleting unchanging stands fair
    obtain ⟨record, held, -, same⟩ := announced'.record
    obtain ⟨none, stands, -, -, gone⟩ := stands.toldOfDeletion wellMapped seated' held
      (by simp [same, announced'.resolved]) seat.id
    have gone := gone rfl own fair
    obtain ⟨last, points'', stands, least, fair⟩ := course'.deleting unchanging stands (by omega)
    exact ⟨last, points'', stands, by omega, fair, fun _ => by omega⟩
  · obtain ⟨accepted, course⟩ :=
      tellDeletion_course wellMapped obeys seated announced (absurd · among) told
    refine ⟨accepted, course.lasts, fun listed points stands fair => ?_⟩
    rw [own] at course
    obtain ⟨listed', points', stands, fewer, fair⟩ := course.deleting unchanging stands fair
    exact ⟨listed', points', stands, fewer, fair, fun heard => absurd heard among⟩

-- A write of the foreign key, at a time at which nothing else is announced about the row.
theorem writeColumn_own (seated : seat.Kept unit model) {value : Value}
    (unchanging : .change seat.row seat.view.relation.childKey ∉ amid)
    (undeleting : .deletion seat.row ∉ amid)
    (ran : writeColumn calls seat.row seat.view.relation.childKey value unit memory =
      some ⟨result, after, kept⟩) : seat.Course model amid unit after := by
  obtain ⟨-, -, rfl⟩ | ⟨change, place, told, between, halfway, found, announced, takes⟩ :=
    writeColumn_eq_some ran
  · exact .refl seated.ready
  have asked := found
  obtain ⟨record, entity, held, live, known, placed, -, rfl⟩ := UnitOfWork.changeOf_eq_ok.mp asked
  rw [seated.ready.sound.modelled] at known
  obtain ⟨once, here, unheard⟩ := seated.told .columnChanging record.table
  obtain ⟨rfl, lasts, alive, heard⟩ := tellChange_own wellMapped obeys seated
    (.of_live seated.ready.sound held live .columnChanging) rfl rfl once announced
  have seated' := seated.lasts lasts
  obtain ⟨later, held', live'⟩ := seated'.live_iff.mp (alive (seated.live_iff.mpr ⟨record, held, live⟩))
  obtain ⟨_, stood, same, table, -⟩ := lasts.rows.records _ record held
  cases held'.symm.trans stood
  cases takes with
  | failed failed =>
    cases failed.symm.trans (UnitOfWork.applyChange_eq_ok.mpr ⟨⟨later, held', live'⟩, rfl⟩)
  | effect taken =>
    have wrote := UnitOfWork.Lasts.applyChange seated.ready lasts found taken
    obtain ⟨-, rfl⟩ := UnitOfWork.applyChange_eq_ok.mp taken
    refine ⟨wrote.trans lasts, (absurd · unchanging), fun listed points right stands => ?_⟩
    simp only [Fits, if_neg unchanging, if_neg undeleting] at right
    simp only [Turn, if_neg unchanging, if_neg undeleting]
    have written {count : Nat} (stood : seat.Stands between count points) :=
      stood.write wellMapped seated' held' live' (same ▸ known) placed value
    rw [table] at written
    -- The value announced as the current one is still the row's when the view hears of it.
    have pointed := stands.points.symm.trans (points_iff wellMapped seated held live known placed)
    by_cases at_table : record.table = seat.view.childTable
    · by_cases among : .view seat.id ∈ unit.channels.subscribers .columnChanging record.table
      · refine ⟨_, _, ?_, written (heard listed points stands)⟩
        rw [if_pos among, heard_of_right right (by simpa [at_table] using pointed)]
        simp [at_table]
      · -- The view is not loaded and may list what it likes.
        refine ⟨_, _, rfl, written ?_⟩
        simpa only [if_neg among] using heard _ points (stands.of_unloaded (unheard among at_table) _)
    · have silent : .view seat.id ∉ unit.channels.subscribers .columnChanging record.table :=
        fun among => at_table (here among)
      refine ⟨_, _, ?_, written (heard listed points stands)⟩
      have never : points = false := by simpa [at_table] using pointed
      simp [silent, right, never, at_table]

theorem writeColumn_course (seated : seat.Kept unit model) {row : RowId} {column : String} {value : Value}
    (clear : row = seat.row → column = seat.view.relation.childKey →
      .change seat.row seat.view.relation.childKey ∉ amid ∧ .deletion seat.row ∉ amid)
    (ran : writeColumn calls row column value unit memory = some ⟨result, after, kept⟩) :
    seat.Course model amid unit after := by
  by_cases own : row = seat.row ∧ column = seat.view.relation.childKey
  · obtain ⟨rfl, rfl⟩ := own
    obtain ⟨unchanging, undeleting⟩ := clear rfl rfl
    exact writeColumn_own wellMapped obeys seated unchanging undeleting ran
  obtain ⟨-, -, rfl⟩ | ⟨change, place, told, between, halfway, found, announced, takes⟩ :=
    writeColumn_eq_some ran
  · exact .refl seated.ready
  have asked := found
  obtain ⟨record, entity, held, live, known, placed, -, rfl⟩ := UnitOfWork.changeOf_eq_ok.mp asked
  rw [seated.ready.sound.modelled] at known
  obtain ⟨-, course⟩ := tellChange_course wellMapped obeys seated
    (.of_live seated.ready.sound held live .columnChanging)
    (fun _ here foreign => own ⟨here, foreign⟩) announced
  rw [Course.aside (by simpa [Concerned] using own)] at course
  cases takes with
  | failed | refused => exact course
  | effect taken =>
    have wrote := UnitOfWork.Lasts.applyChange seated.ready course.lasts found taken
    obtain ⟨⟨later, held', live'⟩, rfl⟩ := UnitOfWork.applyChange_eq_ok.mp taken
    obtain ⟨_, stood, same, -, -⟩ := course.lasts.rows.records row record held
    cases held'.symm.trans stood
    have seated' := seated.lasts course.lasts
    exact course.trans (.still wrote (fun alive => alive) fun listed points stands =>
      stands.write_of_ne wellMapped seated' held' live' (same ▸ known) placed value
        fun here foreign => own ⟨here, foreign⟩)

theorem deleteRow_own (seated : seat.Kept unit model)
    (unchanging : .change seat.row seat.view.relation.childKey ∉ amid)
    (ran : deleteRow calls seat.row unit memory = some ⟨result, after, kept⟩) :
    seat.Course model amid unit after := by
  obtain ⟨-, -, rfl⟩ | ⟨deletion, told, between, halfway, found, announced, takes⟩ :=
    deleteRow_eq_some ran
  · exact .refl seated.ready
  obtain ⟨record, held, live, rfl⟩ := UnitOfWork.deletionOf_eq_ok.mp found
  obtain ⟨once, here, unheard⟩ := seated.told .rowDeleting record.table
  obtain ⟨rfl, lasts, heard⟩ := tellDeletion_own wellMapped obeys seated
    (.of_live seated.ready.sound held live .rowDeleting) rfl unchanging once announced
  have gone {listed : Nat} {points : Bool} (fair : listed ≤ points.toNat)
      (stands : seat.Stands unit listed points) : ∃ points', seat.Stands between 0 points' := by
    by_cases among : .view seat.id ∈ unit.channels.subscribers .rowDeleting record.table
    · obtain ⟨listed', points', stands, -, -, none⟩ := heard listed points stands fair
      exact ⟨points', none among ▸ stands⟩
    · by_cases at_table : record.table = seat.view.childTable
      · have free := stands.of_unloaded (unheard among at_table) 0
        obtain ⟨listed', points', stands, fewer, -⟩ := heard 0 points free (Nat.zero_le _)
        exact ⟨points', Nat.le_zero.mp fewer ▸ stands⟩
      · have never : points = false := by
          have pointed := stands.points
          simpa [Points, RowStore.isChild_of_record held live, at_table] using pointed
        obtain ⟨listed', points', stands, fewer, -⟩ := heard listed points stands fair
        rw [never] at fair
        exact ⟨points', Nat.le_zero.mp (Nat.le_trans fewer fair) ▸ stands⟩
  have seated' := seated.lasts lasts
  obtain ⟨later, held', -⟩ := lasts.rows.records _ record held
  cases takes with
  | failed failed => cases failed.symm.trans (UnitOfWork.applyDeletion_eq_ok.mpr ⟨later, held', rfl⟩)
  | effect taken =>
    have deleted := UnitOfWork.Lasts.applyDeletion seated'.ready taken
    refine ⟨deleted.trans lasts, (absurd · unchanging), fun listed points fits stands => ?_⟩
    have fair : listed ≤ points.toNat := by
      rw [Fits, if_neg unchanging] at fits
      split at fits <;> omega
    obtain ⟨points', stands⟩ := gone fair stands
    refine ⟨0, false, by simp [Turn, unchanging], ?_⟩
    simpa using stands.applyDeletion seated' taken

theorem deleteRow_course (seated : seat.Kept unit model) {row : RowId}
    (clear : row = seat.row → .change seat.row seat.view.relation.childKey ∉ amid)
    (ran : deleteRow calls row unit memory = some ⟨result, after, kept⟩) :
    seat.Course model amid unit after := by
  by_cases own : row = seat.row
  · subst own
    exact deleteRow_own wellMapped obeys seated (clear rfl) ran
  obtain ⟨-, -, rfl⟩ | ⟨deletion, told, between, halfway, found, announced, takes⟩ :=
    deleteRow_eq_some ran
  · exact .refl seated.ready
  obtain ⟨record, held, live, rfl⟩ := UnitOfWork.deletionOf_eq_ok.mp found
  obtain ⟨-, course⟩ := tellDeletion_course wellMapped obeys seated
    (.of_live seated.ready.sound held live .rowDeleting) (fun _ => own) announced
  rw [Course.aside (by simpa [Concerned] using own)] at course
  cases takes with
  | failed | refused => exact course
  | effect taken =>
    have seated' := seated.lasts course.lasts
    refine course.trans (.still (.applyDeletion seated'.ready taken)
      (live_applyDeletion seated' own taken) fun listed points stands => ?_)
    simpa [own] using stands.applyDeletion seated' taken

omit wellMapped obeys in
theorem course_attached (seated : seat.Kept unit model) (came : after.Attached unit model) :
    seat.Course model amid unit after := by
  have lasts := UnitOfWork.Lasts.attached seated.ready came
  refine .still lasts (fun alive => ?_) fun listed points stands => ?_
  · obtain ⟨row, found⟩ := Option.isSome_iff_exists.mp alive
    simp [came.extended.live _ _ found]
  · refine stands.stay lasts.rows ((points_attached seated came).trans stands.points) ?_
    rw [UnitOfWork.members?, UnitOfWork.members?, came.same]

omit obeys in
theorem course_loading (seated : seat.Kept unit model) {id : ViewId}
    (clear : id = seat.id → unit.members? id = none →
      .change seat.row seat.view.relation.childKey ∉ amid ∧ .deletion seat.row ∉ amid)
    (loading : UnitOfWork.Loading model unit id result after) : seat.Course model amid unit after := by
  have lasts := UnitOfWork.Lasts.loading seated.ready loading
  cases loading with
  | already => exact .refl seated.ready
  | failed fault came => exact course_attached seated came
  | @loaded view between members found unloaded came live known mirrors =>
    have arrives : seat.Course model amid unit between := course_attached seated came
    have seated' := seated.lasts arrives.lasts
    by_cases here : id = seat.id
    · subst here
      obtain ⟨unchanging, undeleting⟩ :=
        clear rfl (by simp [UnitOfWork.members?, found, RelationView.members?, unloaded])
      refine ⟨lasts, arrives.live, fun listed points fits stands => ⟨points.toNat, points, ?_, ?_⟩⟩
      · simp [Turn, unchanging, undeleting]
      · exact stands.completeLoad wellMapped seated found came live mirrors
    · have found' : between.views.get? id = some view := by
        rw [came.same]
        exact found
      have completed := UnitOfWork.Lasts.completeLoad seated'.ready found' unloaded known
      refine arrives.trans (.still completed (fun alive => alive) fun listed points stands => ?_)
      exact stands.stay completed.rows stands.points (by rw [UnitOfWork.members?_completeLoad, if_neg here])

theorem loadView_course (seated : seat.Kept unit model) {id : ViewId}
    (clear : id = seat.id → unit.members? id = none →
      .change seat.row seat.view.relation.childKey ∉ amid ∧ .deletion seat.row ∉ amid)
    (ran : loadView calls id unit memory = some ⟨result, after, kept⟩) :
    seat.Course model amid unit after :=
  course_loading wellMapped seated clear
    (loadView_loading wellMapped obeys.fetch seated.ready.sound ran)

end

end Seat

end RelationalMapper.Cache
