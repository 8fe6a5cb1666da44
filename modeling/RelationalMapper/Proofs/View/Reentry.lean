import RelationalMapper.Proofs.View.Course
import RelationalMapper.Proofs.View.Orderly

/-!
Listeners that act on the unit of work in the middle of an announcement. The views stay right about
every row except where an operation clashes with an announcement underway: it writes the foreign key
that is about to change or whose row is about to go, deletes the row whose foreign key is about to
change, or loads a view while either is announced.
-/

set_option autoImplicit false

namespace RelationalMapper.Cache

variable {σ α : Type}

/-- Out of place, for what a view makes of a row, amid announcements about that row. -/
def clashes (id : ViewId) (column : String) (row : RowId) (amid : List Announcement)
    (unit : UnitOfWork) : Operation → Bool
  | .write written name _ => written = row && name = column &&
      (.change row column ∈ amid || .deletion row ∈ amid)
  | .delete deleted => deleted = row && .change row column ∈ amid
  | .load view => view = id && (unit.members? id).isNone &&
      (.change row column ∈ amid || .deletion row ∈ amid)
  | _ => false

namespace Seat

variable {seat : Seat} {model : Model} {amid : List Announcement} {unit after : UnitOfWork}
  {memory kept : σ} (wellMapped : model.WellMapped)

def clashes (seat : Seat) : List Announcement → UnitOfWork → Operation → Bool :=
  Cache.clashes seat.id seat.view.relation.childKey seat.row

include wellMapped

theorem perform_course {calls : Callbacks σ} (obeys : seat.Obeys model amid calls)
    (seated : seat.Kept unit model) {operation : Operation} (permitted : operation.reenters = true)
    (clear : seat.clashes amid unit operation = false) {result : Except Fault operation.Answer}
    (ran : perform calls operation unit memory = some ⟨result, after, kept⟩) :
    seat.Course model amid unit after := by
  cases operation with
  | write row column value =>
    refine writeColumn_course wellMapped obeys seated (fun own foreign => ?_) ran
    simpa [clashes, Cache.clashes, own, foreign] using clear
  | delete row =>
    refine deleteRow_course wellMapped obeys seated (fun own => ?_) ran
    simpa [clashes, Cache.clashes, own] using clear
  | load id =>
    refine loadView_course wellMapped obeys seated (fun own unloaded => ?_) ran
    subst own
    simpa [clashes, Cache.clashes, unloaded] using clear
  | _ => cases permitted

omit wellMapped in
theorem kept_onward :
    Onward (fun unit => seat.Kept unit model) (seat.Course model amid) where
  refl seated := .refl seated.ready
  trans := .trans
  arrives seated course := seated.lasts course.lasts

-- By induction on the depth: in what a listener does there is one announcement more underway.
theorem obeys_guarded {environment : Environment σ} (obliging : environment.Obliging) (depth : Nat)
    (amid : List Announcement) : seat.Obeys model amid (environment.guarded seat.clashes depth amid) := by
  induction depth generalizing amid with
  | zero => constructor <;> intros <;> simp_all [Environment.guarded, Callbacks.unanswered]
  | succ depth ih =>
    have replies {answers : Program σ (Except Fault Unit)} {amid : List Announcement}
        (within : answers.Within Operation.reenters) (accepting : answers.Answers (· = .ok ()))
        {unit after : UnitOfWork} {memory kept : σ} {result : Except Fault Unit}
        (seated : seat.Kept unit model)
        (ran : (answers.runUnless (environment.guarded seat.clashes depth amid) (seat.clashes amid) >>=
          Action.given) unit memory = some ⟨result, after, kept⟩) :
        result = .ok () ∧ seat.Course model amid unit after := by
      obtain ⟨accepted, ran⟩ := Program.runUnless_given accepting ran
      refine ⟨accepted, kept_onward.runUnless ?_ within seated ran⟩
      exact fun seated permitted clear performed =>
        perform_course wellMapped (ih amid) seated permitted clear performed
    constructor
    · intro key change unit memory result after kept seated ran
      exact replies (obliging.columnChanging key change).1 (obliging.columnChanging key change).2 seated ran
    · intro key deletion unit memory result after kept seated ran
      exact replies (obliging.rowDeleting key deletion).1 (obliging.rowDeleting key deletion).2 seated ran
    · exact (obliging.lasting wellMapped seat.clashes (depth + 1) amid).fetch

end Seat

/-- The view lists the identity once if a live row of it points at the view's key, and else not at all. -/
def UnitOfWork.RightAbout (unit : UnitOfWork) (view : RelationView) (members : List ObjectIdentity)
    (identity : ObjectIdentity) : Prop :=
  ∃ key, unit.ownerKey view = .ok (some key) ∧ members.count identity ≤ 1 ∧
    (identity ∈ members ↔ ∃ row, unit.PointsAt view key row identity)

namespace Seat

variable {seat : Seat} {model : Model} {unit : UnitOfWork} {view : RelationView} {listed : Nat}
  {points : Bool} (wellMapped : model.WellMapped)

include wellMapped

theorem pointsAt_iff (seated : seat.Kept unit model) (alike : view.Alike seat.view) :
    (∃ row, unit.PointsAt view seat.key row seat.identity) ↔ seat.Points unit := by
  have pointing (row : RowId) := UnitOfWork.isChild_iff_pointsAt wellMapped seated.ready.sound
    (seated.keyed.alike alike) row seat.identity
  simp only [← pointing, alike.childTable]
  constructor
  · rintro ⟨row, child⟩
    have given := child
    obtain ⟨record, held, live, -, own, -⟩ := given
    cases seated.row_eq held live own
    exact child
  · exact fun child => ⟨seat.row, child⟩

theorem stands_of_right (seated : seat.Kept unit model)
    (found : unit.views.get? seat.id = some seat.view)
    (right : ∀ members, seat.view.members? = some members →
      unit.RightAbout seat.view members seat.identity) :
    ∃ points : Bool, seat.Stands unit points.toNat points := by
  obtain ⟨points, pointing⟩ : ∃ points : Bool, seat.Points unit ↔ points = true := by
    by_cases points : seat.Points unit
    · exact ⟨true, by simp [points]⟩
    · exact ⟨false, by simp [points]⟩
  have about (members : List ObjectIdentity) (listing : unit.members? seat.id = some members) :
      unit.RightAbout seat.view members seat.identity :=
    right members (by rwa [UnitOfWork.members?, found] at listing)
  refine ⟨points, pointing, fun loaded => ?_, fun members listing live => ?_⟩
  · obtain ⟨members, listing⟩ := Option.isSome_iff_exists.mp loaded
    obtain ⟨key, owned, -⟩ := about members listing
    cases live : unit.store.live.get? seat.view.owner with
    | none => cases owned.symm.trans (UnitOfWork.ownerKey_of_dead live)
    | some owner => simp [RowStore.resolve?, live]
  · obtain ⟨key, owned, once, listed⟩ := about members listing
    cases owned.symm.trans (seated.ownerKey wellMapped found live)
    rw [pointsAt_iff wellMapped seated (.refl seat.view), pointing] at listed
    cases points with
    | false => exact List.count_eq_zero.mpr (by simp [listed])
    | true =>
      have present := List.count_pos_iff.mpr (listed.mpr rfl)
      rw [Bool.toNat_true]
      omega

theorem right_of_stands (seated : seat.Kept unit model) (stands : seat.Stands unit points.toNat points)
    (found : unit.views.get? seat.id = some view) {members : List ObjectIdentity}
    (loaded : view.members? = some members) (live : (unit.store.live.get? view.owner).isSome) :
    unit.RightAbout view members seat.identity := by
  obtain ⟨_, stood, alike⟩ := seated.found
  cases found.symm.trans stood
  rw [alike.owner] at live
  have counted := stands.listed members (UnitOfWork.members?_of_found found loaded) live
  refine ⟨seat.key, seated.ownerKey wellMapped found live, ?_, ?_⟩
  · rw [counted]
    cases points <;> decide
  · rw [pointsAt_iff wellMapped seated alike, stands.points, ← List.count_pos_iff, counted]
    cases points <;> decide

theorem right_of_clear {σ : Type} {environment : Environment σ} (obliging : environment.Obliging)
    {depth : Nat} {operation : Operation} (permitted : operation.reenters = true) {after : UnitOfWork}
    {memory kept : σ} {result : Except Fault operation.Answer} (seated : seat.Kept unit model)
    (found : unit.views.get? seat.id = some seat.view)
    (right : ∀ members, seat.view.members? = some members →
      unit.RightAbout seat.view members seat.identity)
    (ran : perform (environment.guarded seat.clashes depth []) operation unit memory =
      some ⟨result, after, kept⟩) (found' : after.views.get? seat.id = some view)
    {members : List ObjectIdentity} (loaded : view.members? = some members)
    (live : (after.store.live.get? view.owner).isSome) : after.RightAbout view members seat.identity := by
  have clear : seat.clashes [] unit operation = false := by
    cases operation <;> simp [clashes, Cache.clashes]
  have course := perform_course wellMapped (obeys_guarded wellMapped obliging depth []) seated permitted
    clear ran
  obtain ⟨points, stands⟩ := stands_of_right wellMapped seated found right
  obtain ⟨listed', points', turn, stands⟩ := course.turns _ _ (by simp [Fits]) stands
  have same : listed' = points'.toNat := by simpa [Turn] using turn
  subst same
  exact right_of_stands wellMapped (seated.lasts course.lasts) stands found' loaded live

end Seat

theorem UnitOfWork.Sound.keyed {unit : UnitOfWork} {model : Model} (sound : unit.Sound model)
    {id : ViewId} {view : RelationView} (found : unit.views.get? id = some view) {parent : Entity}
    {column : Column} (parentKnown : model.entity view.relation.parent = .ok parent)
    (parentKey : parent.column view.relation.parentKey = .ok column) (primary : column.primaryKey = true) :
    ∃ index key, view.Keyed model index key := by
  obtain ⟨owner, child, parentIndex, index, ends⟩ := sound.proper id view found
  cases parentKnown.symm.trans ends.parentKnown
  obtain ⟨place, placed, here⟩ := Entity.columnIndex_of_column parentKey
  cases placed.symm.trans ends.parentKey
  exact ⟨index, _, parent, child, parentIndex, column, ends, here, primary, rfl⟩

theorem UnitOfWork.PointsAt.resolved {unit : UnitOfWork} {model : Model} {view : RelationView}
    {key : Value} {row : RowId} {identity : ObjectIdentity} (formed : unit.store.WellFormed model)
    (points : unit.PointsAt view key row identity) : unit.store.resolve? identity = some row := by
  obtain ⟨record, held, live, -, rfl, -⟩ := points
  exact formed.resolve?_of_record held live

-- Nobody points at the key without a row, and nobody joins a view without one.
theorem UnitOfWork.Lasts.rightAbout {model : Model} (wellMapped : model.WellMapped) {unit after : UnitOfWork}
    (lasts : after.Lasts unit model) (formed : unit.store.WellFormed model) {id : ViewId}
    {view view' : RelationView} {index : Nat} {key : Value} (keyed : view'.Keyed model index key)
    (found : unit.views.get? id = some view) (found' : after.views.get? id = some view')
    {identity : ObjectIdentity} (unresolved : after.store.resolve? identity = none)
    (right : ∀ members, view.members? = some members → unit.RightAbout view members identity)
    {members : List ObjectIdentity} (loaded : view'.members? = some members)
    (live : (after.store.live.get? view'.owner).isSome) : after.RightAbout view' members identity := by
  have unlisted : identity ∉ members := by
    intro listed
    obtain ⟨earlier, before, listed⟩ := lasts.listed id members identity
      (UnitOfWork.members?_of_found found' loaded) listed unresolved
    rw [UnitOfWork.members?, found] at before
    obtain ⟨_, -, -, pointing⟩ := right earlier before
    obtain ⟨row, points⟩ := pointing.mp listed
    cases unresolved.symm.trans (lasts.rows.resolved _ _ (points.resolved formed))
  refine ⟨key, UnitOfWork.ownerKey_of_keyed wellMapped lasts.ready.sound keyed live, ?_, ?_⟩
  · simp [List.count_eq_zero.mpr unlisted]
  · refine iff_of_false unlisted ?_
    rintro ⟨row, points⟩
    cases unresolved.symm.trans (points.resolved lasts.ready.sound.rows)

/-- Listeners that act in the middle of announcements leave a view right about every identity about
which it was right, unless a row by that identity is new or was subject to a clash. -/
theorem right_after_reentry {model : Model} (regular : model.Regular) {unit after : UnitOfWork}
    (orderly : unit.Orderly model) {environment : Environment σ} (obliging : environment.Obliging)
    {depth : Nat} {operation : Operation} (permitted : operation.reenters = true) {memory kept : σ}
    {result : Except Fault operation.Answer}
    (ran : perform (environment.callbacks depth) operation unit memory = some ⟨result, after, kept⟩)
    {id : ViewId} {view : RelationView} (found : unit.views.get? id = some view) {parent : Entity}
    {column : Column} (parentKnown : model.entity view.relation.parent = .ok parent)
    (parentKey : parent.column view.relation.parentKey = .ok column) (primary : column.primaryKey = true)
    {identity : ObjectIdentity}
    (right : ∀ members, view.members? = some members → unit.RightAbout view members identity)
    (clear : ∀ row, after.store.resolve? identity = some row →
      unit.store.resolve? identity = some row ∧
        (perform (environment.guarded (clashes id view.relation.childKey row) depth []) operation unit
          memory).isSome) :
    ∃ view', after.views.get? id = some view' ∧ view'.Alike view ∧ ∀ members,
      view'.members? = some members → (after.store.live.get? view'.owner).isSome →
        after.RightAbout view' members identity := by
  have wellMapped := regular.wellMapped
  have ready := orderly.ready wellMapped
  obtain ⟨index, key, keyed⟩ := ready.sound.keyed found parentKnown parentKey primary
  have lasting := obliging.lasting wellMapped (fun _ _ _ => false) depth []
  rw [environment.guarded_never] at lasting
  have lasts := perform_lasts wellMapped lasting ready permitted ran
  obtain ⟨view', found', alike, -⟩ := lasts.views id view found
  refine ⟨view', found', alike, fun members loaded live => ?_⟩
  cases resolved : after.store.resolve? identity with
  | some row =>
    obtain ⟨known, guarded⟩ := clear row resolved
    obtain ⟨outcome, guarded⟩ := Option.isSome_iff_exists.mp guarded
    cases ran.symm.trans (perform_below (environment.guarded_below _ depth []) operation _ _ _ guarded)
    let seat : Seat := ⟨id, view, index, key, row, identity⟩
    have seated : seat.Kept unit model := ⟨ready, keyed, ⟨view, found, .refl view⟩, known⟩
    exact seat.right_of_clear wellMapped obliging permitted seated found right guarded found' loaded live
  | none =>
    exact lasts.rightAbout wellMapped ready.sound.rows (keyed.alike alike) found found' resolved right
      loaded live

-- Two lines of another order, a listener, and the lines of the order, loaded after it has subscribed.
def listenedTo : Program Unit Unit :=
  .perform (.attach "Order" [.integer 1]) fun _ =>
  .perform (.attach "Line" [.integer 7, .integer 2]) fun _ =>
  .perform (.attach "Line" [.integer 8, .integer 2]) fun _ =>
  .perform (.subscribe .columnChanging "lines" ⟨0⟩) fun _ =>
  .perform (.openView ⟨"orders", [.integer 1]⟩ "lines") fun _ =>
  .perform (.load ⟨0⟩) fun _ =>
  .done ()

-- A listener that moves a line when it hears of certain changes.
def moving (reaction : ColumnChange → Option (RowId × Value)) : Environment Unit where
  columnChanging _ change :=
    match reaction change with
    | some (row, value) => .perform (.write row "order" value) fun _ => .done (.ok ())
    | none => .done (.ok ())
  rowDeleting _ _ := .done (.ok ())
  fetch _ _ _ := .done (.ok [])

theorem moving_obliging (reaction : ColumnChange → Option (RowId × Value)) :
    (moving reaction).Obliging where
  columnChanging key change := by
    unfold moving
    dsimp only
    split
    · exact ⟨⟨rfl, fun _ => trivial⟩, fun _ => rfl⟩
    · exact ⟨trivial, rfl⟩
  rowDeleting _ _ := ⟨trivial, rfl⟩
  fetch _ _ _ := trivial

def linesOfOrder (members : List ObjectIdentity) : RelationView where
  owner := ⟨"orders", [.integer 1]⟩
  relation := ⟨"lines", "Order", "Line", "id", "order"⟩
  childEntity := "Line"
  childTable := "lines"
  state := .loaded members ⟨1⟩ ⟨2⟩

-- The second line goes along with the first one.
def together (change : ColumnChange) : Option (RowId × Value) :=
  if change.row = ⟨1⟩ then some (⟨2⟩, change.proposed) else none

theorem line_moved_along_is_right : ∃ unit after,
    unit.Orderly orders ∧ unit.views.get? ⟨0⟩ = some (linesOfOrder []) ∧
      perform ((moving together).callbacks 2) (.write ⟨1⟩ "order" (.integer 1)) unit () =
        some ⟨.ok (), after, ()⟩ ∧
      after.views.get? ⟨0⟩ =
        some (linesOfOrder [⟨"lines", [.integer 8]⟩, ⟨"lines", [.integer 7]⟩]) ∧
      after.RightAbout (linesOfOrder [⟨"lines", [.integer 8]⟩, ⟨"lines", [.integer 7]⟩])
        [⟨"lines", [.integer 8]⟩, ⟨"lines", [.integer 7]⟩] ⟨"lines", [.integer 8]⟩ := by
  have evaluated : (listenedTo.runUnless ((moving together).guarded (fun _ => UnitOfWork.cutsOff) 2 [])
      UnitOfWork.cutsOff (.new orders .standard) ()).any (fun started =>
        (writeColumn ((moving together).guarded (clashes ⟨0⟩ "order" ⟨2⟩) 2 []) ⟨1⟩ "order" (.integer 1)
          started.unit ()).any fun ended =>
            decide (ended.result = .ok () ∧ started.unit.views.get? ⟨0⟩ = some (linesOfOrder []) ∧
              started.unit.ownerKey (linesOfOrder []) = .ok (some (.integer 1)) ∧
              started.unit.store.resolve? ⟨"lines", [.integer 8]⟩ = some ⟨2⟩ ∧
              started.unit.value ⟨2⟩ "order" .current = .ok (.integer 2) ∧
              ended.unit.views.get? ⟨0⟩ =
                some (linesOfOrder [⟨"lines", [.integer 8]⟩, ⟨"lines", [.integer 7]⟩]) ∧
              (ended.unit.store.live.get? ⟨"orders", [.integer 1]⟩).isSome ∧
              ended.unit.store.resolve? ⟨"lines", [.integer 8]⟩ = some ⟨2⟩)) = true := by
    decide +kernel
  simp only [Option.any_eq_true, decide_eq_true_eq] at evaluated
  obtain ⟨⟨_, unit, _⟩, ran, ⟨_, after, _⟩, guarded, rfl, found, owned, known, stored, found', live,
    known'⟩ := evaluated
  have regular : orders.Regular := ⟨rfl, by decide, by decide, by decide⟩
  have orderly : unit.Orderly orders := ⟨Unit, Unit, moving together, 2, listenedTo, .standard, (), (), _,
    (moving_obliging together).fetch, ran⟩
  have wrote := perform_below ((moving together).guarded_below _ 2 [])
    (.write ⟨1⟩ "order" (.integer 1)) _ _ _ guarded
  have right (members : List ObjectIdentity) (loaded : (linesOfOrder []).members? = some members) :
      unit.RightAbout (linesOfOrder []) members ⟨"lines", [.integer 8]⟩ := by
    cases loaded
    refine ⟨_, owned, by decide, iff_of_false (by decide) ?_⟩
    rintro ⟨row, points⟩
    cases known.symm.trans (points.resolved (orderly.ready regular.wellMapped).sound.rows)
    obtain ⟨-, -, -, -, -, pointing⟩ := points
    cases stored.symm.trans pointing
  obtain ⟨_, same, -, right'⟩ := right_after_reentry regular orderly (moving_obliging together) rfl wrote
    found rfl rfl rfl right fun row resolved => by
      cases known'.symm.trans resolved
      exact ⟨known, Option.isSome_iff_exists.mpr ⟨_, guarded⟩⟩
  cases found'.symm.trans same
  exact ⟨unit, after, orderly, found, wrote, found', right' _ rfl live⟩

-- A line that is moved to the order amid the announcement of its move elsewhere stays listed there.
example : (listenedTo.runUnless ((moving fun _ => none).guarded (fun _ => UnitOfWork.cutsOff) 1 [])
    UnitOfWork.cutsOff (.new orders .standard) ()).any (fun started =>
      (writeColumn ((moving fun change =>
        if change.proposed = .integer 3 then some (⟨1⟩, .integer 1) else none).callbacks 2) ⟨1⟩ "order"
          (.integer 3) started.unit ()).any fun ended =>
            decide (ended.unit.value ⟨1⟩ "order" .current = .ok (.integer 3) ∧
              ended.unit.members? ⟨0⟩ = some [⟨"lines", [.integer 7]⟩])) = true := by
  decide +kernel

end RelationalMapper.Cache
