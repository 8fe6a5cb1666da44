import RelationalMapper.Proofs.View.Progress

set_option autoImplicit false

namespace RelationalMapper.Cache

variable {σ : Type}

def Operation.isPlain : Operation → Bool
  | .subscribe .. | .unsubscribe _ => false
  | _ => true

structure Advance (model : Model) (step : Step) : Prop where
  plain : step.after.Plain model
  idle : step.after.inserting = none
  succeeds : step.after.store.Succeeds step.before.store
  early : ∀ write ∈ step.writes, write.row.number < step.after.store.nextNumber
  alike : ∀ id view view', step.before.views.get? id = some view →
    step.after.views.get? id = some view' → view'.Alike view
  faithful : ∀ id view index key known, view.Keyed model index key →
    step.before.Faithful id view index key known → (step.after.members? id).isSome →
    (step.after.store.live.get? view.owner).isSome →
    ∃ view', step.after.Faithful id view' index key fun row =>
      known row ∨ ⟨row, view.relation.childKey, key⟩ ∈ step.writes
  loads : ∀ id view index key, step.before.members? id = none →
    step.after.views.get? id = some view → view.members?.isSome → view.Keyed model index key →
    step.after.Faithful id view index key step.after.Tracked

namespace Advance

variable {model : Model} {step : Step}

theorem of_progress {written : List Write} (progress : Progress model step.before step.after written)
    (plain : step.after.Plain model) (idle : step.after.inserting = none)
    (writes : step.writes = written) : Advance model step where
  plain := plain
  idle := idle
  succeeds := progress.succeeds
  early := writes ▸ progress.early
  alike := progress.alike
  faithful id view index key known keyed faithful _ _ :=
    writes ▸ progress.faithful id view index key known keyed faithful
  loads := progress.loads

theorem of_same_rows (plain : step.after.Plain model) (idle : step.after.inserting = none)
    (store : step.after.store = step.before.store)
    (alike : ∀ id view view', step.before.views.get? id = some view →
      step.after.views.get? id = some view' → view'.Alike view)
    (loaded : ∀ id view, step.after.views.get? id = some view → view.members?.isSome →
      step.before.views.get? id = some view)
    (writes : step.writes = []) : Advance model step where
  plain := plain
  idle := idle
  succeeds := by
    rw [store]
    exact .refl _
  early := by simp [writes]
  alike := alike
  faithful := by
    intro id view index key known keyed faithful remains _
    obtain ⟨view', found, there⟩ : ∃ view', step.after.views.get? id = some view' ∧
        view'.members?.isSome := by
      cases found : step.after.views.get? id with
      | none => simp [UnitOfWork.members?, found] at remains
      | some view' => exact ⟨view', rfl, by simpa [UnitOfWork.members?, found] using remains⟩
    have same := found.trans (loaded id view' found there).symm
    refine ⟨view, (faithful.extend same (by rw [store]; exact .refl _)).congr fun row => ?_⟩
    rw [writes]
    exact or_iff_left List.not_mem_nil
  loads := by
    intro id view index key absent found there _
    rw [UnitOfWork.members?, loaded id view found there, Option.bind_some] at absent
    rw [absent] at there
    cases there

theorem refl (unit : UnitOfWork) (operation : Operation) (result : Except Fault operation.Answer)
    (plain : unit.Plain model) (idle : unit.inserting = none)
    (writes : Step.writes ⟨unit, operation, result, unit⟩ = []) :
    Advance model ⟨unit, operation, result, unit⟩ :=
  of_progress (.refl unit) plain idle writes

end Advance

section

variable {model : Model} (wellMapped : model.WellMapped) {unit : UnitOfWork} (plain : unit.Plain model)
  (idle : unit.inserting = none)

include plain idle

theorem attach_advance (calls : Callbacks σ) (entity : String) (values : List Value) (memory : σ) :
    ∃ result after kept, perform calls (.attach entity values) unit memory = some ⟨result, after, kept⟩ ∧
      Advance model ⟨unit, .attach entity values, result, after⟩ := by
  cases attached : unit.attach entity values with
  | error fault =>
    exact ⟨_, unit, memory, Action.ask_bind_of_error attached _, .refl _ _ _ plain idle rfl⟩
  | ok answer =>
    obtain ⟨row, after⟩ := answer
    have came := UnitOfWork.attach_attached plain.sound.formed attached
    refine ⟨.ok row, after, memory, (Action.ask_bind_of_ok attached _).trans rfl, ?_⟩
    refine .of_progress (.of_views (by rw [came.same]) came.extended) (came.plain plain) ?_ rfl
    change after.inserting = none
    rw [came.same]
    exact idle

theorem accept_advance (calls : Callbacks σ) (memory : σ) :
    ∃ result after kept, perform calls .accept unit memory = some ⟨result, after, kept⟩ ∧
      Advance model ⟨unit, .accept, result, after⟩ := by
  refine ⟨.ok (), unit.accept, memory, rfl, ?_⟩
  have accepted : unit.accept.Plain model :=
    ⟨plain.sound.withStore plain.sound.rows.accept, plain.alone⟩
  refine .of_progress (.of_reshaped (.of_views rfl) (.accept _) (List.forall_mem_nil _) ?_) accepted idle rfl
  intro id view index key known _ faithful
  exact ⟨view, faithful.accept.congr fun row => or_iff_left List.not_mem_nil⟩

theorem invalidate_advance (calls : Callbacks σ) (id : ViewId) (memory : σ) :
    ∃ result after kept, perform calls (.invalidate id) unit memory = some ⟨result, after, kept⟩ ∧
      Advance model ⟨unit, .invalidate id, result, after⟩ := by
  refine ⟨.ok (), unit.invalidate id, memory, rfl, ?_⟩
  refine .of_same_rows (plain.invalidate id) ((unit.inserting_invalidate id).trans idle)
    (unit.store_invalidate id) ?_ ?_ rfl
  · intro other view view' found found'
    rw [UnitOfWork.views_invalidate, found, Option.map_some] at found'
    cases found'
    split
    · exact view.withState_alike _
    · exact .refl view
  · intro other view found loaded
    rw [UnitOfWork.views_invalidate, Option.map_eq_some_iff] at found
    obtain ⟨before, stood, rfl⟩ := found
    split at loaded
    · cases loaded
    next elsewhere => rwa [if_neg elsewhere]

theorem close_advance (calls : Callbacks σ) (id : ViewId) (memory : σ) :
    ∃ result after kept, perform calls (.close id) unit memory = some ⟨result, after, kept⟩ ∧
      Advance model ⟨unit, .close id, result, after⟩ := by
  have closed (other : ViewId) : (unit.closeView id).views.get? other =
      if id = other then none else unit.views.get? other := by
    change ((unit.invalidate id).views.erase id).get? other = _
    rw [Assoc.get?_erase, UnitOfWork.views_invalidate]
    by_cases here : id = other <;> simp [here]
  refine ⟨.ok (), unit.closeView id, memory, rfl, ?_⟩
  refine .of_same_rows (plain.closeView id) ((unit.inserting_invalidate id).trans idle)
    (unit.store_closeView id) ?_ ?_ rfl
  · intro other view view' found found'
    rw [closed] at found'
    split at found'
    · cases found'
    · cases found.symm.trans found'
      exact .refl view
  · intro other view found _
    rw [closed] at found
    split at found
    · cases found
    · exact found

include wellMapped

theorem openView_advance (calls : Callbacks σ) (owner : ObjectIdentity) (relation : String) (memory : σ) :
    ∃ result after kept,
      perform calls (.openView owner relation) unit memory = some ⟨result, after, kept⟩ ∧
      Advance model ⟨unit, .openView owner relation, result, after⟩ := by
  cases opened : unit.openView owner relation with
  | error fault =>
    exact ⟨_, unit, memory, Action.ask_bind_of_error opened _, .refl _ _ _ plain idle rfl⟩
  | ok answer =>
    obtain ⟨id, after⟩ := answer
    have sound := plain.sound.openView wellMapped opened
    refine ⟨.ok id, after, memory, (Action.ask_bind_of_ok opened _).trans rfl, ?_⟩
    obtain ⟨ownerEntity, found, child, -, -, -, -, rfl, rfl⟩ := UnitOfWork.openView_eq_ok.mp opened
    refine .of_same_rows ⟨sound, plain.alone⟩ idle rfl ?_ ?_ rfl
    · intro other view view' stood found'
      rw [Assoc.get?_insert] at found'
      split at found'
      next here =>
        have early := plain.sound.wired.opened other view stood
        rw [← here] at early
        exact absurd early (Nat.lt_irrefl _)
      next =>
        cases stood.symm.trans found'
        exact .refl view
    · intro other view found' loaded
      rw [Assoc.get?_insert] at found'
      split at found'
      · cases found'
        cases loaded
      · exact found'

theorem insert_advance (calls : Callbacks σ) (entity : String) (values : List (String × Value))
    (memory : σ) :
    ∃ result after kept,
      perform calls (.insert entity values) unit memory = some ⟨result, after, kept⟩ ∧
      Advance model ⟨unit, .insert entity values, result, after⟩ := by
  cases begun : unit.beginInsert entity values with
  | error fault =>
    exact ⟨_, unit, memory, UnitOfWork.insertRow_of_unbegun begun, .refl _ _ _ plain idle rfl⟩
  | ok answer =>
    obtain ⟨⟨row, table, pending⟩, started⟩ := answer
    obtain ⟨after, kept, ran, written, ready, ends⟩ := plain.insertRow wellMapped begun calls memory
    refine ⟨.ok row, _, kept, ran, ?_⟩
    refine .of_progress (UnitOfWork.insert_progress wellMapped begun ready written)
      ⟨ends.sound.withInserting _, ends.alone⟩ idle rfl

theorem write_advance (calls : Callbacks σ) (row : RowId) (column : String) (value : Value)
    (memory : σ) :
    ∃ result after kept,
      perform calls (.write row column value) unit memory = some ⟨result, after, kept⟩ ∧
      Advance model ⟨unit, .write row column value, result, after⟩ := by
  cases found : unit.changeOf row column value with
  | error fault =>
    exact ⟨_, unit, memory, Action.ask_bind_of_error found _, .refl _ _ _ plain idle rfl⟩
  | ok answer =>
    obtain ⟨change, place⟩ := answer
    obtain ⟨kept, ran⟩ := plain.writeColumn wellMapped found calls memory
    exact ⟨.ok (), _, kept, ran, .of_progress (UnitOfWork.changed_progress wellMapped plain found idle)
      (plain.changed found) idle rfl⟩

theorem delete_advance (calls : Callbacks σ) (row : RowId) (memory : σ) :
    ∃ result after kept, perform calls (.delete row) unit memory = some ⟨result, after, kept⟩ ∧
      Advance model ⟨unit, .delete row, result, after⟩ := by
  cases found : unit.deletionOf row with
  | error fault =>
    exact ⟨_, unit, memory, Action.ask_bind_of_error found _, .refl _ _ _ plain idle rfl⟩
  | ok deletion =>
    obtain ⟨record, held, live, built⟩ := UnitOfWork.deletionOf_eq_ok.mp found
    obtain ⟨kept, ran⟩ := plain.deleteRow wellMapped found held calls memory
    have reshaped := UnitOfWork.removed_reshaped plain deletion record
    refine ⟨.ok (), _, kept, ran, plain.removed found held, idle, ?_, (List.forall_mem_nil _), ?_, ?_, ?_⟩
    · rw [built]
      exact .delete _ held
    · intro id view view' stood found'
      obtain ⟨before, same, alike, -⟩ := reshaped id view' found'
      cases stood.symm.trans same
      exact alike
    · intro id view index key known keyed faithful _ staying
      obtain ⟨view', -, faithful'⟩ := faithful.removed wellMapped plain keyed (by rw [built]; exact held)
        live (by rw [built]) staying
      exact ⟨view', faithful'.congr fun row => or_iff_left List.not_mem_nil⟩
    · intro id view index key absent found' loaded _
      exact absurd absent (reshaped.was_loaded found' loaded)

variable (calls : Callbacks σ) (quiet : ∀ view command fetch, (calls.fetch view command fetch).Quiet)

include quiet

theorem load_advance (id : ViewId) (memory : σ) :
    ∃ result after kept, perform calls (.load id) unit memory = some ⟨result, after, kept⟩ ∧
      Advance model ⟨unit, .load id, result, after⟩ := by
  obtain ⟨result, after, kept, ran, loading⟩ :=
    UnitOfWork.loadView_plain wellMapped plain.sound calls quiet id memory
  exact ⟨result, after, kept, ran, .of_progress (loading.progress wellMapped plain) (loading.plain plain)
    (loading.inserting.trans idle) rfl⟩

omit idle in
theorem viewMembers_plain (id : ViewId) (memory : σ) :
    ∃ result after kept, viewMembers calls id unit memory = some ⟨result, after, kept⟩ ∧
      UnitOfWork.Loading model unit id (result.map fun _ => ()) after ∧
      ∀ members, result = .ok members → after.members? id = some members := by
  obtain ⟨result, after, kept, ran, loading⟩ :=
    UnitOfWork.loadView_plain wellMapped plain.sound calls quiet id memory
  unfold viewMembers
  cases result with
  | error fault =>
    exact ⟨.error fault, after, kept, Action.bind_of_error ran _, loading, fun _ same => nomatch same⟩
  | ok =>
    obtain ⟨-, view, members, -, found, loaded, -, -⟩ := loading.found plain.sound
    refine ⟨.ok members, after, kept, ?_, loading, ?_⟩
    · rw [Action.bind_of_ok ran, Action.ask_bind_of_ok (UnitOfWork.view_eq_ok.mpr found), loaded]
      rfl
    · intro chosen same
      cases same
      rw [UnitOfWork.members?, found, Option.bind_some, loaded]

theorem members_advance (id : ViewId) (memory : σ) :
    ∃ result after kept, perform calls (.members id) unit memory = some ⟨result, after, kept⟩ ∧
      Advance model ⟨unit, .members id, result, after⟩ := by
  obtain ⟨result, after, kept, ran, loading, -⟩ :=
    viewMembers_plain wellMapped plain calls quiet id memory
  exact ⟨result, after, kept, ran, .of_progress (loading.progress wellMapped plain) (loading.plain plain)
    (loading.inserting.trans idle) rfl⟩

theorem remove_advance (id : ViewId) (row : RowId) (memory : σ) :
    ∃ result after kept, perform calls (.remove id row) unit memory = some ⟨result, after, kept⟩ ∧
      Advance model ⟨unit, .remove id row, result, after⟩ := by
  obtain ⟨result, between, kept, ran, loading⟩ :=
    UnitOfWork.loadView_plain wellMapped plain.sound calls quiet id memory
  have ready := loading.plain plain
  have still := loading.inserting.trans idle
  have loads := loading.progress wellMapped plain
  change ∃ result after kept, removeMember calls id row unit memory = _ ∧ _
  unfold removeMember
  cases result with
  | error fault =>
    exact ⟨.error fault, between, kept, Action.bind_of_error ran _, .of_progress loads ready still rfl⟩
  | ok =>
    obtain ⟨before, view, members, stood, found, -, alike, -⟩ := loading.found plain.sound
    have seen := UnitOfWork.view_eq_ok.mpr found
    cases changing : between.changeOf row view.relation.childKey .null with
    | error fault =>
      refine ⟨.error fault, between, kept, ?_, .of_progress loads ready still rfl⟩
      rw [Action.bind_of_ok ran, Action.ask_bind_of_ok seen]
      exact Action.ask_bind_of_error changing _
    | ok answer =>
      obtain ⟨change, place⟩ := answer
      obtain ⟨kept', wrote⟩ := ready.writeColumn wellMapped changing calls kept
      refine ⟨.ok (), between.changed change place, kept', ?_, ?_⟩
      · rw [Action.bind_of_ok ran, Action.ask_bind_of_ok seen]
        exact wrote
      · refine .of_progress (loading.changed_progress wellMapped plain idle changing)
          (ready.changed changing) still ?_
        have known : unit.view id = .ok before := UnitOfWork.view_eq_ok.mpr stood
        simp only [Step.writes, UnitOfWork.removal, known, alike.relation]

theorem add_advance (id : ViewId) (row : RowId) (memory : σ) :
    ∃ result after kept, perform calls (.add id row) unit memory = some ⟨result, after, kept⟩ ∧
      Advance model ⟨unit, .add id row, result, after⟩ := by
  obtain ⟨result, between, kept, ran, loading⟩ :=
    UnitOfWork.loadView_plain wellMapped plain.sound calls quiet id memory
  have ready := loading.plain plain
  have still := loading.inserting.trans idle
  have loads := loading.progress wellMapped plain
  change ∃ result after kept, addMember calls id row unit memory = _ ∧ _
  unfold addMember
  cases result with
  | error fault =>
    have unloaded : between.members? id = none := loading.unloaded
    refine ⟨.error fault, between, kept, Action.bind_of_error ran _, .of_progress loads ready still ?_⟩
    cases fault <;> simp [Step.writes, unloaded]
  | ok =>
    obtain ⟨before, view, members, stood, found, loaded, alike, owned⟩ := loading.found plain.sound
    have seen := UnitOfWork.view_eq_ok.mpr found
    obtain ⟨parent, child, parentIndex, childIndex, ends⟩ := ready.sound.proper id view found
    obtain ⟨key, keyed⟩ := UnitOfWork.ownerKey_ok wellMapped.mapped ready.sound.formed ends
    cases key with
    | none =>
      refine ⟨.error (.ownerWithoutKey view.owner), between, kept, ?_,
        .of_progress loads ready still rfl⟩
      rw [Action.bind_of_ok ran, Action.ask_bind_of_ok seen, Action.ask_bind_of_ok keyed]
      rfl
    | some key =>
      cases changing : between.changeOf row view.relation.childKey key with
      | error fault =>
        have failed : writeColumn calls row view.relation.childKey key between kept =
            some ⟨.error fault, between, kept⟩ := Action.ask_bind_of_error changing _
        refine ⟨.error fault, between, kept, ?_, .of_progress loads ready still ?_⟩
        · rw [Action.bind_of_ok ran, Action.ask_bind_of_ok seen, Action.ask_bind_of_ok keyed]
          exact Action.bind_of_error failed _
        · have other := between.changeOf_ne_didNotJoin row view.relation.childKey key
          cases fault with
          | didNotJoin identity name => exact absurd changing (other identity name)
          | _ => rfl
      | ok answer =>
        obtain ⟨change, place⟩ := answer
        obtain ⟨kept', wrote⟩ := ready.writeColumn wellMapped changing calls kept
        have progress := loading.changed_progress wellMapped plain idle changing
        have known : unit.view id = .ok before := UnitOfWork.view_eq_ok.mpr stood
        have addition : unit.addition id row = [⟨row, view.relation.childKey, key⟩] := by
          rw [owned] at keyed
          simp only [UnitOfWork.addition, known, keyed, alike.relation]
        have changed := ready.changed changing
        have there : ((between.changed change place).members? id).isSome := by
          rw [UnitOfWork.members?_changed ready, UnitOfWork.members?, found, Option.bind_some, loaded]
          rfl
        obtain ⟨identity, own⟩ := UnitOfWork.identityOf_changed changing
        -- The view is loaded still, so that the second access changes nothing.
        obtain ⟨result, after, kept'', ran', loading', -⟩ :=
          viewMembers_plain wellMapped changed calls quiet id kept'
        obtain ⟨done, rfl⟩ := loading'.same there
        cases result with
        | error fault => cases done
        | ok members =>
          have advance (result : Except Fault Nat)
              (writes : Step.writes ⟨unit, .add id row, result, between.changed change place⟩ =
                unit.addition id row) :
              Advance model ⟨unit, .add id row, result, between.changed change place⟩ :=
            .of_progress progress changed still (writes.trans addition)
          cases position : members.findIdx? (· = identity) with
          | some index =>
            refine ⟨.ok index, _, kept'', ?_, advance (.ok index) rfl⟩
            rw [Action.bind_of_ok ran, Action.ask_bind_of_ok seen, Action.ask_bind_of_ok keyed]
            dsimp only
            rw [Action.bind_of_ok wrote, Action.ask_bind_of_ok own, Action.bind_of_ok ran', position]
            rfl
          | none =>
            refine ⟨.error (.didNotJoin identity view.relation.name), _, kept'', ?_, advance _ ?_⟩
            · rw [Action.bind_of_ok ran, Action.ask_bind_of_ok seen, Action.ask_bind_of_ok keyed]
              dsimp only
              rw [Action.bind_of_ok wrote, Action.ask_bind_of_ok own, Action.bind_of_ok ran', position]
              rfl
            · exact if_pos there

theorem perform_advance (operation : Operation) (allowed : operation.isPlain = true) (memory : σ) :
    ∃ result after kept, perform calls operation unit memory = some ⟨result, after, kept⟩ ∧
      Advance model ⟨unit, operation, result, after⟩ := by
  cases operation with
  | attach entity values => exact attach_advance plain idle calls entity values memory
  | insert entity values => exact insert_advance wellMapped plain idle calls entity values memory
  | write row column value => exact write_advance wellMapped plain idle calls row column value memory
  | delete row => exact delete_advance wellMapped plain idle calls row memory
  | accept => exact accept_advance plain idle calls memory
  | subscribe channel table listener => cases allowed
  | unsubscribe subscription => cases allowed
  | openView owner relation => exact openView_advance wellMapped plain idle calls owner relation memory
  | load view => exact load_advance wellMapped plain idle calls quiet view memory
  | members view => exact members_advance wellMapped plain idle calls quiet view memory
  | add view row => exact add_advance wellMapped plain idle calls quiet view row memory
  | remove view row => exact remove_advance wellMapped plain idle calls quiet view row memory
  | invalidate view => exact invalidate_advance plain idle calls view memory
  | close view => exact close_advance plain idle calls view memory

end

/-- Operations performed one after another, none of which subscribes a listener. -/
inductive PlainRun (calls : Callbacks σ) (start : UnitOfWork) : List Step → UnitOfWork → σ → Prop
  | start (memory : σ) : PlainRun calls start [] start memory
  | step {steps : List Step} {before after : UnitOfWork} {memory kept : σ} (operation : Operation)
      {result : Except Fault operation.Answer} (run : PlainRun calls start steps before memory)
      (allowed : operation.isPlain = true)
      (performed : perform calls operation before memory = some ⟨result, after, kept⟩) :
      PlainRun calls start (steps ++ [⟨before, operation, result, after⟩]) after kept

/-- What a view knows that was loaded in one step and has been so in all later ones: the rows that
were in the cache when it was loaded, and those whose foreign key has been set to the key since. -/
def Knows (loading : Step) (later : List Step) (column : String) (key : Value) (row : RowId) : Prop :=
  loading.after.Tracked row ∨ ∃ step ∈ later, ⟨row, column, key⟩ ∈ step.writes

/-- A live row of a view's child table, by its identity, whose current foreign key is the key. -/
def UnitOfWork.PointsAt (unit : UnitOfWork) (view : RelationView) (key : Value) (row : RowId)
    (identity : ObjectIdentity) : Prop :=
  ∃ record, unit.store.records.get? row = some record ∧ record.state.isLive = true ∧
    record.table = view.childTable ∧ record.identity = identity ∧
    unit.value row view.relation.childKey .current = .ok key

variable {model : Model} {calls : Callbacks σ} {steps : List Step} {unit : UnitOfWork} {memory : σ}

theorem UnitOfWork.Plain.new (model : Model) (settings : Settings) :
    (UnitOfWork.new model settings).Plain model where
  sound := ⟨rfl, .empty model, fun _ _ found => (nomatch found), .new model settings⟩
  alone channel := by
    intro table subscriber member
    cases channel <;> exact nomatch member

theorem UnitOfWork.isChild_iff_pointsAt_of_ends (mapped : (model.entities.map (·.table)).Nodup)
    (formed : unit.model = model ∧ unit.store.WellFormed model) {view : RelationView}
    {parent child : Entity} {parentIndex index : Nat} (ends : view.Ends model parent child parentIndex index)
    (key : Value) (row : RowId) (identity : ObjectIdentity) :
    unit.store.IsChild view.childTable index key row identity ↔ unit.PointsAt view key row identity := by
  refine exists_congr fun record => and_congr_right fun held => and_congr_right fun _ =>
    and_congr_right fun here => and_congr_right fun _ => ?_
  rw [value_child mapped formed ends held here .current, Except.ok.injEq]
  rfl

theorem UnitOfWork.isChild_iff_pointsAt (wellMapped : model.WellMapped) (sound : unit.Sound model)
    {view : RelationView} {index : Nat} {key : Value} (keyed : view.Keyed model index key) (row : RowId)
    (identity : ObjectIdentity) :
    unit.store.IsChild view.childTable index key row identity ↔ unit.PointsAt view key row identity := by
  obtain ⟨parent, child, parentIndex, -, ends, -⟩ := keyed
  exact isChild_iff_pointsAt_of_ends wellMapped.mapped sound.formed ends key row identity

-- Since it was loaded, a view has been faithful for as long as its owner has been live.
theorem PlainRun.faithful (wellMapped : model.WellMapped) {settings : Settings}
    (quiet : ∀ view command fetch, (calls.fetch view command fetch).Quiet)
    (run : PlainRun calls (.new model settings) steps unit memory) :
    unit.Plain model ∧ unit.inserting = none ∧
      ∀ id view index key, unit.views.get? id = some view → view.members?.isSome →
        view.Keyed model index key →
        ∃ earlier loading later, steps = earlier ++ loading :: later ∧
          loading.before.members? id = none ∧
          (∀ step ∈ loading :: later, (step.after.members? id).isSome) ∧
          ((∀ step ∈ loading :: later, (step.after.store.live.get? view.owner).isSome) →
            unit.Faithful id view index key (Knows loading later view.relation.childKey key)) := by
  induction run with
  | start memory => exact ⟨.new model settings, rfl, fun _ _ _ _ found => nomatch found⟩
  | @step steps before after memory kept operation result run allowed performed ih =>
    obtain ⟨plain, idle, loaded_before⟩ := ih
    obtain ⟨result', after', kept', performed', advance⟩ :=
      perform_advance wellMapped plain idle calls quiet operation allowed memory
    cases performed.symm.trans performed'
    refine ⟨advance.plain, advance.idle, fun id view' index key found' loaded' keyed' => ?_⟩
    have now : (after.members? id).isSome := by
      rw [UnitOfWork.members?, found', Option.bind_some]
      exact loaded'
    cases was : before.members? id with
    | none =>
      refine ⟨steps, ⟨before, operation, result, after⟩, [], rfl, was, ?_, fun _ => ?_⟩
      · intro step member
        rw [List.mem_singleton.mp member]
        exact now
      · refine (advance.loads id view' index key was found' loaded' keyed').congr fun row => ?_
        exact or_iff_left (by simp)
    | some members =>
      obtain ⟨view, found, loaded⟩ := Option.bind_eq_some_iff.mp was
      have alike := advance.alike id view view' found found'
      have keyed := keyed'.alike alike.symm
      obtain ⟨earlier, loading, later, split, unloaded, since, faithful⟩ :=
        loaded_before id view index key found (by rw [loaded]; rfl) keyed
      refine ⟨earlier, loading, later ++ [⟨before, operation, result, after⟩], ?_, unloaded, ?_, ?_⟩
      · rw [split, List.append_assoc, List.cons_append]
      · intro step member
        rcases List.mem_append.mp (List.cons_append .. ▸ member) with earlier | last
        · exact since step earlier
        · rw [List.mem_singleton.mp last]
          exact now
      · intro live
        rw [alike.owner] at live
        have stayed := faithful fun step member =>
          live step (List.cons_append .. ▸ List.mem_append_left _ member)
        obtain ⟨view'', faithful'⟩ := advance.faithful id view index key _ keyed stayed now
          (live ⟨before, operation, result, after⟩ (by simp))
        cases found'.symm.trans faithful'.found
        refine faithful'.congr fun row => ?_
        rw [alike.relation]
        simp only [Knows, List.mem_append, List.mem_singleton, or_and_right, exists_or,
          exists_eq_left, or_assoc]

theorem members_are_known_children (regular : model.Regular) {settings : Settings}
    (quiet : ∀ view command fetch, (calls.fetch view command fetch).Quiet)
    (run : PlainRun calls (.new model settings) steps unit memory) {id : ViewId} {view : RelationView}
    {members : List ObjectIdentity} (found : unit.views.get? id = some view)
    (loaded : view.members? = some members) {parent : Entity} {column : Column}
    (parentKnown : model.entity view.relation.parent = .ok parent)
    (parentKey : parent.column view.relation.parentKey = .ok column)
    (primary : column.primaryKey = true) :
    ∃ earlier loading later, steps = earlier ++ loading :: later ∧
      loading.before.members? id = none ∧
      (∀ step ∈ loading :: later, (step.after.members? id).isSome) ∧
      ((∀ step ∈ loading :: later, (step.after.store.live.get? view.owner).isSome) →
        ∃ key, unit.ownerKey view = .ok (some key) ∧ members.Nodup ∧
          ∀ identity, identity ∈ members ↔ ∃ row, unit.PointsAt view key row identity ∧
            Knows loading later view.relation.childKey key row) := by
  have wellMapped := regular.wellMapped
  obtain ⟨plain, -, faithful⟩ := run.faithful wellMapped quiet
  obtain ⟨owner, child, parentIndex, index, ends⟩ := plain.sound.proper id view found
  cases parentKnown.symm.trans ends.parentKnown
  obtain ⟨place, placed, here⟩ := Entity.columnIndex_of_column parentKey
  cases placed.symm.trans ends.parentKey
  have keyed : view.Keyed model index _ := ⟨parent, child, parentIndex, column, ends, here, primary, rfl⟩
  obtain ⟨earlier, loading, later, split, unloaded, since, stays⟩ :=
    faithful id view index _ found (by rw [loaded]; rfl) keyed
  refine ⟨earlier, loading, later, split, unloaded, since, fun live => ?_⟩
  have now := stays live
  obtain ⟨held, same, mirrors⟩ := now.mirrors
  cases loaded.symm.trans same
  refine ⟨_, UnitOfWork.ownerKey_of_keyed wellMapped plain.sound keyed now.live, mirrors.nodup, ?_⟩
  intro identity
  rw [mirrors.member]
  exact exists_congr fun row =>
    and_congr_left fun _ => UnitOfWork.isChild_iff_pointsAt wellMapped plain.sound keyed row identity

def orders : Model :=
  ⟨[⟨"Order", "orders", [⟨"id", "id", true, false, none⟩], [⟨"lines", "Order", "Line", "id", "order"⟩]⟩,
    ⟨"Line", "lines", [⟨"id", "id", true, false, none⟩, ⟨"order", "order", false, false, none⟩], []⟩]⟩

def codedOrders : Model :=
  ⟨[⟨"Order", "orders", [⟨"id", "id", true, false, none⟩, ⟨"code", "code", false, false, none⟩],
      [⟨"lines", "Order", "Line", "code", "order"⟩]⟩,
    ⟨"Line", "lines", [⟨"id", "id", true, false, none⟩, ⟨"order", "order", false, false, none⟩], []⟩]⟩

-- A store without rows, and nobody who objects.
def nothingStored : Callbacks Unit where
  columnChanging _ _ := Action.succeed ()
  rowDeleting _ _ := Action.succeed ()
  fetch _ _ _ := Action.succeed []

-- Line 7 is inserted for order 1 while the lines of that order are loaded.
theorem inserted_line_is_known_child : ∃ steps unit view,
    PlainRun nothingStored (.new orders .standard) steps unit () ∧
      unit.views.get? ⟨0⟩ = some view ∧ view.members? = some [⟨"lines", [.integer 7]⟩] ∧
      ∃ earlier loading later, steps = earlier ++ loading :: later ∧
        loading.before.members? ⟨0⟩ = none ∧
        (∀ step ∈ loading :: later, (step.after.members? ⟨0⟩).isSome) ∧
        ((∀ step ∈ loading :: later, (step.after.store.live.get? view.owner).isSome) →
          ∃ key, unit.ownerKey view = .ok (some key) ∧ [ObjectIdentity.mk "lines" [.integer 7]].Nodup ∧
            ∀ identity, identity ∈ [ObjectIdentity.mk "lines" [.integer 7]] ↔
              ∃ row, unit.PointsAt view key row identity ∧
                Knows loading later view.relation.childKey key row) := by
  have fresh : PlainRun nothingStored (.new orders .standard) [] (.new orders .standard) () := .start ()
  have attached := PlainRun.step (.attach "Order" [.integer 1]) fresh rfl rfl
  have opened := PlainRun.step (.openView ⟨"orders", [.integer 1]⟩ "lines") attached rfl rfl
  have loaded := PlainRun.step (.load ⟨0⟩) opened rfl rfl
  have inserted := PlainRun.step (.insert "Line" [("id", .integer 7), ("order", .integer 1)])
    loaded rfl rfl
  exact ⟨_, _, _, inserted, rfl, rfl, members_are_known_children ⟨rfl, by decide, by decide, by decide⟩
    (fun _ _ _ unit memory => ⟨_, _, rfl⟩) inserted rfl rfl rfl rfl rfl⟩

end RelationalMapper.Cache
