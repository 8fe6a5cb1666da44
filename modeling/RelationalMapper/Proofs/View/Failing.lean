import RelationalMapper.Proofs.View.Merge

set_option autoImplicit false

namespace RelationalMapper.Cache

variable {σ : Type}

theorem RelationView.Ends.displays {view : RelationView} {model : Model} {parent child : Entity}
    {parentIndex index : Nat} (mapped : (model.entities.map (·.table)).Nodup)
    (ends : view.Ends model parent child parentIndex index) : view.Displays model child index where
  known := by rw [ends.childEntity]; exact Model.entity_self ends.childKnown
  table := ends.childTable.symm
  placed := ends.childKey
  alone entity member here := by
    have same : entity = child := List.inj_on_of_nodup_map mapped member (Model.entity_mem ends.childKnown)
      (here.trans ends.childTable)
    rw [same, ends.childEntity]

structure UnitOfWork.Requests (unit : UnitOfWork) (view : RelationView) (key : Value)
    (command : Sql.Command) : Prop where
  wanted : unit.wantedKey view = .ok (some key)
  compiled : unit.compiler.select (childFetch view key) = .ok command

/-- Why the load of a view fails whose row source does nothing but answer, and what it has taken in by
then. -/
inductive LoadFault (calls : Callbacks σ) (unit : UnitOfWork) (id : ViewId) (view : RelationView)
    (child : Entity) (memory : σ) : Fault → List Arrival → σ → Prop
  | owner (dead : unit.store.live.get? view.owner = none) :
      LoadFault calls unit id view child memory (.ownerNotLive view.owner) [] memory
  | source {key : Value} {command : Sql.Command} {fault : Fault} {kept : σ}
      (requests : unit.Requests view key command)
      (answered : calls.fetch id command (UnitOfWork.childFetch view key) unit memory =
        some ⟨.error fault, unit, kept⟩) :
      LoadFault calls unit id view child memory fault [] kept
  | row {key : Value} {command : Sql.Command} {before rest : List (List Value)} {values : List Value}
      {arrivals : List Arrival} {fault : Fault} {kept : σ} (requests : unit.Requests view key command)
      (answered : calls.fetch id command (UnitOfWork.childFetch view key) unit memory =
        some ⟨.ok (before ++ values :: rest), unit, kept⟩)
      (read : before.mapM (Arrival.of child) = .ok arrivals)
      (faulty : Arrival.Faulty child values fault) :
      LoadFault calls unit id view child memory fault arrivals kept

theorem LoadFault.read {calls : Callbacks σ} {unit : UnitOfWork} {id : ViewId} {view : RelationView}
    {child : Entity} {memory kept : σ} {fault : Fault} {arrivals : List Arrival}
    (cause : LoadFault calls unit id view child memory fault arrivals kept) :
    ∃ rows : List (List Value), rows.mapM (Arrival.of child) = .ok arrivals := by
  cases cause with
  | owner => exact ⟨[], rfl⟩
  | source => exact ⟨[], rfl⟩
  | row _ _ read => exact ⟨_, read⟩

namespace UnitOfWork

variable {unit : UnitOfWork} {model : Model} {view : RelationView} {child : Entity} {index : Nat}
  {key : Value} {command : Sql.Command}

theorem wantedKey_of_dead (dead : unit.store.live.get? view.owner = none) :
    unit.wantedKey view = .error (.ownerNotLive view.owner) := by
  rw [wantedKey, dead]
  rfl

section

variable {calls : Callbacks σ} {id : ViewId} {memory kept : σ} (found : unit.views.get? id = some view)
  (unloaded : view.state = .unloaded)

include found unloaded

theorem loadView_of_dead (dead : unit.store.live.get? view.owner = none) :
    loadView calls id unit memory = some ⟨.error (.ownerNotLive view.owner), unit, memory⟩ := by
  unfold loadView
  rw [Action.ask_bind_of_ok (view_eq_ok.mpr found), unloaded]
  exact Action.bind_of_error (Action.ask_bind_of_error (wantedKey_of_dead dead) _) _

theorem loadView_of_keyless (wanted : unit.wantedKey view = .ok none) :
    loadView calls id unit memory = some ⟨.ok (), unit.completeLoad id view [], memory⟩ := by
  have queried : queryMembers calls id view unit memory = some ⟨.ok [], unit, memory⟩ := by
    unfold queryMembers
    rw [Action.ask_bind_of_ok wanted]
    rfl
  unfold loadView
  rw [Action.ask_bind_of_ok (view_eq_ok.mpr found), unloaded]
  dsimp only
  rw [Action.bind_of_ok queried, Action.ask_bind_of_ok (view_eq_ok.mpr found)]
  rfl

theorem loadView_of_unanswered (requests : unit.Requests view key command) {fault : Fault}
    (answered : calls.fetch id command (childFetch view key) unit memory =
      some ⟨.error fault, unit, kept⟩) :
    loadView calls id unit memory = some ⟨.error fault, unit, kept⟩ := by
  have queried : queryMembers calls id view unit memory = some ⟨.error fault, unit, kept⟩ := by
    unfold queryMembers
    rw [Action.ask_bind_of_ok requests.wanted]
    dsimp only
    rw [Action.ask_bind_of_ok requests.compiled]
    exact Action.bind_of_error answered _
  unfold loadView
  rw [Action.ask_bind_of_ok (view_eq_ok.mpr found), unloaded]
  exact Action.bind_of_error queried _

end

section

variable {parent : Entity} {parentIndex : Nat} (mapped : (model.entities.map (·.table)).Nodup)
  (formed : unit.model = model ∧ unit.store.WellFormed model)
  (ends : view.Ends model parent child parentIndex index)

include mapped formed ends

theorem value_owner {owner : RowId} (live : unit.store.live.get? view.owner = some owner) :
    ∃ key, unit.value owner view.relation.parentKey .current = .ok key := by
  obtain ⟨record, held, -, alive⟩ := (formed.2.live _ _).mp live
  have lives : (unit.store.state owner).isLive = true := RowStore.state_isLive.mpr ⟨record, held, alive⟩
  obtain ⟨wish, owned⟩ := ownerKey_ok mapped formed ends
  simp only [ownerKey, live, lives, if_true] at owned
  obtain ⟨key, points, -⟩ := Except.bind_eq_ok.mp owned
  exact ⟨key, points⟩

theorem wantedKey_eq_error {fault : Fault} : unit.wantedKey view = .error fault ↔
    unit.store.live.get? view.owner = none ∧ fault = .ownerNotLive view.owner := by
  cases live : unit.store.live.get? view.owner with
  | none => simp [wantedKey_of_dead live, eq_comm]
  | some owner =>
    obtain ⟨key, points⟩ := value_owner mapped formed ends live
    simp [wantedKey_of_live formed.2 live points]

-- The child entity has the column of the foreign key, and so the children can be asked for.
theorem requests_of_wanted (wanted : unit.wantedKey view = .ok (some key)) :
    ∃ command, unit.Requests view key command := by
  have present := ownerKey_present (wantedKey_eq_ok.mp wanted).2
  have displays := ends.displays mapped
  obtain ⟨column, placed⟩ := Entity.column_ok displays.placed
  refine ⟨_, wanted, (select_childFetch present).mpr ⟨child, column, ?_, placed, rfl⟩⟩
  exact (congrArg (·.entity view.childEntity) formed.1).trans displays.known

section

variable {calls : Callbacks σ} {id : ViewId} {memory kept : σ} (found : unit.views.get? id = some view)
  (unloaded : view.state = .unloaded) {after : UnitOfWork} {fault : Fault}

include found unloaded

theorem loadView_of_fault {arrivals : List Arrival}
    (cause : LoadFault calls unit id view child memory fault arrivals kept) :
    loadView calls id unit memory = some ⟨.error fault,
      { unit with store := unit.store.registerAll child (unit.store.newcomers arrivals) }, kept⟩ := by
  cases cause with
  | owner dead => exact loadView_of_dead found unloaded dead
  | source requests answered => exact loadView_of_unanswered found unloaded requests answered
  | row requests answered read faulty =>
    have loaded := loadView_displayed formed (ends.displays mapped) requests.wanted requests.compiled
      answered found unloaded
    rw [RowStore.intake_eq, Arrival.upToFault_eq_some.mpr
      ⟨_, _, _, rfl, read, Arrival.of_eq_error.mpr faulty⟩] at loaded
    exact loaded

theorem loadView_eq_error (quiet : ∀ command fetch, (calls.fetch id command fetch).Quiet) :
    loadView calls id unit memory = some ⟨.error fault, after, kept⟩ ↔
      ∃ arrivals, LoadFault calls unit id view child memory fault arrivals kept ∧
        after = { unit with store := unit.store.registerAll child (unit.store.newcomers arrivals) } := by
  constructor
  · intro failed
    cases wanted : unit.wantedKey view with
    | error fault' =>
      obtain ⟨dead, -⟩ := (wantedKey_eq_error mapped formed ends).mp wanted
      cases (loadView_of_dead found unloaded dead).symm.trans failed
      exact ⟨[], .owner dead, rfl⟩
    | ok wish =>
      cases wish with
      | none => cases (loadView_of_keyless found unloaded wanted).symm.trans failed
      | some key =>
        obtain ⟨command, requests⟩ := requests_of_wanted mapped formed ends wanted
        obtain ⟨answer, _, answered⟩ := quiet command (childFetch view key) unit memory
        cases answer with
        | error fault' =>
          cases (loadView_of_unanswered found unloaded requests answered).symm.trans failed
          exact ⟨[], .source requests answered, rfl⟩
        | ok fetched =>
          have loaded := loadView_displayed formed (ends.displays mapped) requests.wanted requests.compiled
            answered found unloaded
          rw [RowStore.intake_eq] at loaded
          cases stopped : (Arrival.upToFault child fetched).2 with
          | none =>
            rw [stopped] at loaded
            cases loaded.symm.trans failed
          | some fault' =>
            rw [stopped] at loaded
            cases loaded.symm.trans failed
            obtain ⟨before, values, rest, rfl, read, faulty⟩ :=
              Arrival.upToFault_eq_some.mp (Prod.ext rfl stopped)
            exact ⟨_, .row requests answered read (Arrival.of_eq_error.mp faulty), rfl⟩
  · rintro ⟨arrivals, cause, rfl⟩
    exact loadView_of_fault mapped formed ends found unloaded cause

end

end

end UnitOfWork

/-- How the load of an unloaded view ends, whatever has been tried before. It fails while the owner is not
live, finds nothing if the owner has no key, and otherwise merges what the row source has. -/
structure LoadsAnew (calls : Callbacks σ) (unit : UnitOfWork) (id : ViewId) (view : RelationView)
    (child : Entity) (index : Nat) (memory : σ) : Prop where
  ownerless : unit.store.live.get? view.owner = none →
    perform calls (.load id) unit memory = some ⟨.error (.ownerNotLive view.owner), unit, memory⟩
  owned : ∀ owner, unit.store.live.get? view.owner = some owner →
    ∃ key, unit.value owner view.relation.parentKey .current = .ok key ∧
      (key = .null → perform calls (.load id) unit memory =
        some ⟨.ok (), unit.completeLoad id view [], memory⟩) ∧
      (key ≠ .null → ∃ command, unit.Requests view key command ∧
        ∀ rows arrivals kept, calls.fetch id command (UnitOfWork.childFetch view key) unit memory =
            some ⟨.ok rows, unit, kept⟩ → rows.mapM (Arrival.of child) = .ok arrivals →
          ∃ after members, perform calls (.load id) unit memory = some ⟨.ok (), after, kept⟩ ∧
            after = ({ unit with store := after.store } : UnitOfWork).completeLoad id view members ∧
            Merges unit after view child index key arrivals members)

theorem UnitOfWork.loadsAnew {unit : UnitOfWork} {model : Model} {view : RelationView}
    {parent child : Entity} {parentIndex index : Nat} {id : ViewId}
    (mapped : (model.entities.map (·.table)).Nodup)
    (formed : unit.model = model ∧ unit.store.WellFormed model)
    (ends : view.Ends model parent child parentIndex index) (found : unit.views.get? id = some view)
    (unloaded : view.state = .unloaded) (calls : Callbacks σ) (memory : σ) :
    LoadsAnew calls unit id view child index memory where
  ownerless dead := loadView_of_dead found unloaded dead
  owned owner live := by
    obtain ⟨key, points⟩ := value_owner mapped formed ends live
    have wanted := wantedKey_of_live formed.2 live points
    refine ⟨key, points, fun null => ?_, fun present => ?_⟩
    · rw [if_pos null] at wanted
      exact loadView_of_keyless found unloaded wanted
    · rw [if_neg present] at wanted
      obtain ⟨command, requests⟩ := requests_of_wanted mapped formed ends wanted
      refine ⟨command, requests, fun rows arrivals kept answered read => ?_⟩
      have displays := ends.displays mapped
      have loaded := loadView_displayed formed displays requests.wanted requests.compiled answered found
        unloaded
      have merges := merges_completeLoad formed displays id key rows
      rw [Arrival.upToFault_eq_none.mpr read] at loaded merges
      exact ⟨_, _, loaded, rfl, merges⟩

/-- A load that fails, by itself or at the start of a read, an addition or a removal, leaves the stored
rows that came before the faulty one and nothing else. From there and from wherever else the run comes to,
the view is loaded as is any other on the same children that has not been loaded. -/
theorem failed_load_changes_only_the_cache {calls : Callbacks σ} {unit after : UnitOfWork} {model : Model}
    {id : ViewId} {view : RelationView} {fault : Fault} {memory kept : σ} (wellMapped : model.WellMapped)
    (reachable : unit.Reachable model) (found : unit.views.get? id = some view)
    (unloaded : view.state = .unloaded) (quiet : ∀ command fetch, (calls.fetch id command fetch).Quiet)
    (failed : perform calls (.load id) unit memory = some ⟨.error fault, after, kept⟩) :
    ∃ child index arrivals,
      model.entity view.childEntity = .ok child ∧
      child.columnIndex view.relation.childKey = .ok index ∧
      LoadFault calls unit id view child memory fault arrivals kept ∧
      after = { unit with store := after.store } ∧
      unit.store.TakesIn after.store child arrivals ∧
      perform calls (.members id) unit memory = some ⟨.error fault, after, kept⟩ ∧
      (∀ row, perform calls (.add id row) unit memory = some ⟨.error fault, after, kept⟩ ∧
        perform calls (.remove id row) unit memory = some ⟨.error fault, after, kept⟩) ∧
      ∀ later, later = after ∨ later.Reachable model → ∀ next, later.views.get? next = some view →
        ∀ (source : Callbacks σ) (start : σ), LoadsAnew source later next view child index start := by
  have formed := reachable.wellFormed
  obtain ⟨-, parent, child, parentIndex, index, ends⟩ :=
    (reachable.tethered wellMapped.valid wellMapped.named).opened id view found
  have displays := ends.displays wellMapped.mapped
  obtain ⟨arrivals, cause, rfl⟩ :=
    (UnitOfWork.loadView_eq_error wellMapped.mapped formed ends found unloaded quiet).mp failed
  obtain ⟨rows, read⟩ := cause.read
  have takesIn := UnitOfWork.takesIn_intake formed (Model.entity_self displays.known) rows
  have entered := UnitOfWork.intake_attached formed (Model.entity_self displays.known) rows
  rw [RowStore.intake_eq, Arrival.upToFault_eq_none.mpr read] at takesIn entered
  refine ⟨child, index, arrivals, displays.known, displays.placed, cause, rfl, takesIn,
    Action.bind_of_error failed _,
    fun row => ⟨Action.bind_of_error failed _, Action.bind_of_error failed _⟩, ?_⟩
  rintro later here next stands source start
  have formed' : later.model = model ∧ later.store.WellFormed model := by
    rcases here with rfl | reached
    · exact entered.wellFormed formed.1
    · exact reached.wellFormed
  exact UnitOfWork.loadsAnew wellMapped.mapped formed' ends stands unloaded source start

-- The second row has no order.
def linesCutShort : List (List Value) :=
  [[.integer 5, .integer 1], [.integer 6], [.integer 7, .integer 1]]

-- Line 5 comes in and stays, line 6 has too few values, and line 7 is not looked at. The next time all
-- rows are in order.
theorem lines_cut_short : ∃ unit after owner child index arrivals,
    unit.Reachable orders ∧ unit.views.get? ⟨0⟩ = some { noLines with state := .unloaded } ∧
      perform ((bringing linesCutShort).callbacks 1) (.load ⟨0⟩) unit () =
        some ⟨.error (.wrongWidth "Line" 2 1), after, ()⟩ ∧
      after = { unit with store := after.store } ∧
      unit.store.TakesIn after.store child arrivals ∧
      unit.store.resolve? ⟨"lines", [.integer 5]⟩ = none ∧
      (after.store.resolve? ⟨"lines", [.integer 5]⟩).isSome ∧
      after.store.resolve? ⟨"lines", [.integer 7]⟩ = none ∧
      after.store.live.get? noLines.owner = some owner ∧
      LoadsAnew ((bringing linesStored).callbacks 1) after ⟨0⟩ { noLines with state := .unloaded } child
        index () := by
  have evaluated : (linesChanged.run ((bringing []).callbacks 1) (.new orders .standard) ()).any
      (fun opened => (loadView ((bringing linesCutShort).callbacks 1) ⟨0⟩ opened.unit ()).any fun ended =>
        decide (ended.result = .error (.wrongWidth "Line" 2 1) ∧
          opened.unit.views.get? ⟨0⟩ = some { noLines with state := .unloaded } ∧
          ended.unit.views.get? ⟨0⟩ = some { noLines with state := .unloaded } ∧
          opened.unit.store.resolve? ⟨"lines", [.integer 5]⟩ = none ∧
          (ended.unit.store.resolve? ⟨"lines", [.integer 5]⟩).isSome ∧
          ended.unit.store.resolve? ⟨"lines", [.integer 7]⟩ = none ∧
          ended.unit.store.live.get? noLines.owner = some ⟨0⟩)) = true := by
    decide +kernel
  simp only [Option.any_eq_true, decide_eq_true_eq] at evaluated
  obtain ⟨⟨_, unit, _⟩, ran, ⟨_, after, _⟩, failed, rfl, found, still, new, entered, unread, live⟩ :=
    evaluated
  have reachable : unit.Reachable orders := .of_run ran
  have wellMapped : orders.WellMapped := ⟨by decide, by decide, by decide⟩
  obtain ⟨child, index, arrivals, -, -, -, same, takesIn, -, -, anew⟩ :=
    failed_load_changes_only_the_cache wellMapped reachable found rfl (fun _ _ _ _ => ⟨_, _, rfl⟩) failed
  exact ⟨unit, after, ⟨0⟩, child, index, arrivals, reachable, found, failed, same, takesIn, new, entered,
    unread, live, anew after (.inl rfl) ⟨0⟩ still _ ()⟩

-- The order of the view has never been attached.
def linesOfAbsentOrder : Program Unit Unit :=
  .perform (.openView ⟨"orders", [.integer 1]⟩ "lines") fun _ =>
  .done ()

theorem lines_fail_again_without_order : ∃ unit, unit.Reachable orders ∧ orders.WellMapped ∧
    unit.views.get? ⟨0⟩ = some { noLines with state := .unloaded } ∧
    ∀ rows, perform ((bringing rows).callbacks 1) (.load ⟨0⟩) unit () =
      some ⟨.error (.ownerNotLive ⟨"orders", [.integer 1]⟩), unit, ()⟩ := by
  have evaluated : (linesOfAbsentOrder.run ((bringing []).callbacks 1) (.new orders .standard) ()).any
      (fun opened => decide (opened.unit.views.get? ⟨0⟩ = some { noLines with state := .unloaded } ∧
        opened.unit.store.live.get? noLines.owner = none)) = true := by
    decide +kernel
  simp only [Option.any_eq_true, decide_eq_true_eq] at evaluated
  obtain ⟨⟨_, unit, _⟩, ran, found, dead⟩ := evaluated
  exact ⟨unit, .of_run ran, ⟨by decide, by decide, by decide⟩, found,
    fun rows => UnitOfWork.loadView_of_dead found rfl dead⟩

end RelationalMapper.Cache
