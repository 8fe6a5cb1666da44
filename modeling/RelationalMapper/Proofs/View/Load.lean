import RelationalMapper.Proofs.View.Plain

set_option autoImplicit false

namespace RelationalMapper.Cache

variable {σ : Type}

structure Gathered (store : RowStore) (table : String) (index : Nat) (key : Value)
    (members : List ObjectIdentity) : Prop where
  nodup : members.Nodup
  children : ∀ identity ∈ members, ∃ row, store.IsChild table index key row identity

namespace Gathered

variable {store after : RowStore} {model : Model} {table : String} {index : Nat} {key : Value}
  {members : List ObjectIdentity}

theorem nil (store : RowStore) (table : String) (index : Nat) (key : Value) :
    Gathered store table index key [] :=
  ⟨.nil, fun _ member => nomatch member⟩

theorem extend (gathered : Gathered store table index key members) (formed : store.WellFormed model)
    (extended : after.Extends store) : Gathered after table index key members where
  nodup := gathered.nodup
  children := by
    intro identity member
    obtain ⟨row, child⟩ := gathered.children identity member
    obtain ⟨record, held, -⟩ := id child
    exact ⟨row, (RowStore.isChild_extend extended (formed.numbered row record held)).mpr child⟩

theorem join (gathered : Gathered store table index key members) {row : RowId}
    {identity : ObjectIdentity} (child : store.IsChild table index key row identity) :
    Gathered store table index key (joined members identity) where
  nodup := nodup_joined gathered.nodup identity
  children := by
    intro other member
    rcases mem_joined.mp member with earlier | rfl
    · exact gathered.children other earlier
    · exact ⟨row, child⟩

end Gathered

namespace UnitOfWork

structure Attached (after before : UnitOfWork) (model : Model) : Prop where
  same : after = { before with store := after.store }
  formed : after.store.WellFormed model
  extended : after.store.Extends before.store
  lasts : after.store.Lasts before.store

namespace Attached

variable {before unit after : UnitOfWork} {model : Model}

theorem refl (rows : unit.store.WellFormed model) : unit.Attached unit model :=
  ⟨rfl, rows, .refl _, .refl _⟩

theorem model_eq (attached : after.Attached before model) : after.model = before.model := by
  rw [attached.same]

theorem trans (second : after.Attached unit model) (first : unit.Attached before model) :
    after.Attached before model where
  same := by
    rw [second.same, first.same]
  formed := second.formed
  extended := second.extended.trans first.extended
  lasts := second.lasts.trans first.lasts

theorem sound (attached : after.Attached unit model) (sound : unit.Sound model) :
    after.Sound model := by
  rw [attached.same]
  exact sound.withStore attached.formed

theorem plain (attached : after.Attached unit model) (plain : unit.Plain model) :
    after.Plain model := by
  refine ⟨attached.sound plain.sound, ?_⟩
  rw [attached.same]
  exact plain.alone

end Attached

def Tracked (unit : UnitOfWork) (row : RowId) : Prop :=
  (unit.store.records.get? row).isSome

variable {unit after : UnitOfWork} {model : Model} {view : RelationView} {parent child : Entity}
  {parentIndex childIndex : Nat} {row : RowId} {record : RowRecord} {key : Value}

theorem attach_attached (formed : unit.model = model ∧ unit.store.WellFormed model) {name : String} {values : List Value}
    (attached : unit.attach name values = .ok (row, after)) : after.Attached unit model := by
  have led := (wellFormed_evolving model).leading.attach formed attached
  obtain ⟨entity, identity, -, -, -, ⟨-, rfl⟩ | ⟨free, -, rfl⟩⟩ := attach_eq_ok.mp attached
  · exact .refl formed.2
  · exact ⟨rfl, led.2.1, .register _ (Option.or_eq_none_iff.mp free).1,
      .register _ formed.2.next_untracked free⟩

theorem record_of_attach (formed : unit.model = model ∧ unit.store.WellFormed model)
    (ends : view.Ends model parent child parentIndex childIndex) {values : List Value}
    (attached : unit.attach view.childEntity values = .ok (row, after)) :
    ∃ record, after.store.records.get? row = some record ∧ record.table = view.childTable := by
  obtain ⟨entity, identity, known, width, own, found⟩ := attach_eq_ok.mp attached
  have same : entity = child := by
    rw [formed.1, ends.childEntity, Model.entity_self ends.childKnown] at known
    exact (Except.ok.inj known).symm
  subst same
  rcases found with ⟨resolved, rfl⟩ | ⟨-, rfl, rfl⟩
  · have tracked : ∃ record, after.store.records.get? row = some record ∧
        record.identity = identity := by
      rcases Option.or_eq_some_iff.mp resolved with live | ⟨-, buried⟩
      · obtain ⟨record, held, same, -⟩ := (formed.2.live _ _).mp live
        exact ⟨record, held, same⟩
      · obtain ⟨record, held, same, -⟩ := formed.2.tombstones _ _ buried
        exact ⟨record, held, same⟩
    obtain ⟨record, held, rfl⟩ := tracked
    obtain ⟨own_entity, -, fits⟩ := formed.2.fits row record held
    refine ⟨record, held, ?_⟩
    rw [fits.table, ← fits.current.table, (Entity.identityOf_eq_ok own width).table, ends.childTable]
  · exact ⟨_, by rw [RowStore.records_register, if_pos rfl], ends.childTable.symm⟩

section

variable (mapped : (model.entities.map (·.table)).Nodup)
  (formed : unit.model = model ∧ unit.store.WellFormed model)
  (ends : view.Ends model parent child parentIndex childIndex)

include mapped formed ends

theorem admitRow_eq (held : unit.store.records.get? row = some record)
    (here : record.table = view.childTable) (key : Value) (members : List ObjectIdentity) :
    unit.admitRow view key members row = .ok
      (if record.state.isLive ∧ record.current.getD childIndex .null = key then
        joined members record.identity else members) := by
  have state : unit.store.state row = record.state := by simp [RowStore.state, held]
  have own : unit.identityOf row = .ok record.identity := identityOf_eq_ok.mpr ⟨record, held, rfl⟩
  unfold admitRow
  rw [state, value_child mapped formed ends held here .current, own]
  by_cases live : record.state.isLive
  · by_cases points : record.current.getD childIndex .null = key
    · simp only [live, points, RowRecord.version, Bind.bind, Except.bind, Pure.pure, Except.pure,
        if_true, and_self]
    · simp only [live, points, RowRecord.version, Bind.bind, Except.bind, Pure.pure, Except.pure,
        if_true, if_false, and_false]
  · simp only [live, Pure.pure, Except.pure, Bool.false_eq_true, if_false, false_and]

theorem admitRow_gathers (held : unit.store.records.get? row = some record)
    (here : record.table = view.childTable) {members : List ObjectIdentity}
    (gathered : Gathered unit.store view.childTable childIndex key members) :
    ∃ later, unit.admitRow view key members row = .ok later ∧
      Gathered unit.store view.childTable childIndex key later ∧ (∀ identity ∈ members, identity ∈ later) ∧
      ∀ identity, unit.store.IsChild view.childTable childIndex key row identity → identity ∈ later := by
  refine ⟨_, admitRow_eq mapped formed ends held here key members, ?_⟩
  split
  next points =>
    refine ⟨gathered.join ⟨record, held, points.1, here, rfl, points.2⟩, ?_, ?_⟩
    · exact fun identity member => mem_joined.mpr (.inl member)
    · exact fun identity child => mem_joined.mpr (.inr (child.identity_eq held))
  next stranger =>
    refine ⟨gathered, fun _ member => member, ?_⟩
    rintro identity ⟨found, stands, live, _, _, points⟩
    cases held.symm.trans stands
    exact absurd ⟨live, points⟩ stranger

theorem admitRows_gathers (rows : List RowId)
    (tracked : ∀ row ∈ rows, ∃ record, unit.store.records.get? row = some record ∧
      record.table = view.childTable) {members : List ObjectIdentity}
    (gathered : Gathered unit.store view.childTable childIndex key members) :
    ∃ later, rows.foldlM (unit.admitRow view key) members = .ok later ∧
      Gathered unit.store view.childTable childIndex key later ∧ (∀ identity ∈ members, identity ∈ later) ∧
      ∀ row ∈ rows, ∀ identity, unit.store.IsChild view.childTable childIndex key row identity →
        identity ∈ later := by
  induction rows generalizing members with
  | nil => exact ⟨members, rfl, gathered, fun _ member => member, fun _ member => nomatch member⟩
  | cons row rest ih =>
    obtain ⟨record, held, here⟩ := tracked row (List.mem_cons_self ..)
    obtain ⟨between, admitted, gathered, kept, found⟩ :=
      admitRow_gathers mapped formed ends held here gathered
    obtain ⟨later, ran, gathered, kept', found'⟩ :=
      ih (fun row member => tracked row (List.mem_cons_of_mem _ member)) gathered
    refine ⟨later, ?_, gathered, fun identity member => kept' identity (kept identity member), ?_⟩
    · rw [List.foldlM_cons, admitted]
      exact ran
    · intro other member identity child
      rcases List.mem_cons.mp member with rfl | member
      · exact kept' identity (found identity child)
      · exact found' other member identity child

theorem admitAll_gathers (fetched : List (List Value)) {members : List ObjectIdentity}
    (gathered : Gathered unit.store view.childTable childIndex key members) (memory : σ) :
    ∃ result after, admitAll view key fetched members unit memory = some ⟨result, after, memory⟩ ∧
      after.Attached unit model ∧
      ∀ later, result = .ok later → Gathered after.store view.childTable childIndex key later := by
  induction fetched generalizing unit members with
  | nil =>
    refine ⟨.ok members, unit, rfl, .refl formed.2, ?_⟩
    intro later same
    cases same
    exact gathered
  | cons values rest ih =>
    rw [admitAll]
    cases attached : unit.attach view.childEntity values with
    | error fault =>
      have failed : attachRow view.childEntity values unit memory =
          some ⟨.error fault, unit, memory⟩ := Action.ask_bind_of_error attached _
      exact ⟨.error fault, unit, Action.bind_of_error failed _, .refl formed.2, fun _ same => nomatch same⟩
    | ok answer =>
      obtain ⟨row, between⟩ := answer
      have ran : attachRow view.childEntity values unit memory =
          some ⟨.ok row, between, memory⟩ := by
        rw [attachRow, Action.ask_bind_of_ok attached]
        rfl
      have first := attach_attached formed attached
      have here : between.model = model ∧ between.store.WellFormed model :=
        ⟨first.model_eq.trans formed.1, first.formed⟩
      obtain ⟨record, held, table⟩ := record_of_attach formed ends attached
      obtain ⟨next, admitted, gathered, -, -⟩ :=
        admitRow_gathers mapped here ends held table (gathered.extend formed.2 first.extended)
      obtain ⟨result, after, ran', second, found⟩ := ih here gathered
      refine ⟨result, after, ?_, second.trans first, found⟩
      rw [Action.bind_of_ok ran, Action.ask_bind_of_ok admitted]
      exact ran'

-- All rows of the child table having been gone through, no child is missing.
theorem admitRows_mirrors {members : List ObjectIdentity}
    (gathered : Gathered unit.store view.childTable childIndex key members) :
    ∃ later, (unit.store.rows view.childTable).foldlM (unit.admitRow view key) members = .ok later ∧
      Mirrors unit.store view.childTable childIndex key unit.Tracked later := by
  have tracked : ∀ row ∈ unit.store.rows view.childTable, ∃ record,
      unit.store.records.get? row = some record ∧ record.table = view.childTable := by
    intro row member
    obtain ⟨record, held, table, -⟩ := (formed.2.listed view.childTable row).mp member
    exact ⟨record, held, table⟩
  obtain ⟨later, ran, gathered, -, all⟩ := admitRows_gathers mapped formed ends _ tracked gathered
  refine ⟨later, ran, gathered.nodup, fun identity => ⟨fun member => ?_, ?_⟩⟩
  · obtain ⟨row, record, held, rest⟩ := gathered.children identity member
    exact ⟨row, ⟨record, held, rest⟩, by simp [Tracked, held]⟩
  · rintro ⟨row, ⟨record, held, live, table, rest⟩, _⟩
    have staying : record.state ≠ .detached := by
      intro detached
      rw [detached] at live
      cases live
    exact all row ((formed.2.listed _ row).mpr ⟨record, held, table, staying⟩) identity
      ⟨record, held, live, table, rest⟩

end

theorem wantedKey_eq_ok {wish : Option Value} : unit.wantedKey view = .ok wish ↔
    (unit.store.live.get? view.owner).isSome ∧ unit.ownerKey view = .ok wish := by
  unfold wantedKey
  cases unit.store.live.get? view.owner <;> simp

theorem queryMembers_plain (mapped : (model.entities.map (·.table)).Nodup)
    (formed : unit.model = model ∧ unit.store.WellFormed model)
    (proper : view.Proper model) (calls : Callbacks σ)
    (quiet : ∀ view command fetch, (calls.fetch view command fetch).Quiet) (id : ViewId)
    (memory : σ) :
    ∃ result after kept, queryMembers calls id view unit memory = some ⟨result, after, kept⟩ ∧
      after.Attached unit model ∧ ∀ members, result = .ok members →
        (unit.store.live.get? view.owner).isSome ∧
        (∀ identity ∈ members, (after.store.resolve? identity).isSome) ∧
        ∀ parent child parentIndex childIndex key,
          view.Ends model parent child parentIndex childIndex →
          unit.ownerKey view = .ok (some key) →
          Mirrors after.store view.childTable childIndex key after.Tracked members := by
  unfold queryMembers
  cases wanted : unit.wantedKey view with
  | error fault =>
    exact ⟨_, unit, memory, Action.ask_bind_of_error wanted _, .refl formed.2, fun _ same => nomatch same⟩
  | ok wish =>
    rw [Action.ask_bind_of_ok wanted]
    obtain ⟨lives, wanted⟩ := wantedKey_eq_ok.mp wanted
    cases wish with
    | none =>
      refine ⟨.ok [], unit, memory, rfl, .refl formed.2, fun members same => ?_⟩
      cases same
      refine ⟨lives, by simp, ?_⟩
      intro _ _ _ _ key _ owned
      cases wanted.symm.trans owned
    | some key =>
      dsimp only
      cases compiled : unit.compiler.select (childFetch view key) with
      | error fault =>
        exact ⟨_, unit, memory, Action.ask_bind_of_error compiled _, .refl formed.2,
          fun _ same => nomatch same⟩
      | ok command =>
        rw [Action.ask_bind_of_ok compiled]
        obtain ⟨answer, kept, fetched⟩ := quiet id command (childFetch view key) unit memory
        cases answer with
        | error fault =>
          exact ⟨_, unit, kept, Action.bind_of_error fetched _, .refl formed.2, fun _ same => nomatch same⟩
        | ok rows =>
          rw [Action.bind_of_ok fetched]
          obtain ⟨parent, child, parentIndex, childIndex, ends⟩ := proper
          obtain ⟨result, after, ran, attached, found⟩ :=
            admitAll_gathers mapped formed ends rows (.nil _ view.childTable childIndex key) kept
          cases result with
          | error fault =>
            exact ⟨_, after, kept, Action.bind_of_error ran _, attached, fun _ same => nomatch same⟩
          | ok members =>
            obtain ⟨later, collected, mirrors⟩ :=
              admitRows_mirrors mapped ⟨attached.model_eq.trans formed.1, attached.formed⟩ ends (found members rfl)
            refine ⟨.ok later, after, kept, ?_, attached, ?_⟩
            · rw [Action.bind_of_ok ran, Action.ask, collected]
            · intro chosen same
              cases same
              refine ⟨lives, mirrors.resolved attached.formed, ?_⟩
              intro _ _ _ index own ends' owned
              cases wanted.symm.trans owned
              cases ends.childKnown.symm.trans ends'.childKnown
              cases ends.childKey.symm.trans ends'.childKey
              exact mirrors

inductive Loading (model : Model) (unit : UnitOfWork) (id : ViewId) : Except Fault Unit → UnitOfWork → Prop
  | already {view : RelationView} (found : unit.views.get? id = some view)
      (loaded : view.state ≠ .unloaded) : Loading model unit id (.ok ()) unit
  | failed {after : UnitOfWork} (fault : Fault) (attached : after.Attached unit model)
      (unloaded : ∀ view, unit.views.get? id = some view → view.state = .unloaded) :
      Loading model unit id (.error fault) after
  | loaded {view : RelationView} {between : UnitOfWork} {members : List ObjectIdentity}
      (found : unit.views.get? id = some view) (unloaded : view.state = .unloaded)
      (attached : between.Attached unit model)
      (live : (unit.store.live.get? view.owner).isSome)
      (known : ∀ identity ∈ members, (between.store.resolve? identity).isSome)
      (mirrors : ∀ parent child parentIndex childIndex key,
        view.Ends model parent child parentIndex childIndex →
        unit.ownerKey view = .ok (some key) →
        Mirrors between.store view.childTable childIndex key between.Tracked members) :
      Loading model unit id (.ok ()) (between.completeLoad id view members)

theorem loadView_answered (mapped : (model.entities.map (·.table)).Nodup)
    (formed : unit.model = model ∧ unit.store.WellFormed model)
    (proper : ∀ id view, unit.views.get? id = some view → view.Proper model) (calls : Callbacks σ)
    (quiet : ∀ view command fetch, (calls.fetch view command fetch).Quiet) (id : ViewId)
    (memory : σ) :
    ∃ result after kept, loadView calls id unit memory = some ⟨result, after, kept⟩ ∧
      Loading model unit id result after := by
  unfold loadView
  cases found : unit.views.get? id with
  | none =>
    have unknown : unit.view id = .error .viewNotLoaded := by rw [UnitOfWork.view, found]
    exact ⟨_, unit, memory, Action.ask_bind_of_error unknown _,
      .failed _ (.refl formed.2) fun _ stood => nomatch found.symm.trans stood⟩
  | some view =>
    rw [Action.ask_bind_of_ok (view_eq_ok.mpr found)]
    cases state : view.state with
    | loaded =>
      exact ⟨.ok (), unit, memory, rfl, .already found (by simp [state])⟩
    | unloaded =>
      dsimp only
      obtain ⟨result, after, kept, ran, attached, complete⟩ :=
        queryMembers_plain mapped formed (proper id view found) calls quiet id memory
      cases result with
      | error fault =>
        refine ⟨_, after, kept, Action.bind_of_error ran _, .failed fault attached ?_⟩
        intro other stood
        cases found.symm.trans stood
        exact state
      | ok members =>
        have still : after.view id = .ok view := by
          rw [view_eq_ok, attached.same]
          exact found
        obtain ⟨live, known, mirrors⟩ := complete members rfl
        refine ⟨.ok (), after.completeLoad id view members, kept, ?_,
          .loaded found state attached live known mirrors⟩
        rw [Action.bind_of_ok ran, Action.ask_bind_of_ok still]
        rfl

theorem loadView_plain (wellMapped : model.WellMapped) (sound : unit.Sound model) (calls : Callbacks σ)
    (quiet : ∀ view command fetch, (calls.fetch view command fetch).Quiet) (id : ViewId)
    (memory : σ) :
    ∃ result after kept, loadView calls id unit memory = some ⟨result, after, kept⟩ ∧
      Loading model unit id result after :=
  loadView_answered wellMapped.mapped sound.formed sound.proper calls quiet id memory

end UnitOfWork

end RelationalMapper.Cache
