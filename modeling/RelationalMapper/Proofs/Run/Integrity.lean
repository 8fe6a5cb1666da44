import RelationalMapper.Proofs.Run.Step
import RelationalMapper.Proofs.Run.Watch

set_option autoImplicit false

namespace RelationalMapper.Cache

structure Evolving (model : Model) (good : RowStore → Prop) (leads : RowStore → RowStore → Prop) :
    Prop where
  refl : ∀ {store}, good store → leads store store
  trans : ∀ {first second third}, leads first second → leads second third → leads first third
  arrives : ∀ {store after}, leads store after → good after
  attach : ∀ {store name entity identity values}, good store → model.entity name = .ok entity →
    values.length = entity.columns.length → entity.identityOf values = .ok identity →
    store.resolve? identity = none →
    leads store (store.register
      ⟨entity.name, entity.table, identity, values, some values, .unchanged⟩).2
  begin : ∀ {store name entity identity values arranged}, good store →
    model.entity name = .ok entity → UnitOfWork.arrange entity values = .ok arranged →
    entity.identityOf arranged = .ok identity → store.live.get? identity = none →
    leads store (store.register (UnitOfWork.beginning entity identity arranged)).2
  write : ∀ {store between : RowStore} {row record entity column index}
    {later : RowRecord} (value : Value),
    good store → store.records.get? row = some record → record.state.isLive = true →
    model.entity record.entity = .ok entity → entity.columnIndex column = .ok index →
    (entity.columns[index]?).any (·.primaryKey) = false → leads store between →
    between.records.get? row = some later → later.state.isLive = true →
    leads between (between.write row index value)
  delete : ∀ {store between : RowStore} {row record later}, good store →
    store.records.get? row = some record → record.state.isLive = true → leads store between →
    between.records.get? row = some later → later.state.isLive = true →
    leads between (between.delete row later)
  forget : ∀ {store between : RowStore} {record}, good store →
    leads (store.register record).2 between → leads between (between.forget ⟨store.nextNumber⟩)
  accept : ∀ {store : RowStore}, good store → leads store store.accept

-- No other step touches the rows, so it does for whole runs.
theorem Evolving.leading {model : Model} {good : RowStore → Prop} {leads : RowStore → RowStore → Prop}
    (evolving : Evolving model good leads) :
    Leading (fun unit => unit.model = model ∧ good unit.store)
      (fun before after => after.model = model ∧ leads before.store after.store) where
  refl sound := ⟨sound.1, evolving.refl sound.2⟩
  trans first second := ⟨second.1, evolving.trans first.2 second.2⟩
  arrives led := ⟨led.1, evolving.arrives led.2⟩
  attach := by
    rintro unit after entity values row ⟨rfl, sound⟩ attached
    obtain ⟨entity, identity, known, width, own, ⟨-, rfl⟩ | ⟨free, -, rfl⟩⟩ :=
      UnitOfWork.attach_eq_ok.mp attached
    · exact ⟨rfl, evolving.refl sound⟩
    · exact ⟨rfl, evolving.attach sound known width own free⟩
  begin := by
    rintro unit after entity values row ⟨table, pending⟩ ⟨rfl, sound⟩ begun
    obtain ⟨entity, arranged, identity, known, placed, own, free, -, -, -, rfl⟩ :=
      UnitOfWork.beginInsert_eq_ok.mp begun
    exact ⟨rfl, evolving.begin sound known placed own free⟩
  inserting _ sound := ⟨sound.1, evolving.refl sound.2⟩
  write := by
    rintro unit between after row column value change index ⟨rfl, sound⟩ found ⟨same, led⟩ applied
    obtain ⟨record, entity, held, live, known, placed, outside, -⟩ :=
      UnitOfWork.changeOf_eq_ok.mp found
    obtain ⟨⟨later, holds, lives⟩, rfl⟩ := UnitOfWork.applyChange_eq_ok.mp applied
    exact ⟨same, evolving.write value sound held live known placed outside led holds lives⟩
  delete := by
    rintro unit between after row deletion ⟨rfl, sound⟩ found ⟨same, led⟩ applied
    obtain ⟨record, held, live, -⟩ := UnitOfWork.deletionOf_eq_ok.mp found
    obtain ⟨later, holds, rfl⟩ := UnitOfWork.applyDeletion_eq_ok.mp applied
    split
    · exact ⟨same, evolving.delete sound held live led holds ‹_›⟩
    · exact ⟨same, evolving.refl (evolving.arrives led)⟩
  forget := by
    rintro unit between after entity values row ⟨table, pending⟩ ⟨rfl, sound⟩ begun ⟨same, led⟩
    obtain ⟨entity, arranged, identity, -, -, -, -, rfl, -, -, rfl⟩ :=
      UnitOfWork.beginInsert_eq_ok.mp begun
    exact ⟨same, evolving.forget sound led⟩
  accept sound := ⟨sound.1, evolving.accept sound.2⟩
  followChange := by
    intro unit after id change sound followed
    obtain ⟨views, rfl⟩ := UnitOfWork.followChange_eq_ok followed
    exact ⟨sound.1, evolving.refl sound.2⟩
  followDeletion := by
    intro unit after id deletion sound followed
    obtain ⟨views, rfl⟩ := UnitOfWork.followDeletion_eq_ok followed
    exact ⟨sound.1, evolving.refl sound.2⟩
  openView := by
    intro unit after owner relation id sound opened
    obtain ⟨-, -, -, -, -, -, -, -, rfl⟩ := UnitOfWork.openView_eq_ok.mp opened
    exact ⟨sound.1, evolving.refl sound.2⟩
  completeLoad _ sound _ := ⟨sound.1, evolving.refl sound.2⟩
  invalidate id sound := by
    rw [UnitOfWork.store_invalidate, UnitOfWork.model_invalidate]
    exact ⟨sound.1, evolving.refl sound.2⟩
  closeView id sound := by
    rw [UnitOfWork.store_closeView, UnitOfWork.model_closeView]
    exact ⟨sound.1, evolving.refl sound.2⟩
  subscribe _ _ _ sound := ⟨sound.1, evolving.refl sound.2⟩
  unsubscribe _ sound := ⟨sound.1, evolving.refl sound.2⟩

namespace UnitOfWork

theorem arrange_induction {entity : Entity} {motive : List (String × Value) → List Value → Prop}
    (blank : motive [] (List.replicate entity.columns.length .null))
    (more : ∀ values arranged name value index, motive values arranged →
      entity.columnIndex name = .ok index → motive (values ++ [(name, value)]) (arranged.set index value))
    {values : List (String × Value)} {arranged : List Value}
    (placed : arrange entity values = .ok arranged) : motive values arranged := by
  have folded (rest done : List (String × Value)) (start : List Value) (held : motive done start)
      (placed : rest.foldlM (fun arranged entry =>
        return arranged.set (← entity.columnIndex entry.1) entry.2) start =
          (.ok arranged : Except Fault _)) :
      motive (done ++ rest) arranged := by
    induction rest generalizing done start with
    | nil =>
      cases placed
      rwa [List.append_nil]
    | cons entry rest ih =>
      rw [List.foldlM_cons] at placed
      obtain ⟨next, one, placed⟩ := Except.bind_eq_ok.mp placed
      obtain ⟨index, here, same⟩ := Except.bind_eq_ok.mp one
      cases same
      rw [← List.singleton_append, ← List.append_assoc]
      exact ih _ _ (more done start entry.1 entry.2 index held here) placed
  exact folded values [] _ blank placed

theorem length_arrange {entity : Entity} {values : List (String × Value)} {arranged : List Value}
    (placed : arrange entity values = .ok arranged) : arranged.length = entity.columns.length := by
  refine arrange_induction (motive := fun _ arranged => arranged.length = entity.columns.length)
    List.length_replicate ?_ placed
  intro _ arranged _ value index width _
  rw [List.length_set, width]

-- A value is only ever put where its column is found by name.
theorem columnIndex_of_arrange {entity : Entity} {values : List (String × Value)}
    {arranged : List Value} (placed : arrange entity values = .ok arranged) {index : Nat}
    {value : Value} (held : arranged[index]? = some value) (present : value ≠ .null) :
    ∃ name, entity.columnIndex name = .ok index := by
  refine arrange_induction (motive := fun _ arranged => ∀ index value, arranged[index]? = some value →
    value ≠ .null → ∃ name, entity.columnIndex name = .ok index) ?_ ?_ placed index value held present
  · intro index value held present
    have member := List.mem_of_getElem? held
    exact absurd (List.eq_of_mem_replicate member) present
  · intro _ arranged name value place found here index value' held present
    by_cases same : place = index
    · exact ⟨name, same ▸ here⟩
    · rw [List.getElem?_set_ne same] at held
      exact found index value' held present

theorem keyOf_keyValues (entity : Entity) (values : List Value) :
    entity.keyOf (keyValues entity values) = entity.keyOf values := by
  obtain ⟨name, table, columns, relations⟩ := entity
  simp only [Entity.keyOf, keyValues]
  induction columns generalizing values with
  | nil => rfl
  | cons column rest ih =>
    cases values with
    | nil => rfl
    | cons value values => by_cases key : column.primaryKey <;> simp [key, ih]

theorem beginning_fits {entity : Entity} {identity : ObjectIdentity} {arranged : List Value}
    (width : arranged.length = entity.columns.length)
    (own : entity.identityOf arranged = .ok identity) :
    (beginning entity identity arranged).Fits entity := by
  have stores := Entity.identityOf_eq_ok own width
  refine ⟨rfl, ⟨by simp [beginning, keyValues, width], stores.table, ?_, stores.keyed,
    stores.present⟩, by simp [beginning], by simp [beginning], by simp [beginning]⟩
  exact (keyOf_keyValues entity arranged).trans stores.key

end UnitOfWork

theorem wellFormed_evolving (model : Model) :
    Evolving model (·.WellFormed model)
      (fun before after => after.WellFormed model ∧ after.Succeeds before) where
  refl formed := ⟨formed, .refl _⟩
  trans first second := ⟨second.1, second.2.trans first.2⟩
  arrives led := led.1
  attach formed known width own free := by
    have stores := Entity.identityOf_eq_ok own width
    refine ⟨formed.register (Model.entity_self known) ?_ rfl ?_, .register _ _⟩
    · refine ⟨rfl, stores, ?_, by simp, fun _ => rfl⟩
      intro values same
      cases same
      exact stores
    · exact (Option.or_eq_none_iff.mp free).1
  begin formed known placed own free := by
    have fits := UnitOfWork.beginning_fits (UnitOfWork.length_arrange placed) own
    exact ⟨formed.register (Model.entity_self known) fits rfl free, .register _ _⟩
  write value formed held _ known _ outside led holds lives := by
    obtain ⟨formed', succeeds⟩ := led
    -- The row is still the same one, of the same entity.
    obtain ⟨older, stood, entity, -, -⟩ := succeeds.origin _ _ holds (formed.numbered _ _ held)
    cases held.symm.trans stood
    exact ⟨formed'.write holds (entity ▸ known) lives outside, .write ..⟩
  delete _ _ _ led holds lives := ⟨led.1.delete holds lives, .delete _ holds⟩
  forget _ led := ⟨led.1.forget _, .forget ..⟩
  accept formed := ⟨formed.accept, .accept _⟩

/-- Calls that nest deeper than `depth` are refused in the watched run, so that it always ends; a
plain run that ends without them has passed the same points. -/
theorem wellFormed_throughout {σ α : Type} (model : Model) (settings : Settings)
    (environment : Environment σ) (depth : Nat) (program : Program σ α) (memory : σ) :
    ∃ outcome,
      program.watched.run (environment.watched depth) (.new model settings) ⟨memory, []⟩ =
        some outcome ∧
      (∀ ended, program.run (environment.callbacks depth) (.new model settings) memory =
        some ended → outcome.unwatched = ended) ∧
      ∀ point ∈ outcome.memory.passed ++ [outcome.unit],
        point.model = model ∧ point.store.WellFormed model :=
  environment.throughout (wellFormed_evolving model).leading depth program
    ⟨rfl, RowStore.WellFormed.empty model⟩ memory

/-- A unit of work that some run passes, whatever its listeners and row sources do. -/
def UnitOfWork.Reachable (unit : UnitOfWork) (model : Model) : Prop :=
  ∃ (σ α : Type) (environment : Environment σ) (depth : Nat) (program : Program σ α)
    (settings : Settings) (memory : σ) (outcome : Outcome (Watch σ) α),
    program.watched.run (environment.watched depth) (.new model settings) ⟨memory, []⟩ =
        some outcome ∧
      unit ∈ outcome.memory.passed ++ [outcome.unit]

namespace UnitOfWork

theorem new_wellFormed (model : Model) (settings : Settings) :
    (new model settings).model = model ∧ (new model settings).store.WellFormed model :=
  ⟨rfl, .empty model⟩

theorem Reachable.good {unit : UnitOfWork} {model : Model} (reachable : unit.Reachable model)
    {good : UnitOfWork → Prop} {leads : UnitOfWork → UnitOfWork → Prop} (leading : Leading good leads)
    (fresh : ∀ settings, good (new model settings)) : good unit := by
  obtain ⟨σ, α, environment, depth, program, settings, memory, outcome, ran, passed⟩ := reachable
  obtain ⟨ended, finished, -, throughout⟩ :=
    environment.throughout leading depth program (fresh settings) memory
  cases ran.symm.trans finished
  exact throughout unit passed

theorem Reachable.wellFormed {unit : UnitOfWork} {model : Model} (reachable : unit.Reachable model) :
    unit.model = model ∧ unit.store.WellFormed model :=
  reachable.good (wellFormed_evolving model).leading (new_wellFormed model)

theorem Reachable.of_run {σ α : Type} {model : Model} {environment : Environment σ} {depth : Nat}
    {program : Program σ α} {settings : Settings} {memory : σ} {ended : Outcome σ α}
    (ran : program.run (environment.callbacks depth) (.new model settings) memory = some ended) :
    ended.unit.Reachable model := by
  obtain ⟨outcome, finished, same, -⟩ := environment.throughout (wellFormed_evolving model).leading
    depth program (new_wellFormed model settings) memory
  rw [← same ended ran]
  exact ⟨σ, α, environment, depth, program, settings, memory, outcome, finished,
    List.mem_append_right _ (List.mem_singleton.mpr rfl)⟩

end UnitOfWork

end RelationalMapper.Cache
