import RelationalMapper.Proofs.Run.Lifecycle
import RelationalMapper.Proofs.Schema.Validity
import RelationalMapper.Proofs.Sql.Version

set_option autoImplicit false

open Relation (ReflTransGen)

namespace RelationalMapper.Cache

variable {σ α : Type}

/-- What the store last had of a row at a point, from what it had at the point before. A row comes in
with the values that are brought; taking changes as stored takes in those of a new or a modified row. -/
def Point.stored (before after : Point) (row : RowId) (known : Option (List Value)) :
    Option (List Value) :=
  match before.standing row, after.standing row with
  | .ahead, .tracked record => before.moment.arriving before.unit.model record
  | .tracked record, _ =>
    if before.moment.accepts ∧ (record.state = .fresh ∨ record.state = .modified) then
      some record.current
    else known
  | _, _ => known

def lastStored (row : RowId) (known : Option (List Value)) : Point → List Point → Option (List Value)
  | _, [] => known
  | before, after :: rest => lastStored row (before.stored after row known) after rest

/-- The row has these original values, as long as it is tracked. -/
def Point.Recalls (point : Point) (row : RowId) (known : Option (List Value)) : Prop :=
  ∀ record, point.standing row = .tracked record → record.original = known

theorem Moment.accepts_eq_true {moment : Moment} (accepts : moment.accepts = true) :
    moment = .before .accept := by
  cases moment with
  | before operation =>
    cases operation with
    | accept => rfl
    | _ => cases accepts
  | _ => cases accepts

namespace Standing

variable {model : Model} {moment : Moment} {before after : Standing}

-- While no changes are accepted, a row keeps the original values it came in with.
theorem original_of_turns (turns : ReflTransGen (Turns model moment) before after)
    (still : moment.accepts = false) {record : RowRecord} (held : after = .tracked record) :
    (before = .ahead ∧ record.original = moment.arriving model record) ∨
      ∃ earlier, before = .tracked earlier ∧ record.original = earlier.original := by
  induction turns generalizing record with
  | refl => exact .inr ⟨record, held, rfl⟩
  | @tail between _ turns turn ih =>
    have lawful := OneWay.of_turns (turns.lift id fun _ _ turn => turn.lawful)
    cases turn with
    | inserted entered inserts _ none =>
      cases held
      refine .inl ⟨lawful.ahead rfl, none.trans ?_⟩
      unfold Moment.inserts at inserts
      split at inserts
      · rfl
      · cases inserts
    | attached entered arriving _ stored =>
      cases held
      exact .inl ⟨lawful.ahead rfl, stored.trans arriving.symm⟩
    | written earlier index value live =>
      cases held
      exact @ih earlier rfl
    | deleted earlier live =>
      cases held
      exact @ih earlier rfl
    | settled earlier accepts live =>
      rw [still] at accepts
      cases accepts
    | forgotten earlier => cases held

end Standing

namespace Point

variable {model : Model} {before after : Point} {row : RowId} {known : Option (List Value)}

theorem accept_of_hops (hops : before.Hops model after) (accepts : before.moment.accepts = true) :
    after.unit = before.unit.accept := by
  obtain ⟨result, -, performed⟩ := hops.performed .accept (Moment.accepts_eq_true accepts) rfl
  have ended : some (⟨.ok (), before.unit.accept, ()⟩ : Outcome Unit Unit) =
      some ⟨result, after.unit, ()⟩ := performed Callbacks.unanswered ()
  exact (congrArg Outcome.unit (Option.some.inj ended)).symm

-- The step lemma: both sides change only where a row comes in and where changes are accepted.
theorem Recalls.step (recalls : before.Recalls row known) (hops : before.Hops model after)
    (same : before.unit.model = model) : after.Recalls row (before.stored after row known) := by
  intro record held
  subst same
  cases accepts : before.moment.accepts with
  | true =>
    have stood := RowStore.standing_eq_tracked.mp held
    rw [accept_of_hops hops accepts] at stood
    obtain ⟨earlier, here, kept⟩ := Option.bind_eq_some_iff.mp
      ((RowStore.records_accept before.unit.store row).symm.trans stood)
    have tracked : before.standing row = .tracked earlier := RowStore.standing_eq_tracked.mpr here
    have recalled := recalls earlier tracked
    split at kept
    next live =>
      cases kept
      simp only [stored, tracked, accepts, true_and]
      cases state : earlier.state <;> simp_all [RowRecord.settled]
    next => cases kept
  | false =>
    rcases Standing.original_of_turns (hops.turns row) accepts held with
      ⟨ahead, original⟩ | ⟨earlier, tracked, original⟩
    · have entered : before.standing row = .ahead := ahead
      simp only [stored, entered, held]
      exact original
    · have stood : before.standing row = .tracked earlier := tracked
      simp only [stored, stood, accepts, Bool.false_eq_true, false_and, if_false]
      exact original.trans (recalls earlier stood)

-- The run lemma, along the points that follow on the first.
theorem Recalls.along {points : List Point} (recalls : before.Recalls row known)
    (same : before.unit.model = model) (hopped : (before :: points).IsChain (Hops model))
    {earlier later : List Point} {point : Point} (split : points = earlier ++ point :: later) :
    (point.unit.model = model ∧ point.unit.store.WellFormed model) ∧
      point.Recalls row (lastStored row known before (earlier ++ [point])) := by
  induction earlier generalizing before points known with
  | nil =>
    subst split
    obtain ⟨hops, -⟩ := List.isChain_cons_cons.mp hopped
    exact ⟨hops.led, recalls.step hops same⟩
  | cons next rest ih =>
    subst split
    obtain ⟨hops, hopped⟩ := List.isChain_cons_cons.mp hopped
    exact ih (recalls.step hops same) hops.led.1 hopped rfl

end Point

theorem filter_zip {keep : Column → Bool} {read : Column → Option Value} {columns : List Column}
    {values : List Value} (width : values.length = columns.length)
    (reads : ∀ (index : Nat) column, columns[index]? = some column → read column = values[index]?) :
    (columns.filter keep).map read = ((columns.zip values).filter (keep ·.1)).map (some ·.2) := by
  induction columns generalizing values with
  | nil => simp
  | cons column rest ih =>
    cases values with
    | nil => simp at width
    | cons value values =>
      have here : read column = some value := reads 0 column rfl
      have later := ih (Nat.succ.inj width) fun index other held => reads (index + 1) other held
      by_cases kept : keep column = true <;> simp [kept, here, later]

def columnValues (entity : Entity) (keep : Column → Bool) (values : List Value) : List Value :=
  ((entity.columns.zip values).filter (keep ·.1)).map (·.2)

namespace UnitOfWork

variable {unit : UnitOfWork} {row : RowId} {record : RowRecord} {entity : Entity}

theorem value_at (held : unit.store.records.get? row = some record)
    (known : unit.model.entity record.entity = .ok entity)
    (distinct : (entity.columns.map (·.name)).Nodup) {index : Nat} {column : Column}
    (placed : entity.columns[index]? = some column) (version : RowVersion) :
    unit.value row column.name version = .ok ((record.version version).getD index .null) :=
  value_eq_ok.mpr ⟨record, entity, index, held, known, Entity.columnIndex_of_getElem? distinct placed, rfl⟩

theorem values_of_reader {reader : RowReader} (held : unit.store.records.get? row = some record)
    (known : unit.model.entity record.entity = .ok entity)
    (distinct : (entity.columns.map (·.name)).Nodup) (read : unit.reader row = .ok reader)
    (version : RowVersion) (width : (record.version version).length = entity.columns.length)
    (keep : Column → Bool) :
    (entity.columns.filter keep).map (reader.value? ·.name version) =
      (columnValues entity keep (record.version version)).map some := by
  rw [columnValues, List.map_map]
  refine filter_zip width fun index column placed => ?_
  rw [UnitOfWork.reader, RowStore.record_eq_ok.mpr held] at read
  cases read
  change (unit.value row column.name version).toOption = _
  rw [value_at held known distinct placed]
  obtain ⟨within, -⟩ := List.getElem?_eq_some_iff.mp placed
  rw [← width] at within
  simp [Except.toOption, List.getD_eq_getElem?_getD, List.getElem?_eq_getElem within]

end UnitOfWork

/-- At every point of a run, the original values of a row are what the store last had of it, unless the
row was inserted and has not been accepted since. An update of the row then binds its current values
where it writes and these where it matches, and a delete these alone. -/
theorem original_is_last_stored (model : Model) (settings : Settings) (environment : Environment σ)
    (depth : Nat) (program : Program σ α) (memory : σ) :
    ∃ outcome,
      program.traced.run (environment.traced depth) (.new model settings) ⟨memory, []⟩ =
        some outcome ∧
      (∀ ended, program.run (environment.callbacks depth) (.new model settings) memory =
        some ended → outcome.untraced = ended) ∧
      ∀ earlier point later,
        outcome.course (.new model settings) =
          ⟨.outside, .new model settings⟩ :: (earlier ++ point :: later) →
        ∀ row record entity, point.unit.store.records.get? row = some record →
          model.entity record.entity = .ok entity → (entity.columns.map (·.name)).Nodup →
          let stored := lastStored row none ⟨.outside, .new model settings⟩ (earlier ++ [point])
          (stored = none ↔ record.state = .fresh ∨ record.state = .detached) ∧
          ∀ values, stored = some values →
            (∀ (index : Nat) column, entity.columns[index]? = some column →
              point.unit.value row column.name .original = .ok (values.getD index .null)) ∧
            (∀ command, (point.unit.reader row >>= point.unit.compiler.update) = .ok command →
              command.parameters.map (·.value) =
                columnValues entity (!·.generated) record.current ++
                  columnValues entity (·.locked) values) ∧
            (∀ command, (point.unit.reader row >>= point.unit.compiler.delete) = .ok command →
              command.parameters.map (·.value) = columnValues entity (·.locked) values) := by
  obtain ⟨outcome, ran, same, hopped⟩ :=
    traced_hops model settings environment depth program memory
  refine ⟨outcome, ran, same, ?_⟩
  intro earlier point later passed row record entity held known distinct stored
  have nothing : Point.Recalls ⟨.outside, .new model settings⟩ row none := by
    intro record tracked
    cases RowStore.standing_eq_tracked.mp tracked
  rw [passed] at hopped
  obtain ⟨⟨rfl, formed⟩, recalls⟩ := nothing.along rfl hopped rfl
  have original : record.original = stored := recalls record (RowStore.standing_eq_tracked.mpr held)
  obtain ⟨entity', known', fits⟩ := formed.fits row record held
  cases known.symm.trans known'
  rw [← original]
  refine ⟨fits.stored, fun values has => ?_⟩
  have version : record.version .original = values := by rw [RowRecord.version, has]; rfl
  have width : (record.version .original).length = entity.columns.length := by
    rw [version]
    exact (fits.original values has).width
  have read {reader : RowReader} (read : point.unit.reader row = .ok reader) :=
    UnitOfWork.values_of_reader held known distinct read
  have named {reader : RowReader} (read : point.unit.reader row = .ok reader) :
      point.unit.compiler.model.entity reader.entity = .ok entity := by
    rw [UnitOfWork.reader, RowStore.record_eq_ok.mpr held] at read
    cases read
    exact known
  have some_inj := List.map_injective_iff.mpr fun (_ _ : Value) => Option.some.inj
  refine ⟨fun index column placed => ?_, fun command compiled => ?_, fun command compiled => ?_⟩
  · rw [UnitOfWork.value_at held known distinct placed, version]
  · obtain ⟨reader, found, compiled⟩ := Except.bind_eq_ok.mp compiled
    apply some_inj
    rw [List.map_map, List.map_append, ← version, ← read found .original width]
    exact (Sql.values_of_update compiled (named found)).trans
      (congrArg (· ++ _) (read found .current fits.current.width _))
  · obtain ⟨reader, found, compiled⟩ := Except.bind_eq_ok.mp compiled
    apply some_inj
    rw [List.map_map, ← version, ← read found .original width]
    exact Sql.values_of_delete compiled (named found)

end RelationalMapper.Cache
