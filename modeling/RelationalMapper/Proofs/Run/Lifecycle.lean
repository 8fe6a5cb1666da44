import RelationalMapper.Proofs.Run.Turn

set_option autoImplicit false

open Relation (ReflTransGen)

namespace RelationalMapper.Cache

variable {σ α : Type}

namespace Standing

/-- How a row may stand at one point and at a later one. -/
structure OneWay (before after : Standing) : Prop where
  ahead : after = .ahead → before = .ahead
  fresh : ∀ record, after = .tracked record → record.state = .fresh →
    before = .ahead ∨ ∃ earlier, before = .tracked earlier ∧ earlier.state = .fresh
  -- With the record, the values of a row that is not live stay the same.
  ended : ∀ record, before = .tracked record → record.state.isLive = false →
    after = .tracked record ∨ after = .forgotten
  forgotten : before = .forgotten → after = .forgotten
  identity : ∀ earlier record, before = .tracked earlier → after = .tracked record →
    record.identity = earlier.identity

/-- How a row may stand before and after a single turn. -/
structure Lawful (moment : Moment) (before after : Standing) : Prop extends OneWay before after where
  entered : before = .ahead → ∀ record, after = .tracked record →
    moment.inserts = true ∧ record.state = .fresh ∨ moment.brought ≠ [] ∧ record.state = .unchanged
  modified : ∀ record, after = .tracked record → record.state = .modified →
    ∃ earlier, before = .tracked earlier ∧ (earlier.state = .unchanged ∨ earlier.state = .modified)

variable {model : Model} {moment : Moment} {before between after : Standing}

theorem OneWay.refl (standing : Standing) : standing.OneWay standing where
  ahead := id
  fresh record same new := .inr ⟨record, same, new⟩
  ended _ same _ := .inl same
  forgotten := id
  identity := by
    rintro earlier record rfl same
    cases same
    rfl

theorem OneWay.trans (first : before.OneWay between) (second : between.OneWay after) :
    before.OneWay after where
  ahead last := first.ahead (second.ahead last)
  fresh record same new := by
    rcases second.fresh record same new with none | ⟨earlier, held, old⟩
    · exact .inl (first.ahead none)
    · exact first.fresh earlier held old
  ended record same gone := by
    rcases first.ended record same gone with held | none
    · exact second.ended record held gone
    · exact .inr (second.forgotten none)
  forgotten none := second.forgotten (first.forgotten none)
  identity := by
    intro earlier record held same
    cases between with
    | ahead => simp [first.ahead rfl] at held
    | forgotten => simp [second.forgotten rfl] at same
    | tracked middle =>
      exact (second.identity middle record rfl same).trans (first.identity earlier middle held rfl)

-- No turn of a tracked row leads back to where it came in.
theorem Turns.lawful (turn : Turns model moment before after) : before.Lawful moment after := by
  cases turn with
  | inserted record inserts new _ =>
    refine ⟨⟨by simp, by simp, by simp, by simp, by simp⟩, ?_, ?_⟩
    · rintro - _ ⟨⟩
      exact .inl ⟨inserts, new⟩
    · rintro _ ⟨⟩ modified
      simp [new] at modified
  | attached record arriving unchanged _ =>
    refine ⟨⟨by simp, by simp, by simp, by simp, by simp⟩, ?_, ?_⟩
    · rintro - _ ⟨⟩
      refine .inr ⟨fun nothing => ?_, unchanged⟩
      simp [Moment.arriving, nothing] at arriving
    · rintro _ ⟨⟩ modified
      simp [unchanged] at modified
  | written record index value live =>
    refine ⟨⟨by simp, ?_, ?_, by simp, ?_⟩, by simp, ?_⟩
    · rintro _ ⟨⟩ new
      refine .inr ⟨record, rfl, ?_⟩
      cases state : record.state <;> simp_all [RowRecord.write]
    · rintro _ ⟨⟩ gone
      simp [live] at gone
    · rintro _ _ ⟨⟩ ⟨⟩
      rfl
    · rintro _ ⟨⟩ modified
      refine ⟨record, rfl, ?_⟩
      cases state : record.state <;> simp_all [RowRecord.write]
  | deleted record live =>
    refine ⟨⟨by simp, ?_, ?_, by simp, ?_⟩, by simp, ?_⟩
    · rintro _ ⟨⟩ new
      cases state : record.state <;> simp_all [RowRecord.deletedState]
    · rintro _ ⟨⟩ gone
      simp [live] at gone
    · rintro _ _ ⟨⟩ ⟨⟩
      rfl
    · rintro _ ⟨⟩ modified
      cases state : record.state <;> simp_all [RowRecord.deletedState]
  | settled record accepts live =>
    refine ⟨⟨by simp, ?_, ?_, by simp, ?_⟩, by simp, ?_⟩
    · rintro _ ⟨⟩ new
      cases state : record.state <;> simp_all [RowRecord.settled]
    · rintro _ ⟨⟩ gone
      simp [live] at gone
    · rintro _ _ ⟨⟩ ⟨⟩
      exact record.settled_revises.identity
    · rintro _ ⟨⟩ modified
      cases state : record.state <;> simp_all [RowRecord.settled]
  | forgotten record => exact ⟨⟨by simp, by simp, by simp, by simp, by simp⟩, by simp, by simp⟩

theorem OneWay.of_turns (turns : ReflTransGen (Lawful moment) before after) : before.OneWay after := by
  induction turns with
  | refl => exact .refl before
  | tail _ turn ih => exact ih.trans turn.toOneWay

end Standing

/-- From each point to the next, a row only takes turns that are lawful, and so it stands in the right
way at any later point; whatever listeners and row sources do in between. -/
theorem rows_live_one_way (model : Model) (settings : Settings) (environment : Environment σ)
    (depth : Nat) (program : Program σ α) (memory : σ) :
    ∃ outcome,
      program.traced.run (environment.traced depth) (.new model settings) ⟨memory, []⟩ =
        some outcome ∧
      (∀ ended, program.run (environment.callbacks depth) (.new model settings) memory =
        some ended → outcome.untraced = ended) ∧
      ∀ row,
        ((outcome.course (.new model settings)).IsChain fun before after =>
          ReflTransGen (Standing.Lawful before.moment) (before.standing row) (after.standing row)) ∧
        (outcome.course (.new model settings)).Pairwise fun before after =>
          (before.standing row).OneWay (after.standing row) := by
  obtain ⟨outcome, ran, same, hopped⟩ :=
    traced_hops model settings environment depth program memory
  refine ⟨outcome, ran, same, fun row => ?_⟩
  have chained : (outcome.course (.new model settings)).IsChain fun before after =>
      ReflTransGen (Standing.Lawful before.moment) (before.standing row) (after.standing row) :=
    hopped.imp fun before after hops => (hops.turns row).lift id fun _ _ turn => turn.lawful
  let later (before after : Point) : Prop := (before.standing row).OneWay (after.standing row)
  have transitive : Trans later later later := ⟨.trans⟩
  have oneWay : (outcome.course (.new model settings)).IsChain later :=
    chained.imp fun before after turns => .of_turns turns
  exact ⟨chained, oneWay.pairwise⟩

end RelationalMapper.Cache
