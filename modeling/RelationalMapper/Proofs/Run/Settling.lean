import RelationalMapper.Proofs.Run.Abandon
import RelationalMapper.Proofs.Store.Settling

set_option autoImplicit false

namespace RelationalMapper.Cache

theorem keyed_evolving (model : Model) : Evolving model (·.Keyed) (fun _ after => after.Keyed) where
  refl keyed := keyed
  trans _ second := second
  arrives led := led
  attach keyed _ _ _ _ := keyed.register _
  begin keyed _ _ _ _ := keyed.register _
  write value _ _ _ _ _ _ led _ _ := led.write _ _ value
  delete _ _ _ led _ _ := led.delete _ _
  forget _ led := led.forget _
  accept keyed := keyed.acceptInOrder _

namespace UnitOfWork

variable {unit : UnitOfWork} {model : Model}

theorem Reachable.keyed (reachable : unit.Reachable model) : unit.store.Keyed :=
  (reachable.good (keyed_evolving model).leading fun _ => ⟨rfl, .empty⟩).2

def acceptInOrder (unit : UnitOfWork) (order : List RowId) : UnitOfWork :=
  { unit with store := unit.store.acceptInOrder order }

/-- Every change has been taken as stored, and nothing else has changed. -/
structure Settled (after before : UnitOfWork) : Prop where
  kept : ∀ row record, before.store.records.get? row = some record → record.state.isLive = true →
    after.store.records.get? row =
      some { record with original := some record.current, state := .unchanged }
  forgotten : ∀ row, (before.store.state row).isLive = false → after.store.Lacks row
  tombstones : after.store.tombstones = .empty
  live : after.store.live = before.store.live
  rows : ∀ table,
    after.store.rows table = (before.store.rows table).filter fun row => (before.store.state row).isLive
  others : after = { before with store := after.store }

theorem settled_accept (reachable : unit.Reachable model) : unit.accept.Settled unit := by
  obtain ⟨-, formed⟩ := reachable.wellFormed
  have settled : unit.accept.store.Settled unit.store := formed.settled reachable.keyed.iterates
  refine ⟨fun row record held live => ?_, fun row gone => ?_, settled.tombstones, settled.live,
    settled.rows, rfl⟩
  · rw [settled.records, held, Option.bind_some, if_pos live]
    rfl
  · refine formed.accept.lacks ?_
    change unit.accept.store.records.get? row = none
    rw [settled.records]
    cases held : unit.store.records.get? row with
    | none => rfl
    | some record =>
      rw [RowStore.state, held] at gone
      exact if_neg (Bool.eq_false_iff.mp gone)

end UnitOfWork

/-- Wherever a run has come to, changes are taken as stored with one outcome, whatever the order in which
the rows are gone through: live rows stay with their current values as the stored ones, all others are
forgotten, and to do so again changes nothing. -/
theorem accept_settles {unit : UnitOfWork} {model : Model} (reachable : unit.Reachable model)
    {order : List RowId} (iterates : unit.store.Iterates order) :
    unit.acceptInOrder order = unit.accept ∧
      (∀ {σ : Type} (calls : Callbacks σ) (memory : σ),
        perform calls .accept unit memory = some ⟨.ok (), unit.accept, memory⟩) ∧
      unit.accept.Settled unit ∧
      ∀ again, unit.accept.store.Iterates again → unit.accept.acceptInOrder again = unit.accept := by
  obtain ⟨-, formed⟩ := reachable.wellFormed
  have keyed := reachable.keyed
  refine ⟨?_, fun _ _ => rfl, UnitOfWork.settled_accept reachable, fun again iterates => ?_⟩
  · exact congrArg (fun store => { unit with store }) (formed.accept_eq keyed iterates)
  · exact congrArg (fun store => { unit with store }) (formed.accept_twice keyed iterates)

-- A line that is never stored but inserted again, and one that is stored and deleted.
def movingLines : Program Unit Unit :=
  .perform (.insert "Line" [("id", .integer 8)]) fun _ =>
  .perform (.delete ⟨0⟩) fun _ =>
  .perform (.insert "Line" [("id", .integer 8)]) fun _ =>
  .perform (.attach "Line" [.integer 7, .integer 1]) fun _ =>
  .perform (.delete ⟨2⟩) fun _ =>
  .done ()

theorem moving_lines_settled : ∃ unit : UnitOfWork, unit.Reachable orders ∧
    unit.store.rows "lines" = [⟨1⟩, ⟨2⟩] ∧
    unit.store.tombstones.get? ⟨"lines", [.integer 8]⟩ = some ⟨0⟩ ∧
    unit.store.live.get? ⟨"lines", [.integer 8]⟩ = some ⟨1⟩ ∧
    unit.store.tombstones.get? ⟨"lines", [.integer 7]⟩ = some ⟨2⟩ ∧
    unit.store.Iterates [⟨2⟩, ⟨1⟩, ⟨0⟩] ∧ unit.acceptInOrder [⟨2⟩, ⟨1⟩, ⟨0⟩] = unit.accept ∧
    unit.accept.Settled unit ∧ unit.accept.store.rows "lines" = [⟨1⟩] := by
  have ran : movingLines.run ((answering (.ok ())).callbacks 1) (.new orders .standard) () =
      some ⟨_, _, _⟩ :=
    (Program.run_of_performed rfl).trans <| (Program.run_of_performed rfl).trans <|
      (Program.run_of_performed rfl).trans <| (Program.run_of_performed rfl).trans <|
      (Program.run_of_performed rfl).trans rfl
  obtain ⟨unit, reachable, listed, buried, live, lost, keys, left⟩ :
      ∃ unit : UnitOfWork, unit.Reachable orders ∧ unit.store.rows "lines" = [⟨1⟩, ⟨2⟩] ∧
        unit.store.tombstones.get? ⟨"lines", [.integer 8]⟩ = some ⟨0⟩ ∧
        unit.store.live.get? ⟨"lines", [.integer 8]⟩ = some ⟨1⟩ ∧
        unit.store.tombstones.get? ⟨"lines", [.integer 7]⟩ = some ⟨2⟩ ∧
        unit.store.records.keys = [⟨0⟩, ⟨1⟩, ⟨2⟩] ∧
        (unit.store.rows "lines").filter (fun row => (unit.store.state row).isLive) = [⟨1⟩] :=
    ⟨_, .of_run ran, rfl, rfl, rfl, rfl, rfl, rfl⟩
  have iterates : unit.store.Iterates [⟨2⟩, ⟨1⟩, ⟨0⟩] := by
    obtain ⟨once, tracked⟩ := reachable.keyed.iterates
    rw [keys] at once tracked
    exact ⟨List.nodup_reverse.mpr once, fun row => List.mem_reverse.trans (tracked row)⟩
  obtain ⟨same, -, settled, -⟩ := accept_settles reachable iterates
  exact ⟨unit, reachable, listed, buried, live, lost, iterates, same, settled,
    (settled.rows "lines").trans left⟩

end RelationalMapper.Cache
