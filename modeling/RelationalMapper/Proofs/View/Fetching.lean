import RelationalMapper.Proofs.Run.Abandon
import RelationalMapper.Proofs.View.Progress

set_option autoImplicit false

namespace RelationalMapper.Cache

variable {σ : Type}

inductive Queried (calls : Callbacks σ) (id : ViewId) (view : RelationView) (unit : UnitOfWork)
    (memory : σ) : List ObjectIdentity → UnitOfWork → σ → Prop
  | keyless (wanted : unit.wantedKey view = .ok none) : Queried calls id view unit memory [] unit memory
  | asked {key : Value} {command : Sql.Command} {rows : List (List Value)} {between after : UnitOfWork}
      {halfway kept : σ} {gathered members : List ObjectIdentity}
      (wanted : unit.wantedKey view = .ok (some key))
      (fetched : calls.fetch id command (UnitOfWork.childFetch view key) unit memory =
        some ⟨.ok rows, between, halfway⟩)
      (admitted : admitAll view key rows [] between halfway = some ⟨.ok gathered, after, kept⟩)
      (collected : (after.store.rows view.childTable).foldlM (after.admitRow view key) gathered =
        .ok members) : Queried calls id view unit memory members after kept

section

variable {calls : Callbacks σ} {id : ViewId} {view : RelationView} {unit after : UnitOfWork}
  {memory kept : σ} {members : List ObjectIdentity}

theorem queried_of_queryMembers
    (ran : queryMembers calls id view unit memory = some ⟨.ok members, after, kept⟩) :
    Queried calls id view unit memory members after kept := by
  obtain ⟨_, -, same⟩ | ⟨wish, wanted, ran⟩ := Action.ask_bind_eq_some ran
  · cases same
  cases wish with
  | none =>
    cases ran
    exact .keyless wanted
  | some key =>
    obtain ⟨_, -, same⟩ | ⟨command, -, ran⟩ := Action.ask_bind_eq_some ran
    · cases same
    rcases Action.bind_eq_some.mp ran with ⟨rows, between, halfway, fetched, ran⟩ | ⟨_, _, _, -, same⟩
    · rcases Action.bind_eq_some.mp ran with ⟨gathered, last, _, admitted, ran⟩ | ⟨_, _, _, -, same⟩
      · cases collected : (last.store.rows view.childTable).foldlM (last.admitRow view key) gathered with
        | error fault => simp [Action.ask, collected] at ran
        | ok found =>
          simp only [Action.ask, collected, Option.some.injEq, Outcome.mk.injEq, Except.ok.injEq] at ran
          obtain ⟨rfl, rfl, rfl⟩ := ran
          exact .asked wanted fetched admitted collected
      · cases same
    · cases same

theorem loadView_eq_ok (ran : loadView calls id unit memory = some ⟨.ok (), after, kept⟩)
    (found : unit.views.get? id = some view) (unloaded : view.state = .unloaded) :
    ∃ members between later,
      queryMembers calls id view unit memory = some ⟨.ok members, between, kept⟩ ∧
        between.views.get? id = some later ∧ after = between.completeLoad id later members := by
  obtain ⟨_, -, same⟩ | ⟨_, stood, ran⟩ := Action.ask_bind_eq_some ran
  · cases same
  cases found.symm.trans (UnitOfWork.view_eq_ok.mp stood)
  rw [unloaded] at ran
  rcases Action.bind_eq_some.mp ran with ⟨members, between, _, queried, ran⟩ | ⟨_, _, _, -, same⟩
  · obtain ⟨_, -, same⟩ | ⟨later, there, ran⟩ := Action.ask_bind_eq_some ran
    · cases same
    · cases ran
      exact ⟨members, between, later, queried, UnitOfWork.view_eq_ok.mp there, rfl⟩
  · cases same

end

namespace Queried

variable {environment : Environment σ} {depth : Nat} {id : ViewId} {view : RelationView}
  {unit after : UnitOfWork} {memory kept : σ} {members : List ObjectIdentity} {model : Model}
  {parent child : Entity} {parentIndex index : Nat}

-- Rows are taken in by the foreign keys that they have at the end.
theorem gathers (queried : Queried (environment.callbacks depth) id view unit memory members after kept)
    (mapped : (model.entities.map (·.table)).Nodup)
    (formed : unit.model = model ∧ unit.store.WellFormed model)
    (ends : view.Ends model parent child parentIndex index) :
    members.Nodup ∧ ∀ identity ∈ members, ∃ key row, unit.ownerKey view = .ok (some key) ∧
      after.store.IsChild view.childTable index key row identity := by
  cases queried with
  | keyless wanted => exact ⟨List.nodup_nil, fun _ member => nomatch member⟩
  | @asked key command rows between after halfway kept gathered members wanted fetched admitted collected =>
    obtain ⟨modelled, led⟩ := (wellFormed_evolving model).leading.fetched formed fetched
    obtain ⟨result, last, ran, attached, found⟩ := UnitOfWork.admitAll_gathers mapped ⟨modelled, led.1⟩ ends
      rows (.nil _ view.childTable index key) halfway
    cases admitted.symm.trans ran
    have tracked : ∀ row ∈ after.store.rows view.childTable, ∃ record,
        after.store.records.get? row = some record ∧ record.table = view.childTable := by
      intro row member
      obtain ⟨record, held, table, -⟩ := (attached.formed.listed view.childTable row).mp member
      exact ⟨record, held, table⟩
    obtain ⟨later, ran, gathered, -⟩ := UnitOfWork.admitRows_gathers mapped
      ⟨attached.model_eq.trans modelled, attached.formed⟩ ends _ tracked (found _ rfl)
    cases collected.symm.trans ran
    refine ⟨gathered.nodup, fun identity member => ?_⟩
    obtain ⟨row, child⟩ := gathered.children identity member
    exact ⟨key, row, (UnitOfWork.wantedKey_eq_ok.mp wanted).2, child⟩

end Queried

namespace UnitOfWork

structure Retains (before after : UnitOfWork) : Prop where
  numbers : before.nextView ≤ after.nextView
  views : ∀ (id : ViewId) later, id.number < before.nextView → after.views.get? id = some later →
    ∃ view, before.views.get? id = some view ∧ later.Alike view

namespace Retains

variable {before unit after : UnitOfWork}

theorem trans (first : Retains before unit) (second : Retains unit after) : Retains before after where
  numbers := Nat.le_trans first.numbers second.numbers
  views id last early found := by
    obtain ⟨later, stood, alike⟩ := second.views id last (Nat.lt_of_lt_of_le early first.numbers) found
    obtain ⟨view, stood, alike'⟩ := first.views id later early stood
    exact ⟨view, stood, alike.trans alike'⟩

theorem of_views (nextView : after.nextView = unit.nextView) (views : after.views = unit.views) :
    Retains unit after where
  numbers := Nat.le_of_eq nextView.symm
  views _ later _ found := ⟨later, views ▸ found, .refl later⟩

theorem of_alike (nextView : after.nextView = unit.nextView) (alike : after.ViewsAlike unit) :
    Retains unit after where
  numbers := Nat.le_of_eq nextView.symm
  views id later _ found := alike id later found

end Retains

theorem retains_concluding : Concluding (fun _ => true) False Retains where
  refl unit := .of_views rfl rfl
  trans first second := first.trans second
  rows _ _ := .of_views rfl rfl
  insert led := ⟨led.numbers, led.views⟩
  followChange {unit after id change} followed := by
    rw [followChange_told followed]
    exact .of_alike rfl (.tellViews (unit.afterChange_eq change) [.view id] unit)
  followDeletion {unit after id deletion} followed := by
    rw [followDeletion_told followed]
    exact .of_alike rfl (.tellViews (unit.afterDeletion_eq deletion) [.view id] unit)
  openView opened := by
    obtain ⟨_, _, _, -, -, -, -, rfl, rfl⟩ := openView_eq_ok.mp opened
    refine ⟨Nat.le_succ _, fun id later early found => ?_⟩
    rw [Assoc.get?_insert, if_neg] at found
    · exact ⟨later, found, .refl later⟩
    · rintro rfl
      exact Nat.lt_irrefl _ early
  completeLoad members stood _ := .of_alike rfl (.completeLoad (view_eq_ok.mp stood) members)
  invalidate unit id := .of_alike (unit.nextView_invalidate id) (.invalidate unit id)
  closeView unit id := .of_alike (unit.nextView_invalidate id) (.closeView unit id)
  subscribe _ _ _ _ := .of_views rfl rfl
  unsubscribe _ _ _ := .of_views rfl rfl

end UnitOfWork

end RelationalMapper.Cache
