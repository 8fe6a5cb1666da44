import RelationalMapper.Proofs.Run.Abandon
import RelationalMapper.Proofs.Run.Guard
import RelationalMapper.Proofs.View.Lasting

set_option autoImplicit false

namespace RelationalMapper.Cache

variable {σ α : Type}

def RelationView.holds (view : RelationView) (id : SubscriptionId) : Bool :=
  match view.state with
  | .unloaded => false
  | .loaded _ changing deleting => id = changing || id = deleting

namespace UnitOfWork

variable {unit after : UnitOfWork} {model : Model}

/-- Ends a subscription that is a view's own. The view keeps their ids to itself. -/
def cutsOff (unit : UnitOfWork) : Operation → Bool
  | .unsubscribe id => unit.views.keys.any fun view => (unit.views.get? view).any (·.holds id)
  | _ => false

def InOrder (unit : UnitOfWork) (model : Model) : Prop :=
  ({ unit with store := .empty } : UnitOfWork).Sound model

theorem InOrder.sound (inOrder : unit.InOrder model) (formed : unit.store.WellFormed model) :
    unit.Sound model :=
  Sound.withStore inOrder formed

theorem Wired.subscribe (wired : unit.Wired) (channel : Channel) (table : String) (key : ListenerKey) :
    ({ unit with channels := (unit.channels.subscribe channel table (.listener key)).2 } :
      UnitOfWork).Wired where
  numbered := wired.numbered.subscribe channel table _
  held id wanted other := by
    simp only [Channels.heldBy_subscribe, reduceCtorEq, and_false, if_false]
    exact wired.held id wanted other
  opened := wired.opened

theorem Wired.unsubscribe (wired : unit.Wired) {id : SubscriptionId}
    (kept : unit.cutsOff (.unsubscribe id) = false) :
    ({ unit with channels := (unit.channels.unsubscribe id).2 } : UnitOfWork).Wired where
  numbered := wired.numbered.unsubscribe id
  held view channel table := by
    simp only [Channels.heldBy_unsubscribe, wired.held]
    cases found : unit.views.get? view with
    | none => rfl
    | some held =>
      have unheld : held.holds id = false := by
        simp only [cutsOff, List.any_eq_false] at kept
        simpa [found] using kept view (unit.views.mem_keys_of_get? _ _ found)
      rw [Option.elim_some, List.filter_eq_self]
      intro subscription member
      unfold RelationView.subscriptions at member
      unfold RelationView.holds at unheld
      split at unheld <;> grind
  opened := wired.opened

theorem invalidate_withStore (unit : UnitOfWork) (id : ViewId) (store : RowStore) :
    ({ unit with store } : UnitOfWork).invalidate id = { unit.invalidate id with store } := by
  unfold UnitOfWork.invalidate
  dsimp only
  split
  · rfl
  · split <;> rfl

structure Upheld (idle : Prop) (holds : UnitOfWork → Prop) : Prop where
  concluding : Concluding (fun operation => match operation with | .unsubscribe _ => false | _ => true)
    idle fun before after => holds before → holds after
  unsubscribe : ∀ {unit : UnitOfWork} {id}, unit.cutsOff (.unsubscribe id) = false → holds unit →
    holds { unit with channels := (unit.channels.unsubscribe id).2 }

theorem inOrder_upheld (wellMapped : model.WellMapped) : Upheld True (·.InOrder model) where
  unsubscribe kept inOrder :=
    ⟨inOrder.modelled, inOrder.rows, inOrder.proper, Wired.unsubscribe inOrder.wired kept⟩
  concluding :=
    { refl _ inOrder := inOrder
      trans first second inOrder := second (first inOrder)
      rows _ _ inOrder := inOrder
      insert led inOrder := Sound.withInserting (led (Sound.withInserting inOrder _)) _
      followChange {unit after id change} followed inOrder := by
        rw [followChange_told followed]
        exact Sound.tellViews inOrder (unit.afterChange_eq change) [.view id]
      followDeletion {unit after id deletion} followed inOrder := by
        rw [followDeletion_told followed]
        exact Sound.tellViews inOrder (unit.afterDeletion_eq deletion) [.view id]
      openView opened inOrder := by
        obtain ⟨_, _, _, mapped, named, parent, known, rfl, rfl⟩ := openView_eq_ok.mp opened
        exact Sound.openView wellMapped inOrder
          (openView_eq_ok.mpr ⟨_, _, _, mapped, named, parent, known, rfl, rfl⟩)
      completeLoad members stood unloaded inOrder :=
        Sound.completeLoad inOrder (view_eq_ok.mp stood) (unloaded trivial) members
      invalidate unit id inOrder := by
        have left := Sound.invalidate inOrder id
        rwa [invalidate_withStore] at left
      closeView unit id inOrder := by
        have left := Sound.closeView inOrder id
        unfold UnitOfWork.closeView at left
        rwa [invalidate_withStore] at left
      subscribe unit channel table key inOrder :=
        ⟨inOrder.modelled, inOrder.rows, inOrder.proper,
          Wired.subscribe inOrder.wired channel table key⟩
      unsubscribe _ _ impossible := by cases impossible }

end UnitOfWork

namespace UnitOfWork

variable {unit : UnitOfWork} {model : Model} {environment : Environment σ}

namespace Upheld

variable {idle : Prop} {holds : UnitOfWork → Prop}

theorem onward (holds : UnitOfWork → Prop) : Onward (fun _ => True) fun before after : UnitOfWork =>
    holds before → holds after where
  refl _ held := held
  trans first second held := second (first held)
  arrives _ _ := trivial

variable (upheld : Upheld idle holds)

include upheld

theorem perform {calls : Callbacks σ} (lead : calls.Lead idle fun before after => holds before → holds after)
    {operation : Operation} (kept : unit.cutsOff operation = false) :
    (perform calls operation).Leads (fun before after => holds before → holds after) unit := by
  cases operation with
  | unsubscribe id => exact .step (upheld.unsubscribe kept)
  | _ => exact leads_perform upheld.concluding lead _ rfl

theorem guarded (answering : idle → ∀ view command fetch,
      (environment.fetch view command fetch).Within fun _ => false)
    (depth : Nat) (amid : List Announcement) :
    (environment.guarded (fun _ => cutsOff) depth amid).Lead idle
      fun before after => holds before → holds after := by
  induction depth generalizing amid with
  | zero => constructor <;> intros <;> intro memory result after kept ran <;> cases ran
  | succ depth ih =>
    have replies {α : Type} {amid : List Announcement} {unit : UnitOfWork}
        (answers : Program σ (Except Fault α)) :
        (answers.runUnless (environment.guarded (fun _ => cutsOff) depth amid) cutsOff >>=
          Action.given).Leads (fun before after => holds before → holds after) unit := by
      intro memory result after kept ran
      obtain ⟨-, ran⟩ := Program.runUnless_given answers.answers_all ran
      refine (onward holds).runUnless (fun _ _ clear performed => ?_) answers.within_all trivial ran
      exact upheld.perform (ih amid) clear _ _ _ _ performed
    refine ⟨fun _ _ _ => replies _, fun _ _ _ => replies _, ?_⟩
    intro unit view command fetch memory result after kept ran
    refine ⟨replies _ _ _ _ _ ran, fun still => ?_⟩
    have plain := (environment.guarded_below (fun _ => cutsOff) (depth + 1) amid).fetch _ _ _ _ _ _ ran
    exact leads_reply (run_still (answering still view command fetch)) _ _ _ _ plain

theorem run (answering : idle → ∀ view command fetch,
      (environment.fetch view command fetch).Within fun _ => false)
    {depth : Nat} {program : Program σ α} {after : UnitOfWork} {memory kept : σ} {result : Except Fault α}
    (ran : program.runUnless (environment.guarded (fun _ => cutsOff) depth []) cutsOff unit memory =
      some ⟨result, after, kept⟩) : holds unit → holds after :=
  (onward holds).runUnless (fun _ _ clear performed =>
    upheld.perform (upheld.guarded answering depth []) clear _ _ _ _ performed) program.within_all trivial ran

end Upheld

/-- A unit of work at the end of some run, in which row sources only answer and no subscription of a
view is ended from outside. -/
def Orderly (unit : UnitOfWork) (model : Model) : Prop :=
  ∃ (σ α : Type) (environment : Environment σ) (depth : Nat) (program : Program σ α)
    (settings : Settings) (memory kept : σ) (result : Except Fault α),
    (∀ view command fetch, (environment.fetch view command fetch).Within fun _ => false) ∧
      program.runUnless (environment.guarded (fun _ => cutsOff) depth []) cutsOff (.new model settings)
        memory = some ⟨result, unit, kept⟩

theorem Orderly.ready (wellMapped : model.WellMapped) (orderly : unit.Orderly model) : unit.Ready model := by
  obtain ⟨σ, α, environment, depth, program, settings, memory, kept, result, answering, ran⟩ := orderly
  have plain := runUnless_below (environment.guarded_below _ depth []) _ program _ _ _ ran
  have fresh := (Plain.new model settings).sound
  have inOrder := (inOrder_upheld wellMapped).run (fun _ => answering) ran
  exact ⟨(inOrder (fresh.withStore (.empty model))).sound (Reachable.of_run plain).wellFormed.2,
    inserting_run plain⟩

end UnitOfWork

end RelationalMapper.Cache
