import Mathlib.Data.List.TakeWhile
import RelationalMapper.Proofs.View.Placing

set_option autoImplicit false

namespace RelationalMapper.Cache

variable {σ : Type}

namespace UnitOfWork

variable {unit after : UnitOfWork} {model : Model} {calls : Callbacks σ} {id : ViewId}
  {view : RelationView} {members : List ObjectIdentity} {row : RowId} {record : RowRecord}
  {identity : ObjectIdentity} {key : Value} {column : String} {value : Value} {change : ColumnChange}
  {place : Nat} {fault : Fault} {memory kept : σ}

def refusedBy? (unit : UnitOfWork) (change : ColumnChange) : Subscriber → Option Fault
  | .listener _ => none
  | .view id => (unit.views.get? id).bind fun view =>
      if change.column = view.relation.childKey then
        match unit.ownerKey view with
        | .error fault => some fault
        | .ok _ => none
      else none

def refusal? (unit : UnitOfWork) (change : ColumnChange) : Option Fault :=
  (unit.channels.subscribers .columnChanging change.table).findSome? (unit.refusedBy? change)

def toldBeforeRefusal (unit : UnitOfWork) (change : ColumnChange) : List Subscriber :=
  (unit.channels.subscribers .columnChanging change.table).takeWhile
    fun subscriber => (unit.refusedBy? change subscriber).isNone

theorem membersAfterChange_eq_error (held : unit.store.records.get? change.row = some record) :
    unit.membersAfterChange view change = .error fault ↔
      change.column = view.relation.childKey ∧ unit.ownerKey view = .error fault := by
  have own : unit.identityOf change.row = .ok record.identity :=
    identityOf_eq_ok.mpr ⟨record, held, rfl⟩
  unfold membersAfterChange
  by_cases foreign : change.column = view.relation.childKey
  · cases owner : unit.ownerKey view with
    | error unread => simp [foreign, Bind.bind, Except.bind]
    | ok found =>
      cases found with
      | none => simp [foreign, Bind.bind, Except.bind, Pure.pure, Except.pure]
      | some key =>
        rw [isSelfReference_eq held, own]
        by_cases selfish : unit.SelfReferring change record.identity
        · simp [foreign, selfish, Bind.bind, Except.bind, Pure.pure, Except.pure]
        · cases view.members? <;> by_cases joins : change.proposed = key <;>
            by_cases leaves : change.current = key <;>
            simp [foreign, selfish, joins, leaves, Bind.bind, Except.bind, Pure.pure, Except.pure]
  · simp [foreign, Pure.pure, Except.pure]

theorem followChange_eq (held : unit.store.records.get? change.row = some record) (id : ViewId) :
    unit.followChange id change = (unit.refusedBy? change (.view id)).elim
      (.ok (unit.toldOfChange change [.view id])) .error := by
  cases found : unit.views.get? id with
  | none =>
    have followed : unit.followChange id change = .ok unit := by
      rw [followChange, found]
      rfl
    rw [refusedBy?, found, followed, ← followChange_told followed]
    rfl
  | some view =>
    cases told : unit.membersAfterChange view change with
    | error fault =>
      obtain ⟨foreign, unread⟩ := (membersAfterChange_eq_error held).mp told
      simp [followChange, refusedBy?, found, told, foreign, unread, Except.map]
    | ok others =>
      have followed : unit.followChange id change = .ok (unit.setMembers id others) := by
        rw [followChange, found]
        exact congrArg (Except.map _) told
      have unrefused : unit.refusedBy? change (.view id) = none := by
        rw [refusedBy?, found, Option.bind_some]
        split
        next foreign =>
          cases owner : unit.ownerKey view with
          | ok key => rfl
          | error fault => cases told.symm.trans ((membersAfterChange_eq_error held).mpr ⟨foreign, owner⟩)
        next => rfl
      rw [unrefused, followed, followChange_told followed]
      rfl

theorem toldOfChange_toldOfChange (first second : List Subscriber) :
    (unit.toldOfChange change first).toldOfChange change second =
      unit.toldOfChange change (first ++ second) := by
  simp only [toldOfChange, tellViews_append]
  rfl

-- Whether a view refuses does not depend on what it has been told before.
theorem refusedBy?_toldOfChange (heard : List Subscriber) :
    (unit.toldOfChange change heard).refusedBy? change = unit.refusedBy? change := by
  funext subscriber
  cases subscriber with
  | listener key => rfl
  | view id =>
    have stood : (unit.toldOfChange change heard).views.get? id =
        (unit.views.get? id).map (unit.afterChange change)^[heard.count (.view id)] :=
      get?_tellViews ..
    rw [refusedBy?, refusedBy?, stood]
    cases unit.views.get? id with
    | none => rfl
    | some view =>
      have owner (view : RelationView) :
          (unit.toldOfChange change heard).ownerKey view = unit.ownerKey view := rfl
      rcases RelationView.Repeopled.iterate (unit.afterChange_eq change) (heard.count (.view id)) view with
        same | ⟨others, same⟩ <;>
        simp [same, owner]

theorem tellChange_views {subscribers : List Subscriber}
    (views : ∀ subscriber ∈ subscribers, ∃ id, subscriber = .view id)
    (held : unit.store.records.get? change.row = some record) (memory : σ) :
    tellChange calls change subscribers unit memory =
      some ⟨(subscribers.findSome? (unit.refusedBy? change)).elim (.ok ()) .error,
        unit.toldOfChange change (subscribers.takeWhile
          fun subscriber => (unit.refusedBy? change subscriber).isNone), memory⟩ := by
  induction subscribers generalizing unit with
  | nil => rfl
  | cons subscriber rest ih =>
    obtain ⟨id, rfl⟩ := views subscriber (List.mem_cons_self ..)
    have followed := followChange_eq held id
    rw [tellChange, List.findSome?_cons, List.takeWhile_cons]
    cases refused : unit.refusedBy? change (.view id) with
    | some fault =>
      rw [refused] at followed
      rw [Action.ask_bind_of_error followed]
      rfl
    | none =>
      rw [refused] at followed
      have onwards := ih (fun other among => views other (List.mem_cons_of_mem _ among))
        (show (unit.toldOfChange change [.view id]).store.records.get? change.row = some record from held)
      rw [refusedBy?_toldOfChange, toldOfChange_toldOfChange] at onwards
      rw [Action.ask_bind_of_ok followed]
      exact onwards

theorem Alone.announceChange (alone : unit.Alone) (calls : Callbacks σ)
    (held : unit.store.records.get? change.row = some record) (memory : σ) :
    Cache.announceChange calls change unit memory =
      some ⟨(unit.refusal? change).elim (.ok ()) .error,
        unit.toldOfChange change (unit.toldBeforeRefusal change), memory⟩ :=
  tellChange_views (alone .columnChanging change.table) held memory

theorem held_of_changeOf (asked : unit.changeOf row column value = .ok (change, place)) :
    ∃ record, unit.store.records.get? change.row = some record := by
  obtain ⟨record, -, held, -, -, -, -, rfl⟩ := changeOf_eq_ok.mp asked
  exact ⟨record, held⟩

theorem Alone.writeColumn_of_refused (alone : unit.Alone)
    (asked : unit.changeOf row column value = .ok (change, place))
    (refused : unit.refusal? change = some fault) (memory : σ) :
    writeColumn calls row column value unit memory =
      some ⟨.error fault, unit.toldOfChange change (unit.toldBeforeRefusal change), memory⟩ := by
  obtain ⟨record, held⟩ := held_of_changeOf asked
  have announced := alone.announceChange calls held memory
  rw [refused] at announced
  unfold writeColumn
  rw [Action.ask_bind_of_ok asked]
  exact Action.bind_of_error announced _

theorem Alone.writeColumn_of_unrefused (alone : unit.Alone)
    (asked : unit.changeOf row column value = .ok (change, place))
    (unrefused : unit.refusal? change = none) (memory : σ) :
    writeColumn calls row column value unit memory =
      some ⟨.ok (), unit.changed change place, memory⟩ := by
  obtain ⟨record, held⟩ := held_of_changeOf asked
  have announced := alone.announceChange calls held memory
  have everyone : unit.toldBeforeRefusal change =
      unit.channels.subscribers .columnChanging change.table := by
    refine List.takeWhile_eq_self_iff.mpr fun subscriber member => ?_
    rw [List.findSome?_eq_none_iff.mp unrefused subscriber member]
    rfl
  rw [unrefused, everyone] at announced
  exact writeColumn_of_announced asked announced

theorem members?_given (found : unit.views.get? id = some view)
    (loaded : view.members? = some members) (owned : unit.ownerKey view = .ok (some key))
    (asked : unit.changeOf row view.relation.childKey key = .ok (change, place))
    (own : unit.identityOf row = .ok identity) :
    (unit.changed change place).members? id =
      some (if .view id ∈ unit.channels.subscribers .columnChanging change.table ∧
          ¬unit.SelfReferring change identity then joined members identity else members) := by
  obtain ⟨record, entity, held, -, -, -, -, built⟩ := changeOf_eq_ok.mp asked
  obtain ⟨_, same, rfl⟩ := identityOf_eq_ok.mp own
  cases held.symm.trans same
  have here : change.row = row := by rw [built]
  refine (members?_tellViews found _ _).trans ?_
  rw [iterate_afterChange owned (here ▸ held) loaded, RelationView.members?_of_loaded loaded]
  refine congrArg some ?_
  by_cases selfish : unit.SelfReferring change record.identity
  · rw [Function.iterate_fixed (by rw [membersHearing, if_pos (.inr selfish)]),
      if_neg (fun joins => joins.2 selfish)]
  · have hearing : unit.membersHearing view key change record.identity = (joined · record.identity) := by
      funext others
      have heard : ¬(change.column ≠ view.relation.childKey ∨
          unit.SelfReferring change record.identity) := by
        rw [not_or, not_ne_iff]
        exact ⟨by rw [built], selfish⟩
      rw [membersHearing, if_neg heard, if_pos (by rw [built])]
    rw [hearing, iterate_joined]
    by_cases told : .view id ∈ unit.channels.subscribers .columnChanging change.table <;>
      simp [told, selfish, List.count_eq_zero]

/-- How adding a row to a view fails, with which fault, and what it leaves. -/
inductive AddFails (unit : UnitOfWork) (id : ViewId) (view : RelationView)
    (members : List ObjectIdentity) (row : RowId) : Fault → UnitOfWork → Prop
  | keyless (unowned : unit.ownerKey view = .ok none) :
      AddFails unit id view members row (.ownerWithoutKey view.owner) unit
  | unreadable {fault : Fault} (unread : unit.ownerKey view = .error fault) :
      AddFails unit id view members row fault unit
  | unwritable {key : Value} {fault : Fault} (owned : unit.ownerKey view = .ok (some key))
      (unasked : unit.changeOf row view.relation.childKey key = .error fault) :
      AddFails unit id view members row fault unit
  -- The views before the one that refuses have already been told.
  | refused {key : Value} {change : ColumnChange} {place : Nat} {fault : Fault}
      (owned : unit.ownerKey view = .ok (some key))
      (asked : unit.changeOf row view.relation.childKey key = .ok (change, place))
      (refused : unit.refusal? change = some fault) :
      AddFails unit id view members row fault
        (unit.toldOfChange change (unit.toldBeforeRefusal change))
  -- The key has been written, and the row keeps it.
  | strayed {key : Value} {change : ColumnChange} {place : Nat} {identity : ObjectIdentity}
      (owned : unit.ownerKey view = .ok (some key))
      (asked : unit.changeOf row view.relation.childKey key = .ok (change, place))
      (unrefused : unit.refusal? change = none) (own : unit.identityOf row = .ok identity)
      (absent : identity ∉ members)
      (aside : change.table ≠ view.childTable ∨
        .view id ∉ unit.channels.subscribers .columnChanging change.table ∨
        unit.SelfReferring change identity) :
      AddFails unit id view members row (.didNotJoin identity view.relation.name)
        (unit.changed change place)

section

variable (alone : unit.Alone) (found : unit.views.get? id = some view)
  (loaded : view.members? = some members)

include alone found loaded

theorem addMember_of_unrefused (owned : unit.ownerKey view = .ok (some key))
    (asked : unit.changeOf row view.relation.childKey key = .ok (change, place))
    (unrefused : unit.refusal? change = none) (own : unit.identityOf row = .ok identity)
    (calls : Callbacks σ) (memory : σ) :
    addMember calls id row unit memory = some ⟨
      if identity ∈ members ∨ .view id ∈ unit.channels.subscribers .columnChanging change.table ∧
          ¬unit.SelfReferring change identity then .ok (members.idxOf identity)
      else .error (.didNotJoin identity view.relation.name), unit.changed change place, memory⟩ := by
  rw [addMember_of_written found loaded owned (alone.writeColumn_of_unrefused asked unrefused memory)
    (identityOf_written own _ _) (members?_given found loaded owned asked own)]
  by_cases joins : .view id ∈ unit.channels.subscribers .columnChanging change.table ∧
      ¬unit.SelfReferring change identity
  · simp only [joins, not_false_eq_true, and_self, or_true, if_true, mem_joined, idxOf_joined]
  · simp only [joins, or_false, if_false]

theorem AddFails.addMember (tethered : unit.Tethered model)
    (fails : unit.AddFails id view members row fault after) (calls : Callbacks σ) (memory : σ) :
    addMember calls id row unit memory = some ⟨.error fault, after, memory⟩ := by
  cases fails with
  | keyless unowned =>
    unfold Cache.addMember
    rw [Action.bind_of_ok (loadView_of_loaded found loaded),
      Action.ask_bind_of_ok (view_eq_ok.mpr found), Action.ask_bind_of_ok unowned]
    rfl
  | unreadable unread =>
    unfold Cache.addMember
    rw [Action.bind_of_ok (loadView_of_loaded found loaded),
      Action.ask_bind_of_ok (view_eq_ok.mpr found), Action.ask_bind_of_error unread]
  | unwritable owned unasked =>
    exact addMember_of_unwritten found loaded owned (Action.ask_bind_of_error unasked _)
  | refused owned asked refused =>
    exact addMember_of_unwritten found loaded owned (alone.writeColumn_of_refused asked refused memory)
  | strayed owned asked unrefused own absent aside =>
    rw [addMember_of_unrefused alone found loaded owned asked unrefused own calls memory, if_neg]
    rintro (member | ⟨told, apart⟩)
    · exact absent member
    · rcases aside with elsewhere | untold | selfish
      -- A view is told of its child table only.
      · exact elsewhere ((tethered.hears _ _ _ told).2 view found).symm
      · exact untold told
      · exact apart selfish

theorem addMember_ok_or_fails (calls : Callbacks σ) (row : RowId) (memory : σ) :
    (∃ index after, addMember calls id row unit memory = some ⟨.ok index, after, memory⟩) ∨
      ∃ fault after, unit.AddFails id view members row fault after := by
  cases owner : unit.ownerKey view with
  | error fault => exact .inr ⟨_, _, .unreadable owner⟩
  | ok owned =>
    cases owned with
    | none => exact .inr ⟨_, _, .keyless owner⟩
    | some key =>
      cases asked : unit.changeOf row view.relation.childKey key with
      | error fault => exact .inr ⟨_, _, .unwritable owner asked⟩
      | ok answer =>
        obtain ⟨change, place⟩ := answer
        cases refused : unit.refusal? change with
        | some fault => exact .inr ⟨_, _, .refused owner asked refused⟩
        | none =>
          obtain ⟨record, -, held, -⟩ := changeOf_eq_ok.mp asked
          have own : unit.identityOf row = .ok record.identity := identityOf_eq_ok.mpr ⟨record, held, rfl⟩
          have ran := addMember_of_unrefused alone found loaded owner asked refused own calls memory
          split at ran
          next => exact .inl ⟨_, _, ran⟩
          next strays =>
            obtain ⟨absent, unjoined⟩ := not_or.mp strays
            refine .inr ⟨_, _, .strayed owner asked refused own absent ?_⟩
            by_cases told : .view id ∈ unit.channels.subscribers .columnChanging change.table
            · exact .inr (.inr (not_not.mp fun apart => unjoined ⟨told, apart⟩))
            · exact .inr (.inl told)

theorem addMember_eq_error (tethered : unit.Tethered model) :
    addMember calls id row unit memory = some ⟨.error fault, after, kept⟩ ↔
      unit.AddFails id view members row fault after ∧ kept = memory := by
  constructor
  · intro failed
    rcases addMember_ok_or_fails alone found loaded calls row memory with
      ⟨index, other, ran⟩ | ⟨fault', after', fails⟩
    · cases failed.symm.trans ran
    · cases failed.symm.trans (fails.addMember alone found loaded tethered calls memory)
      exact ⟨fails, rfl⟩
  · rintro ⟨fails, rfl⟩
    exact fails.addMember alone found loaded tethered calls kept

end

end UnitOfWork

open UnitOfWork

/-- A row that cannot be added has been written all the same if it is of another table, or of one that
the view is not told of, or is just being inserted by the owner's key. All other failures come before
the write; a refusal, after some views have been told of it. -/
theorem add_fails_iff {model : Model} (valid : model.validate = .ok ())
    (named : (model.entities.map (·.name)).Nodup) {unit after : UnitOfWork}
    (reachable : unit.Reachable model) (alone : unit.Alone) {id : ViewId} {view : RelationView}
    {members : List ObjectIdentity} (found : unit.views.get? id = some view)
    (loaded : view.members? = some members) {row : RowId} {fault : Fault} {calls : Callbacks σ}
    {memory kept : σ} :
    perform calls (.add id row) unit memory = some ⟨.error fault, after, kept⟩ ↔
      unit.AddFails id view members row fault after ∧ kept = memory :=
  addMember_eq_error alone found loaded (reachable.tethered valid named)

def paidOrders : Model :=
  ⟨orders.entities ++ [⟨"Payment", "payments",
    [⟨"id", "id", true, false, none⟩, ⟨"order", "order", false, false, none⟩], []⟩]⟩

-- The lines of order 1 are loaded, and there is a payment for order 2.
def paidApart : Program Unit Unit :=
  .perform (.attach "Order" [.integer 1]) fun _ =>
  .perform (.attach "Payment" [.integer 3, .integer 2]) fun _ =>
  .perform (.openView ⟨"orders", [.integer 1]⟩ "lines") fun _ =>
  .perform (.load ⟨0⟩) fun _ =>
  .done ()

-- The payment is no line of order 1, but it is for order 1 from now on.
theorem payment_moved_by_failed_add : ∃ unit after,
    unit.Reachable paidOrders ∧ unit.Alone ∧ unit.views.get? ⟨0⟩ = some noLines ∧
      perform nothingStored (.add ⟨0⟩ ⟨1⟩) unit () =
        some ⟨.error (.didNotJoin ⟨"payments", [.integer 3]⟩ "lines"), after, ()⟩ ∧
      unit.value ⟨1⟩ "order" .current = .ok (.integer 2) ∧
      after.value ⟨1⟩ "order" .current = .ok (.integer 1) ∧
      unit.AddFails ⟨0⟩ noLines [] ⟨1⟩ (.didNotJoin ⟨"payments", [.integer 3]⟩ "lines") after := by
  have evaluated : (paidApart.run ((answering (.ok ())).callbacks 1)
      (.new paidOrders .standard) ()).any (fun started =>
        (addMember nothingStored ⟨0⟩ ⟨1⟩ started.unit ()).any fun ended =>
        decide (ended.result = .error (.didNotJoin ⟨"payments", [.integer 3]⟩ "lines") ∧
          started.unit.views.get? ⟨0⟩ = some noLines ∧ started.unit.channels.onlyViews ∧
          started.unit.value ⟨1⟩ "order" .current = .ok (.integer 2) ∧
          ended.unit.value ⟨1⟩ "order" .current = .ok (.integer 1))) = true := by
    decide +kernel
  simp only [Option.any_eq_true, decide_eq_true_eq] at evaluated
  obtain ⟨⟨_, unit, _⟩, ran, ⟨_, after, _⟩, failed, rfl, found, heard, before, later⟩ := evaluated
  have reachable : unit.Reachable paidOrders := .of_run ran
  have alone : unit.Alone := alone_of_onlyViews heard
  have fails := (add_fails_iff (by decide) (by decide) reachable alone found rfl).mp failed
  exact ⟨unit, after, reachable, alone, found, failed, before, later, fails.1⟩

end RelationalMapper.Cache
