import RelationalMapper.Proofs.View.Membership
import RelationalMapper.Proofs.View.Underway

set_option autoImplicit false

namespace RelationalMapper.Cache

variable {σ : Type}

namespace UnitOfWork

variable {unit : UnitOfWork} {view : RelationView} {key : Value} {members : List ObjectIdentity}
  {calls : Callbacks σ} {row : RowId} {id : ViewId} {memory : σ} {model : Model}

namespace Breakoff

variable {pending : List (String × Value)} {started : UnitOfWork} {identity : ObjectIdentity}
  {table : String}

def Entered (broken : Breakoff calls row pending started memory) (id : ViewId) (view : RelationView)
    (key : Value) (identity : ObjectIdentity) (table : String) : Prop :=
  identity.key ≠ [key] ∧
    ((view.relation.childKey, key) ∈ broken.done ∧
        .view id ∈ started.channels.subscribers .columnChanging table ∨
      (broken.column, broken.value) = (view.relation.childKey, key) ∧ ∃ change place,
        broken.between.changeOf row broken.column broken.value = .ok (change, place) ∧
          .view id ∈ acceptingChange calls change broken.between broken.halfway)

def Left (broken : Breakoff calls row pending started memory) (outer : Option RowId) (id : ViewId)
    (view : RelationView) (key : Value) (table : String) : Prop :=
  (broken.resumed outer).value row view.relation.childKey .current = .ok key ∧
    .view id ∈ acceptingDeletion calls ⟨row, table, .fresh⟩ (broken.resumed outer) broken.kept

theorem written (quiet : calls.Quiet) (broken : Breakoff calls row pending started memory) :
    Written row broken.done started broken.between := by
  rcases writeColumns_quiet quiet row broken.done started memory with ⟨last, kept, ran, wrote⟩ | ⟨⟨sooner⟩⟩
  · cases ran.symm.trans broken.wrote
    exact wrote
  · cases sooner.ran.symm.trans broken.wrote

theorem takenIn (quiet : calls.Quiet) (broken : Breakoff calls row pending started memory)
    (once : (pending.map (·.1)).Nodup) {entity : Entity} {owner : Except Fault (Option Value)}
    (underway : started.Underway row entity identity [] id view owner members) :
    ∃ others names, TakenIn members identity
        (∃ key, owner = .ok (some key) ∧ broken.Entered id view key identity entity.table) others ∧
      broken.after.Underway row entity identity names id view owner others := by
  -- The column of the failing write is none of those before, so the row does not point at the key yet.
  rw [broken.split, List.map_append, List.map_cons] at once
  obtain ⟨first, -, apart⟩ := List.nodup_append.mp once
  obtain ⟨between, taken, ready, -⟩ :=
    underway.onward (broken.written quiet) first fun _ _ among => nomatch among
  have fresh : broken.column ∉ (broken.done.map (·.1)).reverse ++ [] := by
    rw [List.append_nil, List.mem_reverse]
    intro among
    exact apart _ among _ (List.mem_cons_self ..) rfl
  obtain ⟨others, taken', ends⟩ := ready.refused quiet fresh broken.failed
  refine ⟨others, _, (taken.trans taken').congr ?_, ends⟩
  simp only [Enters, Entered, List.mem_singleton]
  constructor
  · intro entered
    rcases entered with ⟨⟨key, owned, listed, apart⟩, told⟩ | ⟨⟨key, owned, last, apart⟩, told⟩
    · exact ⟨key, owned, apart, .inl ⟨listed, told⟩⟩
    · exact ⟨key, owned, apart, .inr ⟨last.symm, told⟩⟩
  · rintro ⟨key, owned, apart, entered⟩
    rcases entered with ⟨listed, told⟩ | ⟨last, told⟩
    · exact .inl ⟨⟨key, owned, listed, apart⟩, told⟩
    · exact .inr ⟨⟨key, owned, last.symm, apart⟩, told⟩

theorem members?_ne (quiet : calls.Quiet) (formed : unit.store.WellFormed model) {name : String}
    {values : List (String × Value)}
    (begun : unit.beginInsert name values = .ok ((row, table, pending), started))
    (own : started.identityOf row = .ok identity)
    (broken : Breakoff calls row pending started memory) (found : unit.views.get? id = some view)
    (loaded : view.members? = some members) (live : (unit.store.live.get? view.owner).isSome) :
    (((broken.resumed unit.inserting).toldOfDeletion ⟨row, table, .fresh⟩
        (acceptingDeletion calls ⟨row, table, .fresh⟩ (broken.resumed unit.inserting)
          broken.kept)).forget row).members? id ≠ some members ↔
      ∃ key, unit.ownerKey view = .ok (some key) ∧
        (identity ∉ members ∧ broken.Entered id view key identity table ∧
            ¬broken.Left unit.inserting id view key table ∨
          identity ∈ members ∧ broken.Left unit.inserting id view key table) := by
  obtain ⟨entity, own', underway, rfl, once, -⟩ := Underway.of_beginInsert formed begun found loaded live
  obtain ⟨record, held, blank⟩ := underway.held
  obtain ⟨stood, same, rfl⟩ := identityOf_eq_ok.mp own
  cases held.symm.trans same
  rw [blank.identified]
  obtain ⟨others, names, taken, ends⟩ := broken.takenIn quiet once underway
  obtain ⟨record', held', blank'⟩ := ends.held
  obtain ⟨older, stood⟩ := Option.isSome_iff_exists.mp ends.loaded
  -- While listeners hear that the row goes, it is still found under its identity.
  have resolved : (broken.after.store.resolve? record'.identity).isNone = false := by
    rw [blank'.identified, RowStore.resolve?, ends.live]
    rfl
  have still : (broken.resumed unit.inserting).views.get? id = some (view.withMembers others) := ends.found
  obtain ⟨count, told, left⟩ := members?_toldOfDeletion ⟨row, entity.table, .fresh⟩ still
    (RelationView.members?_of_loaded stood others) held' resolved
    (acceptingDeletion calls ⟨row, entity.table, .fresh⟩ (broken.resumed unit.inserting) broken.kept)
  have owner : (broken.resumed unit.inserting).ownerKey view = unit.ownerKey view := ends.owned
  have left : count ≠ 0 ↔ ∃ key, unit.ownerKey view = .ok (some key) ∧
      broken.Left unit.inserting id view key entity.table := by
    simpa [Left, Pointing, owner] using left
  rw [blank'.identified] at told
  change (toldOfDeletion _ _ _).members? id ≠ _ ↔ _
  rw [told, ne_eq, Option.some.injEq, ← ne_eq, taken.iterate_erase_ne, ← not_not (a := count = 0),
    ← ne_eq, left]
  by_cases owned : ∃ key, unit.ownerKey view = .ok (some key)
  · obtain ⟨key, owned⟩ := owned
    have only (holds : Value → Prop) :
        (∃ other, unit.ownerKey view = .ok (some other) ∧ holds other) ↔ holds key := by
      simp [owned]
    simp only [only]
  · have none (holds : Value → Prop) :
        ¬∃ other, unit.ownerKey view = .ok (some other) ∧ holds other := by
      rintro ⟨key, found, -⟩
      exact owned ⟨key, found⟩
    simp only [none, false_and, and_false, or_false]

end Breakoff

end UnitOfWork

open UnitOfWork

def Operation.changesRows : Operation → Bool
  | write .. | delete _ | insert .. => true
  | _ => false

/-- A view, told of a change before the change failed, has taken a row in or let one go. -/
inductive LeavesTrace (calls : Callbacks σ) (unit : UnitOfWork) (memory : σ) (id : ViewId)
    (view : RelationView) (members : List ObjectIdentity) (key : Value) : Operation → Prop
  | written {row : RowId} {column : String} {value : Value} {change : ColumnChange} {place : Nat}
      {identity : ObjectIdentity} (asked : unit.changeOf row column value = .ok (change, place))
      (own : unit.identityOf row = .ok identity)
      (told : .view id ∈ acceptingChange calls change unit memory)
      (foreign : change.column = view.relation.childKey)
      (apart : ¬unit.SelfReferring change identity)
      (moves : change.proposed = key ∧ identity ∉ members ∨
        change.proposed ≠ key ∧ change.current = key ∧ identity ∈ members) :
      LeavesTrace calls unit memory id view members key (.write row column value)
  | deleted {row : RowId} {deletion : RowDeletion} {identity : ObjectIdentity}
      (asked : unit.deletionOf row = .ok deletion) (own : unit.identityOf row = .ok identity)
      (told : .view id ∈ acceptingDeletion calls deletion unit memory)
      (pointing : unit.Pointing view deletion key) (leaves : identity ∈ members) :
      LeavesTrace calls unit memory id view members key (.delete row)
  -- The deletion that undoes an insert is announced too, and takes the row out of the views told of it.
  | inserted {name table : String} {values pending : List (String × Value)} {row : RowId}
      {started : UnitOfWork} {identity : ObjectIdentity}
      (begun : unit.beginInsert name values = .ok ((row, table, pending), started))
      (own : started.identityOf row = .ok identity)
      (broken : Breakoff calls row pending started memory)
      (moves : identity ∉ members ∧ broken.Entered id view key identity table ∧
          ¬broken.Left unit.inserting id view key table ∨
        identity ∈ members ∧ broken.Left unit.inserting id view key table) :
      LeavesTrace calls unit memory id view members key (.insert name values)

section

variable {calls : Callbacks σ} {unit after : UnitOfWork} {memory kept : σ} {fault : Fault} {id : ViewId}
  {view : RelationView} {members : List ObjectIdentity} {model : Model} {row : RowId}

theorem write_leaves_trace (quiet : calls.Quiet) {column : String} {value : Value}
    (failed : writeColumn calls row column value unit memory = some ⟨.error fault, after, kept⟩)
    (found : unit.views.get? id = some view) (loaded : view.members? = some members) :
    after.members? id ≠ some members ↔ ∃ key, unit.ownerKey view = .ok (some key) ∧
      LeavesTrace calls unit memory id view members key (.write row column value) := by
  rcases writeColumn_refused quiet failed with ⟨rfl, unasked⟩ | ⟨change, place, asked, rfl⟩
  · refine iff_of_false (fun moved => moved (members?_of_found found loaded)) ?_
    rintro ⟨key, _, trace⟩
    cases trace with
    | written asked => exact unasked _ _ asked
  · obtain ⟨record, entity, held, -, -, -, -, built⟩ := changeOf_eq_ok.mp asked
    have here : change.row = row := by rw [built]
    have own : unit.identityOf row = .ok record.identity := identityOf_eq_ok.mpr ⟨record, held, rfl⟩
    rw [members?_toldOfChange_ne found loaded (here ▸ held)]
    refine exists_congr fun key => and_congr_right fun _ => ?_
    constructor
    · rintro ⟨told, foreign, apart, moves⟩
      exact .written asked own told foreign apart moves
    · intro trace
      cases trace with
      | written asked' own' told foreign apart moves =>
        cases asked.symm.trans asked'
        cases own.symm.trans own'
        exact ⟨told, foreign, apart, moves⟩

theorem delete_leaves_trace (quiet : calls.Quiet) (formed : unit.store.WellFormed model)
    (failed : deleteRow calls row unit memory = some ⟨.error fault, after, kept⟩)
    (found : unit.views.get? id = some view) (loaded : view.members? = some members) :
    after.members? id ≠ some members ↔ ∃ key, unit.ownerKey view = .ok (some key) ∧
      LeavesTrace calls unit memory id view members key (.delete row) := by
  rcases deleteRow_refused quiet failed with ⟨rfl, unasked⟩ | ⟨deletion, asked, rfl⟩
  · refine iff_of_false (fun moved => moved (members?_of_found found loaded)) ?_
    rintro ⟨key, _, trace⟩
    cases trace with
    | deleted asked => exact unasked _ asked
  · obtain ⟨record, held, live, built⟩ := deletionOf_eq_ok.mp asked
    have here : deletion.row = row := by rw [built]
    have own : unit.identityOf row = .ok record.identity := identityOf_eq_ok.mpr ⟨record, held, rfl⟩
    have resolved : (unit.store.resolve? record.identity).isNone = false := by
      rw [RowStore.resolve?, formed.live_of_record held live]
      rfl
    obtain ⟨count, left, told⟩ := members?_toldOfDeletion deletion found loaded (here ▸ held) resolved
      (acceptingDeletion calls deletion unit memory)
    rw [left, ne_eq, Option.some.injEq, ← ne_eq, iterate_erase_ne, told]
    constructor
    · rintro ⟨⟨key, owned, pointing, told⟩, leaves⟩
      exact ⟨key, owned, .deleted asked own told pointing leaves⟩
    · rintro ⟨key, owned, trace⟩
      cases trace with
      | deleted asked' own' told pointing leaves =>
        cases asked.symm.trans asked'
        cases own.symm.trans own'
        exact ⟨⟨key, owned, pointing, told⟩, leaves⟩

theorem insert_leaves_trace (quiet : calls.Quiet) (formed : unit.store.WellFormed model)
    {name : String} {values : List (String × Value)}
    (failed : insertRow calls name values unit memory = some ⟨.error fault, after, kept⟩)
    (found : unit.views.get? id = some view) (loaded : view.members? = some members)
    (live : (unit.store.live.get? view.owner).isSome) :
    after.members? id ≠ some members ↔ ∃ key, unit.ownerKey view = .ok (some key) ∧
      LeavesTrace calls unit memory id view members key (.insert name values) := by
  rcases insertRow_refused quiet failed with
    ⟨rfl, unasked⟩ | ⟨row, table, pending, started, begun, ⟨broken⟩⟩
  · refine iff_of_false (fun moved => moved (members?_of_found found loaded)) ?_
    rintro ⟨key, _, trace⟩
    cases trace with
    | inserted begun => exact unasked _ begun
  · obtain ⟨kept', ran⟩ := broken.insertRow quiet begun
    cases failed.symm.trans ran
    obtain ⟨entity, identity, arranged, start⟩ := started_of_beginInsert begun
    have own : started.identityOf row = .ok identity := identityOf_eq_ok.mpr ⟨_, start.held, rfl⟩
    constructor
    · intro moved
      obtain ⟨key, owned, moves⟩ := (broken.members?_ne quiet formed begun own found loaded live).mp moved
      exact ⟨key, owned, .inserted begun own broken moves⟩
    · rintro ⟨key, owned, trace⟩
      cases trace with
      | inserted begun' own' again moves =>
        -- Another way to break off would have led to another outcome.
        obtain ⟨last, rerun⟩ := again.insertRow quiet begun'
        have moved := (again.members?_ne quiet formed begun' own' found loaded live).mpr ⟨key, owned, moves⟩
        injection ran.symm.trans rerun with same
        injection same with _ same _
        rw [same]
        exact moved

/-- Of a change that fails, a view keeps what it took in of it when it was told. -/
theorem refusal_leaves_trace_iff (reachable : unit.Reachable model) (quiet : calls.Quiet)
    {operation : Operation} (changing : operation.changesRows = true)
    (failed : perform calls operation unit memory = some ⟨.error fault, after, kept⟩)
    (found : unit.views.get? id = some view) (loaded : view.members? = some members)
    (live : (unit.store.live.get? view.owner).isSome) :
    after.members? id ≠ some members ↔ ∃ key, unit.ownerKey view = .ok (some key) ∧
      LeavesTrace calls unit memory id view members key operation := by
  obtain ⟨-, formed⟩ := reachable.wellFormed
  cases operation with
  | write row column value => exact write_leaves_trace quiet failed found loaded
  | delete row => exact delete_leaves_trace quiet formed failed found loaded
  | insert name values => exact insert_leaves_trace quiet formed failed found loaded live
  | _ => cases changing

end

-- An order and a line of another one, the lines of the order loaded, and a listener after them.
def lookingOn : Program Unit Unit :=
  .perform (.attach "Order" [.integer 1]) fun _ =>
  .perform (.attach "Line" [.integer 7, .integer 2]) fun _ =>
  .perform (.openView ⟨"orders", [.integer 1]⟩ "lines") fun _ =>
  .perform (.load ⟨0⟩) fun _ =>
  .perform (.subscribe .columnChanging "lines" ⟨0⟩) fun _ =>
  .done ()

def answering (answer : Except Fault Unit) : Environment Unit where
  columnChanging _ _ := .done answer
  rowDeleting _ _ := .done (.ok ())
  fetch _ _ _ := .done (.ok [])

theorem refused_line_stays : ∃ unit after view,
    unit.Reachable orders ∧ unit.views.get? ⟨0⟩ = some view ∧ view.members? = some [] ∧
      perform ((answering (.error (.refused .invalidOperation "no"))).callbacks 1)
          (.write ⟨1⟩ "order" (.integer 1)) unit () =
        some ⟨.error (.refused .invalidOperation "no"), after, ()⟩ ∧
      after.members? ⟨0⟩ = some [⟨"lines", [.integer 7]⟩] ∧
      (after.members? ⟨0⟩ ≠ some [] ↔ ∃ key, unit.ownerKey view = .ok (some key) ∧
        LeavesTrace ((answering (.error (.refused .invalidOperation "no"))).callbacks 1) unit () ⟨0⟩
          view [] key (.write ⟨1⟩ "order" (.integer 1))) := by
  have ran : lookingOn.run ((answering (.ok ())).callbacks 1) (.new orders .standard) () =
      some ⟨_, _, _⟩ :=
    (Program.run_of_performed rfl).trans <| (Program.run_of_performed rfl).trans <|
      (Program.run_of_performed rfl).trans <| (Program.run_of_performed rfl).trans <|
      (Program.run_of_performed rfl).trans rfl
  have quiet : ((answering (.error (.refused .invalidOperation "no"))).callbacks 1).Quiet :=
    ⟨fun _ _ _ _ => ⟨_, _, rfl⟩, fun _ _ _ _ => ⟨_, _, rfl⟩⟩
  exact ⟨_, _, _, .of_run ran, rfl, rfl, rfl, rfl, refusal_leaves_trace_iff (.of_run ran) quiet rfl rfl
    rfl rfl rfl⟩

end RelationalMapper.Cache
