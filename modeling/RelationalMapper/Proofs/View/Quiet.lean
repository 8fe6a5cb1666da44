import RelationalMapper.Proofs.View.Progress

set_option autoImplicit false

namespace RelationalMapper.Cache

variable {σ : Type}

/-- Listeners that accept or refuse and do nothing else. -/
structure Callbacks.Quiet (calls : Callbacks σ) : Prop where
  columnChanging : ∀ key change, (calls.columnChanging key change).Quiet
  rowDeleting : ∀ key deletion, (calls.rowDeleting key deletion).Quiet

theorem joined_joined (members : List ObjectIdentity) (identity : ObjectIdentity) :
    joined (joined members identity) identity = joined members identity := by
  rw [joined, if_pos (mem_joined.mpr (.inr rfl))]

theorem iterate_joined (members : List ObjectIdentity) (identity : ObjectIdentity) (count : Nat) :
    (joined · identity)^[count] members = if count = 0 then members else joined members identity := by
  induction count with
  | zero => rfl
  | succ count ih =>
    rw [Function.iterate_succ_apply', ih]
    by_cases first : count = 0 <;> simp [first, joined_joined]

theorem iterate_erase_of_notMem {members : List ObjectIdentity} {identity : ObjectIdentity}
    (absent : identity ∉ members) (count : Nat) :
    (List.erase · identity)^[count] members = members :=
  Function.iterate_fixed (List.erase_of_not_mem absent) count

theorem iterate_erase_ne {members : List ObjectIdentity} {identity : ObjectIdentity} {count : Nat} :
    (List.erase · identity)^[count] members ≠ members ↔ count ≠ 0 ∧ identity ∈ members := by
  constructor
  · intro moved
    refine ⟨fun none => moved (by rw [none]; rfl), ?_⟩
    by_contra absent
    exact moved (iterate_erase_of_notMem absent count)
  · rintro ⟨told, member⟩ same
    -- Every erasure leaves at most as many members, and the first one fewer.
    have shrinks (others : List ObjectIdentity) (count : Nat) :
        ((List.erase · identity)^[count] others).length ≤ others.length := by
      induction count generalizing others with
      | zero => exact Nat.le_refl _
      | succ count ih => exact Nat.le_trans (ih _) List.length_erase_le
    obtain ⟨rest, rfl⟩ := Nat.exists_eq_succ_of_ne_zero told
    have shorter := shrinks (members.erase identity) rest
    rw [Function.iterate_succ_apply] at same
    rw [same, List.length_erase_of_mem member] at shorter
    have := List.length_pos_of_mem member
    omega

namespace RelationView

theorem iterate_withMembers {patch : RelationView → RelationView}
    {remembered : List ObjectIdentity → List ObjectIdentity} {view : RelationView}
    {members : List ObjectIdentity} (loaded : view.members? = some members)
    (patches : ∀ others, patch (view.withMembers others) = view.withMembers (remembered others))
    (count : Nat) : patch^[count] view = view.withMembers (remembered^[count] members) := by
  induction count with
  | zero => exact (view.withMembers_self loaded).symm
  | succ count ih => rw [Function.iterate_succ_apply', Function.iterate_succ_apply', ih, patches]

end RelationView

namespace UnitOfWork

variable {unit : UnitOfWork} {view : RelationView} {record : RowRecord} {key : Value}
  {members : List ObjectIdentity}

def membersHearing (unit : UnitOfWork) (view : RelationView) (key : Value) (change : ColumnChange)
    (identity : ObjectIdentity) (members : List ObjectIdentity) : List ObjectIdentity :=
  if change.column ≠ view.relation.childKey ∨ unit.SelfReferring change identity then members
  else if change.proposed = key then joined members identity
  else if change.current = key then members.erase identity else members

theorem iterate_afterChange {change : ColumnChange} (owned : unit.ownerKey view = .ok (some key))
    (held : unit.store.records.get? change.row = some record) (loaded : view.members? = some members)
    (count : Nat) : (unit.afterChange change)^[count] view =
      view.withMembers ((unit.membersHearing view key change record.identity)^[count] members) := by
  refine RelationView.iterate_withMembers loaded (fun others => ?_) count
  have owned' : unit.ownerKey (view.withMembers others) = .ok (some key) := by simpa using owned
  rw [afterChange_of_owned owned' held (RelationView.members?_of_loaded loaded others),
    RelationView.withMembers_withMembers, RelationView.relation_withMembers]
  rfl

-- A row that is listed once at most has been moved when its change is heard of first.
theorem iterate_membersHearing {change : ColumnChange} {identity : ObjectIdentity} {count : Nat}
    (distinct : members.Nodup) (told : count ≠ 0) :
    (unit.membersHearing view key change identity)^[count] members =
      unit.membersHearing view key change identity members := by
  obtain ⟨rest, rfl⟩ := Nat.exists_eq_succ_of_ne_zero told
  rw [Function.iterate_succ_apply]
  refine Function.iterate_fixed ?_ rest
  unfold membersHearing
  split_ifs
  · rfl
  · exact joined_joined members identity
  · exact List.erase_of_not_mem distinct.not_mem_erase
  · rfl

theorem afterChange_of_unowned (unowned : ∀ key, unit.ownerKey view ≠ .ok (some key))
    (change : ColumnChange) : unit.afterChange change view = view := by
  unfold afterChange membersAfterChange
  split
  · rfl
  · cases owner : unit.ownerKey view with
    | error fault => rfl
    | ok found =>
      cases found with
      | none => rfl
      | some key => exact absurd owner (unowned key)

theorem afterDeletion_of_unowned (unowned : ∀ key, unit.ownerKey view ≠ .ok (some key))
    (deletion : RowDeletion) : unit.afterDeletion deletion view = view := by
  unfold afterDeletion membersAfterDeletion
  cases owner : unit.ownerKey view with
  | error fault => rfl
  | ok found =>
    cases found with
    | none => rfl
    | some key => exact absurd owner (unowned key)

def Pointing (unit : UnitOfWork) (view : RelationView) (deletion : RowDeletion) (key : Value) : Prop :=
  unit.value deletion.row view.relation.childKey .current = .ok key ∨
    deletion.state ≠ .fresh ∧ unit.value deletion.row view.relation.childKey .original = .ok key

theorem isRelated_eq_ok_true {deletion : RowDeletion} :
    unit.isRelated view deletion key = .ok true ↔ unit.Pointing view deletion key := by
  simp only [isRelated, Except.bind_eq_ok]
  constructor
  · rintro ⟨current, valued, ran⟩
    split at ran
    next points => exact .inl (points ▸ valued)
    next =>
      split at ran
      · cases ran
      next stored =>
        obtain ⟨original, valued, ran⟩ := Except.bind_eq_ok.mp ran
        refine .inr ⟨stored, ?_⟩
        have points : original = key := by simpa [Pure.pure, Except.pure] using ran
        rw [valued, points]
  · intro pointing
    rcases pointing with valued | ⟨stored, valued⟩
    · exact ⟨key, valued, by rw [if_pos rfl]; rfl⟩
    · obtain ⟨record, entity, index, held, known, placed, points⟩ := value_eq_ok.mp valued
      refine ⟨(record.version .current).getD index .null,
        value_eq_ok.mpr ⟨record, entity, index, held, known, placed, rfl⟩, ?_⟩
      rw [valued, if_neg stored]
      split
      · rfl
      · simp [Bind.bind, Except.bind, Pure.pure, Except.pure]

theorem afterDeletion_of_pointing {deletion : RowDeletion}
    (owned : unit.ownerKey view = .ok (some key)) (pointing : unit.Pointing view deletion key)
    (held : unit.store.records.get? deletion.row = some record)
    (resolved : (unit.store.resolve? record.identity).isNone = false)
    (loaded : view.members? = some members) :
    unit.afterDeletion deletion view = view.withMembers (members.erase record.identity) := by
  have own : unit.identityOf deletion.row = .ok record.identity :=
    identityOf_eq_ok.mpr ⟨record, held, rfl⟩
  unfold afterDeletion membersAfterDeletion
  rw [owned, own, loaded]
  simp [isRelated_eq_ok_true.mpr pointing, resolved, Bind.bind, Except.bind, Pure.pure, Except.pure,
    RelationView.told]

theorem afterDeletion_of_not_pointing {deletion : RowDeletion}
    (owned : unit.ownerKey view = .ok (some key)) (elsewhere : ¬unit.Pointing view deletion key) :
    unit.afterDeletion deletion view = view := by
  rw [← isRelated_eq_ok_true] at elsewhere
  unfold afterDeletion membersAfterDeletion
  rw [owned]
  cases related : unit.isRelated view deletion key with
  | error fault => simp [related, Bind.bind, Except.bind, RelationView.told]
  | ok answer =>
    cases answer with
    | true => exact absurd related elsewhere
    | false => simp [related, Bind.bind, Except.bind, Pure.pure, Except.pure, RelationView.told]

theorem iterate_afterDeletion {deletion : RowDeletion} (owned : unit.ownerKey view = .ok (some key))
    (pointing : unit.Pointing view deletion key)
    (held : unit.store.records.get? deletion.row = some record)
    (resolved : (unit.store.resolve? record.identity).isNone = false)
    (loaded : view.members? = some members) (count : Nat) :
    (unit.afterDeletion deletion)^[count] view =
      view.withMembers ((List.erase · record.identity)^[count] members) := by
  refine RelationView.iterate_withMembers loaded (fun others => ?_) count
  have owned' : unit.ownerKey (view.withMembers others) = .ok (some key) := by simpa using owned
  have pointing' : unit.Pointing (view.withMembers others) deletion key := by
    simpa only [Pointing, RelationView.relation_withMembers] using pointing
  rw [afterDeletion_of_pointing owned' pointing' held resolved
    (RelationView.members?_of_loaded loaded others), RelationView.withMembers_withMembers]

theorem iterate_membersHearing_ne {change : ColumnChange} {identity : ObjectIdentity} {count : Nat} :
    (unit.membersHearing view key change identity)^[count] members ≠ members ↔
      count ≠ 0 ∧ change.column = view.relation.childKey ∧ ¬unit.SelfReferring change identity ∧
        (change.proposed = key ∧ identity ∉ members ∨
          change.proposed ≠ key ∧ change.current = key ∧ identity ∈ members) := by
  by_cases unmoved : change.column ≠ view.relation.childKey ∨ unit.SelfReferring change identity
  · have still : unit.membersHearing view key change identity members = members := by
      rw [membersHearing, if_pos unmoved]
    rw [Function.iterate_fixed still]
    have excluded : ¬(change.column = view.relation.childKey ∧ ¬unit.SelfReferring change identity) :=
      fun ⟨foreign, apart⟩ => unmoved.elim (absurd foreign) (absurd · apart)
    tauto
  · obtain ⟨foreign, apart⟩ := not_or.mp unmoved
    rw [ne_eq, not_not] at foreign
    by_cases joins : change.proposed = key
    · have heard : unit.membersHearing view key change identity = (joined · identity) := by
        funext others
        rw [membersHearing, if_neg unmoved, if_pos joins]
      rw [heard, iterate_joined]
      by_cases none : count = 0 <;> by_cases member : identity ∈ members <;>
        simp [none, member, joins, foreign, apart, joined]
    · by_cases leaves : change.current = key
      · have heard : unit.membersHearing view key change identity = (List.erase · identity) := by
          funext others
          rw [membersHearing, if_neg unmoved, if_neg joins, if_pos leaves]
        rw [heard, iterate_erase_ne]
        simp [joins, leaves, foreign, apart]
      · have still : unit.membersHearing view key change identity members = members := by
          rw [membersHearing, if_neg unmoved, if_neg joins, if_neg leaves]
        rw [Function.iterate_fixed still]
        simp [joins, leaves]

variable {calls : Callbacks σ} {row : RowId} {column : String} {value : Value} {change : ColumnChange}
  {place : Nat} {deletion : RowDeletion}

theorem writeColumn_quiet (found : unit.changeOf row column value = .ok (change, place))
    (quiet : ∀ key, .listener key ∈ unit.channels.subscribers .columnChanging change.table →
      (calls.columnChanging key change).Quiet) (memory : σ) :
    ∃ result after kept, Cache.writeColumn calls row column value unit memory =
        some ⟨result, after, kept⟩ ∧
      (result = .ok () ∧ after = unit.changed change place ∨ ∃ fault, result = .error fault ∧
        after = unit.toldOfChange change (acceptingChange calls change unit memory)) := by
  obtain ⟨result, heard, rest, kept, accepted, split, announced, ends⟩ :=
    announceChange_quiet unit calls change quiet memory
  rcases ends with ⟨rfl, rfl⟩ | ⟨fault, failing, later, rfl, -, -⟩
  · rw [List.append_nil] at split
    subst split
    exact ⟨.ok (), _, kept, writeColumn_of_announced found announced, .inl ⟨rfl, rfl⟩⟩
  · refine ⟨.error fault, _, kept, ?_, .inr ⟨fault, rfl, by rw [accepted]⟩⟩
    unfold Cache.writeColumn
    rw [Action.ask_bind_of_ok found]
    exact Action.bind_of_error announced _

theorem writeColumn_refused (quiet : calls.Quiet) {memory kept : σ} {fault : Fault}
    {after : UnitOfWork}
    (failed : Cache.writeColumn calls row column value unit memory = some ⟨.error fault, after, kept⟩) :
    after = unit ∧ (∀ change place, unit.changeOf row column value ≠ .ok (change, place)) ∨
      ∃ change place, unit.changeOf row column value = .ok (change, place) ∧
        after = unit.toldOfChange change (acceptingChange calls change unit memory) := by
  cases found : unit.changeOf row column value with
  | error fault =>
    unfold Cache.writeColumn at failed
    -- What is not announced reaches no view.
    rw [Action.ask_bind_of_error found] at failed
    cases failed
    exact .inl ⟨rfl, fun _ _ => nofun⟩
  | ok answer =>
    obtain ⟨change, place⟩ := answer
    obtain ⟨result, outcome, last, ran, ends⟩ :=
      writeColumn_quiet found (fun key _ => quiet.columnChanging key change) memory
    cases ran.symm.trans failed
    rcases ends with ⟨impossible, -⟩ | ⟨fault, -, left⟩
    · cases impossible
    · exact .inr ⟨change, place, rfl, left⟩

theorem deleteRow_refused (quiet : calls.Quiet) {memory kept : σ} {fault : Fault} {after : UnitOfWork}
    (failed : Cache.deleteRow calls row unit memory = some ⟨.error fault, after, kept⟩) :
    after = unit ∧ (∀ deletion, unit.deletionOf row ≠ .ok deletion) ∨
      ∃ deletion, unit.deletionOf row = .ok deletion ∧
        after = unit.toldOfDeletion deletion (acceptingDeletion calls deletion unit memory) := by
  unfold Cache.deleteRow at failed
  cases found : unit.deletionOf row with
  | error fault =>
    rw [Action.ask_bind_of_error found] at failed
    cases failed
    exact .inl ⟨rfl, fun _ => nofun⟩
  | ok deletion =>
    rw [Action.ask_bind_of_ok found] at failed
    obtain ⟨result, heard, rest, between, accepted, -, announced, ends⟩ :=
      announceDeletion_quiet unit calls deletion (fun key _ => quiet.rowDeleting key deletion) memory
    rcases ends with ⟨rfl, -⟩ | ⟨fault, failing, later, rfl, -, -⟩
    · obtain ⟨record, held, -, -⟩ := deletionOf_eq_ok.mp found
      have applied : (unit.toldOfDeletion deletion heard).applyDeletion row = .ok _ :=
        applyDeletion_eq_ok.mpr ⟨record, held, rfl⟩
      rw [Action.bind_of_ok announced, Action.ask_bind_of_ok applied] at failed
      cases failed
    · rw [Action.bind_of_error announced] at failed
      cases failed
      exact .inr ⟨deletion, rfl, by rw [accepted]⟩

structure Breakoff (calls : Callbacks σ) (row : RowId) (values : List (String × Value))
    (unit : UnitOfWork) (memory : σ) where
  done : List (String × Value)
  column : String
  value : Value
  rest : List (String × Value)
  between : UnitOfWork
  halfway : σ
  fault : Fault
  after : UnitOfWork
  kept : σ
  split : values = done ++ (column, value) :: rest
  wrote : Cache.writeColumns calls row done unit memory = some ⟨.ok (), between, halfway⟩
  failed : Cache.writeColumn calls row column value between halfway = some ⟨.error fault, after, kept⟩

namespace Breakoff

variable {values : List (String × Value)} {memory : σ}

def cons {between : UnitOfWork} {halfway : σ}
    (wrote : Cache.writeColumn calls row column value unit memory = some ⟨.ok (), between, halfway⟩)
    (broken : Breakoff calls row values between halfway) :
    Breakoff calls row ((column, value) :: values) unit memory :=
  { broken with
    done := (column, value) :: broken.done
    split := congrArg _ broken.split
    wrote := (Action.bind_of_ok wrote _).trans broken.wrote }

theorem ran (broken : Breakoff calls row values unit memory) :
    Cache.writeColumns calls row values unit memory =
      some ⟨.error broken.fault, broken.after, broken.kept⟩ := by
  obtain ⟨done, column, value, rest, between, halfway, fault, after, kept, rfl, wrote, failed⟩ := broken
  induction done generalizing unit memory with
  | nil =>
    cases wrote
    exact Action.bind_of_error failed _
  | cons entry done ih =>
    rcases Action.bind_eq_some.mp wrote with ⟨_, first, middle, begun, onwards⟩ | ⟨_, _, _, _, same⟩
    · exact (Action.bind_of_ok begun _).trans (ih onwards)
    · cases same

end Breakoff

theorem writeColumns_quiet (quiet : calls.Quiet) (row : RowId) (values : List (String × Value))
    (unit : UnitOfWork) (memory : σ) :
    (∃ after kept, Cache.writeColumns calls row values unit memory = some ⟨.ok (), after, kept⟩ ∧
      Written row values unit after) ∨ Nonempty (Breakoff calls row values unit memory) := by
  induction values generalizing unit memory with
  | nil => exact .inl ⟨unit, memory, rfl, .nil unit⟩
  | cons entry rest ih =>
    obtain ⟨column, value⟩ := entry
    cases found : unit.changeOf row column value with
    | error fault =>
      have failed : Cache.writeColumn calls row column value unit memory =
          some ⟨.error fault, unit, memory⟩ := by
        unfold Cache.writeColumn
        rw [Action.ask_bind_of_error found]
      exact .inr ⟨⟨[], column, value, rest, unit, memory, fault, unit, memory, rfl, rfl, failed⟩⟩
    | ok answer =>
      obtain ⟨change, place⟩ := answer
      obtain ⟨result, after, kept, wrote, ⟨rfl, rfl⟩ | ⟨fault, rfl, -⟩⟩ :=
        writeColumn_quiet found (fun key _ => quiet.columnChanging key change) memory
      · rcases ih (unit.changed change place) kept with ⟨last, kept', ran, written⟩ | ⟨⟨broken⟩⟩
        · exact .inl ⟨last, kept', (Action.bind_of_ok wrote _).trans ran, .cons found written⟩
        · exact .inr ⟨broken.cons wrote⟩
      · exact .inr ⟨⟨[], column, value, rest, unit, memory, fault, after, kept, rfl, rfl, wrote⟩⟩

def Breakoff.resumed {values : List (String × Value)} {memory : σ}
    (broken : Breakoff calls row values unit memory) (outer : Option RowId) : UnitOfWork :=
  { broken.after with inserting := outer }

theorem Breakoff.insertRow (quiet : calls.Quiet) {name table : String}
    {values pending : List (String × Value)} {memory : σ} {started : UnitOfWork}
    (begun : unit.beginInsert name values = .ok ((row, table, pending), started))
    (broken : Breakoff calls row pending started memory) :
    ∃ kept, Cache.insertRow calls name values unit memory = some ⟨.error broken.fault,
      ((broken.resumed unit.inserting).toldOfDeletion ⟨row, table, .fresh⟩
        (acceptingDeletion calls ⟨row, table, .fresh⟩ (broken.resumed unit.inserting)
          broken.kept)).forget row, kept⟩ := by
  obtain ⟨result, heard, rest, kept, accepted, -, announced, -⟩ :=
    announceDeletion_quiet (broken.resumed unit.inserting) calls ⟨row, table, .fresh⟩
      (fun key _ => quiet.rowDeleting key _) broken.kept
  have looked : Action.look unit memory = some ⟨.ok unit, unit, memory⟩ := rfl
  have abandoned : abandonInsert calls row table (broken.resumed unit.inserting) broken.kept =
      some ⟨.ok (), ((broken.resumed unit.inserting).toldOfDeletion ⟨row, table, .fresh⟩ heard).forget row,
        kept⟩ :=
    Action.bind_of_ok (Action.attempt_of_some announced) _
  rw [accepted]
  refine ⟨kept, ?_⟩
  unfold Cache.insertRow
  rw [Action.bind_of_ok looked, Action.ask_bind_of_ok begun]
  refine (Action.bind_of_ok (Action.attempt_of_some broken.ran) _).trans ?_
  exact Action.bind_of_ok abandoned _

theorem insertRow_refused (quiet : calls.Quiet) {name : String} {values : List (String × Value)}
    {memory kept : σ} {fault : Fault} {after : UnitOfWork}
    (failed : Cache.insertRow calls name values unit memory = some ⟨.error fault, after, kept⟩) :
    after = unit ∧ (∀ answer, unit.beginInsert name values ≠ .ok answer) ∨
      ∃ row table pending started, unit.beginInsert name values = .ok ((row, table, pending), started) ∧
        Nonempty (Breakoff calls row pending started memory) := by
  have looked : Action.look unit memory = some ⟨.ok unit, unit, memory⟩ := rfl
  cases begun : unit.beginInsert name values with
  | error fault =>
    unfold Cache.insertRow at failed
    rw [Action.bind_of_ok looked, Action.ask_bind_of_error begun] at failed
    cases failed
    exact .inl ⟨rfl, fun _ => nofun⟩
  | ok answer =>
    obtain ⟨⟨row, table, pending⟩, started⟩ := answer
    refine .inr ⟨row, table, pending, started, rfl, ?_⟩
    rcases writeColumns_quiet quiet row pending started memory with ⟨last, between, ran, -⟩ | broken
    · cases (insertRow_of_written begun ran).symm.trans failed
    · exact broken

variable {id : ViewId} {after : UnitOfWork} {memory kept : σ} {fault : Fault} {model : Model}

theorem members?_of_found (found : unit.views.get? id = some view)
    (loaded : view.members? = some members) : unit.members? id = some members := by
  rw [members?, found]
  exact loaded

theorem members?_tellViews (found : unit.views.get? id = some view)
    (patch : RelationView → RelationView) (heard : List Subscriber) :
    UnitOfWork.members? { unit with views := tellViews patch heard unit.views } id =
      (patch^[heard.count (.view id)] view).members? := by
  change ((tellViews patch heard unit.views).get? id).bind _ = _
  rw [get?_tellViews, found]
  rfl

theorem members?_toldOfChange_ne (found : unit.views.get? id = some view)
    (loaded : view.members? = some members)
    (held : unit.store.records.get? change.row = some record) (heard : List Subscriber) :
    (unit.toldOfChange change heard).members? id ≠ some members ↔
      ∃ key, unit.ownerKey view = .ok (some key) ∧ .view id ∈ heard ∧
        change.column = view.relation.childKey ∧ ¬unit.SelfReferring change record.identity ∧
          (change.proposed = key ∧ record.identity ∉ members ∨
            change.proposed ≠ key ∧ change.current = key ∧ record.identity ∈ members) := by
  rw [toldOfChange, members?_tellViews found]
  by_cases owned : ∃ key, unit.ownerKey view = .ok (some key)
  · obtain ⟨key, owned⟩ := owned
    rw [iterate_afterChange owned held loaded, RelationView.members?_of_loaded loaded, ne_eq,
      Option.some.injEq, ← ne_eq, iterate_membersHearing_ne, Nat.ne_zero_iff_zero_lt, List.count_pos_iff]
    constructor
    · intro trace
      exact ⟨key, owned, trace⟩
    · rintro ⟨other, same, trace⟩
      cases owned.symm.trans same
      exact trace
  · have unowned (key : Value) : unit.ownerKey view ≠ .ok (some key) := fun found => owned ⟨key, found⟩
    rw [Function.iterate_fixed (afterChange_of_unowned unowned change), loaded]
    constructor
    · intro moved
      exact absurd rfl moved
    · rintro ⟨key, found, _⟩
      exact absurd found (unowned key)

theorem members?_toldOfDeletion (deletion : RowDeletion) (found : unit.views.get? id = some view)
    (loaded : view.members? = some members)
    (held : unit.store.records.get? deletion.row = some record)
    (resolved : (unit.store.resolve? record.identity).isNone = false) (heard : List Subscriber) :
    ∃ count, (unit.toldOfDeletion deletion heard).members? id =
        some ((List.erase · record.identity)^[count] members) ∧
      (count ≠ 0 ↔ ∃ key, unit.ownerKey view = .ok (some key) ∧ unit.Pointing view deletion key ∧
        .view id ∈ heard) := by
  rw [toldOfDeletion, members?_tellViews found]
  by_cases related : ∃ key, unit.ownerKey view = .ok (some key) ∧ unit.Pointing view deletion key
  · obtain ⟨key, owned, pointing⟩ := related
    refine ⟨heard.count (.view id), ?_, ?_⟩
    · rw [iterate_afterDeletion owned pointing held resolved loaded, RelationView.members?_of_loaded loaded]
    · rw [Nat.ne_zero_iff_zero_lt, List.count_pos_iff]
      constructor
      · intro heard
        exact ⟨key, owned, pointing, heard⟩
      · rintro ⟨_, _, _, heard⟩
        exact heard
  · have still : unit.afterDeletion deletion view = view := by
      by_cases owned : ∃ key, unit.ownerKey view = .ok (some key)
      · obtain ⟨key, owned⟩ := owned
        exact afterDeletion_of_not_pointing owned fun pointing => related ⟨key, owned, pointing⟩
      · exact afterDeletion_of_unowned (fun key found => owned ⟨key, found⟩) deletion
    refine ⟨0, by rw [Function.iterate_fixed still, loaded]; rfl, ?_⟩
    simp only [ne_eq, not_true_eq_false, false_iff]
    rintro ⟨key, owned, pointing, _⟩
    exact related ⟨key, owned, pointing⟩

theorem mem_afterChange (held : unit.store.records.get? change.row = some record)
    {later : List ObjectIdentity} (loaded : (unit.afterChange change view).members? = some later)
    {identity : ObjectIdentity} (listed : identity ∈ later) :
    identity = record.identity ∨ ∃ earlier, view.members? = some earlier ∧ identity ∈ earlier := by
  by_cases owned : ∃ key, unit.ownerKey view = .ok (some key)
  · obtain ⟨key, owned⟩ := owned
    obtain ⟨-, same⟩ := RelationView.Repeopled.alike (unit.afterChange_eq change view)
    rw [loaded, Option.isSome_some, eq_comm, Option.isSome_iff_exists] at same
    obtain ⟨earlier, already⟩ := same
    rw [afterChange_of_owned owned held already, RelationView.members?_of_loaded already] at loaded
    cases loaded
    split at listed
    · exact .inr ⟨earlier, already, listed⟩
    split at listed
    · rcases mem_joined.mp listed with before | own
      · exact .inr ⟨earlier, already, before⟩
      · exact .inl own
    split at listed
    · exact .inr ⟨earlier, already, List.mem_of_mem_erase listed⟩
    · exact .inr ⟨earlier, already, listed⟩
  · rw [afterChange_of_unowned (fun key found => owned ⟨key, found⟩)] at loaded
    exact .inr ⟨later, loaded, listed⟩

theorem mem_of_mem_iterate_erase {identity other : ObjectIdentity} {count : Nat}
    (listed : identity ∈ (List.erase · other)^[count] members) : identity ∈ members := by
  induction count generalizing members with
  | zero => exact listed
  | succ count ih =>
    rw [Function.iterate_succ_apply] at listed
    exact List.mem_of_mem_erase (ih listed)

end UnitOfWork

end RelationalMapper.Cache
