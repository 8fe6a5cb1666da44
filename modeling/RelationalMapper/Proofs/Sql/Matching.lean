import RelationalMapper.Proofs.Sql.Meaning

set_option autoImplicit false

namespace RelationalMapper

def LockStrategy.Matches (operators : Sql.Operators) : LockStrategy → Value → Value → Prop
  | .equals, stored, original =>
    (stored = .null ∧ original = .null) ∨ operators.Relate "=" stored original
  | .like, stored, original =>
    (stored = .null ∧ original = .null) ∨ operators.Relate "LIKE" stored original
  | .none, _, _ => True

theorem LockStrategy.missing_together {operators : Sql.Operators} {strategy : LockStrategy}
    {stored original : Value} (used : strategy ≠ .none)
    (matched : strategy.Matches operators stored original) : stored = .null ↔ original = .null := by
  cases strategy with
  | none => contradiction
  | equals | like =>
    rcases matched with ⟨rfl, rfl⟩ | ⟨here, there, -⟩
    · rfl
    · exact iff_of_false here there

/-- The column takes part in the row's lock, by this strategy and with this original value. -/
structure RowReader.Locks (row : RowReader) (column : Column) (strategy : LockStrategy)
    (original : Value) : Prop where
  declared : column.lockStrategy = .ok strategy
  used : strategy ≠ .none
  held : row.value? column.name .original = some original

namespace Sql

def coalesce : List Value → Value
  | [] => .null
  | value :: rest => if value = .null then coalesce rest else value

namespace LockMatch

variable {α : Type} (operators : Operators) (argument : α → Value) (stored : StoredRow)

def verdict (lock : LockMatch α) : Truth :=
  (operators.compare lock.operator (stored lock.column) (argument lock.operand)).or
    (.ofBool (coalesce [stored lock.column, argument lock.operand] = .null))

def clause (locks : List (LockMatch α)) : Truth :=
  .all (locks.map (verdict operators argument stored))

theorem verdict_eq_yes {lock : LockMatch α} :
    lock.verdict operators argument stored = .yes ↔
      (stored lock.column = .null ∧ argument lock.operand = .null) ∨
        operators.Relate lock.operator (stored lock.column) (argument lock.operand) := by
  simp only [verdict, coalesce, Truth.or_eq_yes, Operators.compare_eq_yes, Truth.ofBool_eq_yes]
  by_cases here : stored lock.column = .null <;> by_cases there : argument lock.operand = .null <;>
    simp [here, there, Operators.Relate]

theorem verdict_matches (lock : LockMatch α) {strategy : LockStrategy}
    (spelt : strategy.operator? = some lock.operator) :
    lock.verdict operators argument stored = .yes ↔
      strategy.Matches operators (stored lock.column) (argument lock.operand) := by
  rw [verdict_eq_yes]
  cases strategy with
  | equals | like =>
    obtain ⟨column, operator, operand⟩ := lock
    cases spelt
    rfl
  | none => contradiction

theorem clause_numberAll (reading : Nat → Value) (locks : List (LockMatch α)) (bound : Nat)
    (reads : ∀ index operand, (locks.map (·.operand))[index]? = some operand →
      reading (bound + index + 1) = argument operand) :
    clause operators reading stored (numberAll bound locks) = clause operators argument stored locks := by
  induction locks generalizing bound with
  | nil => rfl
  | cons lock rest ih =>
    have first : reading (bound + 1) = argument lock.operand := reads 0 lock.operand rfl
    have later := ih (bound + 1) fun index operand here => by
      have reached := reads (index + 1) operand here
      rwa [show bound + (index + 1) + 1 = bound + 1 + index + 1 by omega] at reached
    simp only [clause, numberAll, List.map_cons, Truth.all_cons, verdict] at later ⊢
    rw [first, later]

end LockMatch

theorem operand_eq_ok {entity : Entity} {row : RowReader} {column : Column} {version : RowVersion}
    {found : Operand} (read : operand entity row column version = .ok found) :
    row.value? column.name version = some found.value := by
  unfold operand at read
  split at read
  next value held =>
    cases read
    exact held
  next => cases read

theorem clause_lockMatches {entity : Entity} {row : RowReader} {columns : List Column}
    {locks : List (LockMatch Operand)} (built : lockMatches entity row columns = .ok locks)
    (operators : Operators) (stored : StoredRow) :
    (∀ column ∈ columns, column.lockStrategy = .ok .none ∨
      ∃ strategy original, row.Locks column strategy original) ∧
    (LockMatch.clause operators (·.value) stored locks = .yes ↔
      ∀ column ∈ columns, ∀ strategy original, row.Locks column strategy original →
        strategy.Matches operators (stored column.name) original) := by
  induction columns generalizing locks with
  | nil =>
    cases built
    simp [LockMatch.clause, Truth.all]
  | cons column rest ih =>
    rw [lockMatches] at built
    obtain ⟨strategy, declared, built⟩ := Except.bind_eq_ok.mp built
    simp only [List.forall_mem_cons]
    split at built
    next unused =>
      have skipped : strategy = .none := by cases strategy <;> simp_all [LockStrategy.operator?]
      obtain ⟨all, means⟩ := ih built
      refine ⟨⟨.inl (skipped ▸ declared), all⟩, means.trans (iff_and_self.mpr ?_)⟩
      intro _ other original locked
      cases declared.symm.trans locked.declared
      exact absurd skipped locked.used
    next operator spelt =>
      obtain ⟨original, read, built⟩ := Except.bind_eq_ok.mp built
      obtain ⟨later, each, built⟩ := Except.bind_eq_ok.mp built
      cases built
      obtain ⟨all, means⟩ := ih each
      have used : strategy ≠ .none := by
        rintro rfl
        cases spelt
      have locked : row.Locks column strategy original.value := ⟨declared, used, operand_eq_ok read⟩
      refine ⟨⟨.inr ⟨strategy, _, locked⟩, all⟩, ?_⟩
      simp only [LockMatch.clause, List.map_cons, Truth.all_cons, Truth.and_eq_yes] at means ⊢
      rw [LockMatch.verdict_matches _ _ _ ⟨column.name, operator, original⟩ spelt, means]
      apply and_congr_left
      intro _
      constructor
      · intro matched other value also
        cases declared.symm.trans also.declared
        cases locked.held.symm.trans also.held
        exact matched
      · intro matched
        exact matched strategy original.value locked

theorem guards_eq_ok {entity : Entity} {row : RowReader} {locks : List (LockMatch Operand)}
    (built : guards entity row = .ok locks) :
    lockMatches entity row entity.columns = .ok locks ∧ locks ≠ [] := by
  obtain ⟨found, matched, built⟩ := Except.bind_eq_ok.mp built
  cases found with
  | nil => cases built
  | cons lock rest =>
    cases built
    exact ⟨matched, by simp⟩

theorem updateStatement_parts {model : Model} {row : RowReader} {statement : Statement Operand}
    (built : updateStatement model row = .ok statement) :
    ∃ entity assignments locks, model.entity row.entity = .ok entity ∧
      (entity.columns.filter (!·.generated)).mapM (assignment entity row) = .ok assignments ∧
      guards entity row = .ok locks ∧ statement = .update entity.table assignments locks := by
  obtain ⟨entity, known, built⟩ := Except.bind_eq_ok.mp built
  obtain ⟨assignments, assigned, built⟩ := Except.bind_eq_ok.mp built
  cases assignments with
  | nil => cases built
  | cons first rest =>
    obtain ⟨locks, guarded, built⟩ := Except.bind_eq_ok.mp built
    cases built
    exact ⟨entity, _, locks, known, assigned, guarded, rfl⟩

theorem updateStatement_eq_ok {model : Model} {row : RowReader} {statement : Statement Operand}
    (built : updateStatement model row = .ok statement) :
    ∃ entity assignments locks, model.entity row.entity = .ok entity ∧
      guards entity row = .ok locks ∧ statement = .update entity.table assignments locks := by
  obtain ⟨entity, assignments, locks, known, -, guarded, same⟩ := updateStatement_parts built
  exact ⟨entity, assignments, locks, known, guarded, same⟩

theorem deleteStatement_eq_ok {model : Model} {row : RowReader} {statement : Statement Operand}
    (built : deleteStatement model row = .ok statement) :
    ∃ entity locks, model.entity row.entity = .ok entity ∧
      guards entity row = .ok locks ∧ statement = .delete entity.table locks := by
  obtain ⟨entity, known, built⟩ := Except.bind_eq_ok.mp built
  obtain ⟨locks, guarded, built⟩ := Except.bind_eq_ok.mp built
  cases built
  exact ⟨entity, locks, known, guarded, rfl⟩

-- The operands of the locks come after whatever else the statement binds.
theorem clause_command {statement : Statement Operand} (writer : Writer) (quoting : Bool)
    {locks : List (LockMatch Operand)} {before : List Operand}
    (operands : statement.operands = before ++ locks.map (·.operand)) (operators : Operators)
    (stored : StoredRow) :
    LockMatch.clause operators ((statement.command writer quoting).argument writer.style) stored
        (LockMatch.numberAll before.length locks) =
      LockMatch.clause operators (·.value) stored locks := by
  apply LockMatch.clause_numberAll
  intro index operand here
  apply argument_command
  rw [operands, List.getElem?_append_right (by omega), Nat.add_sub_cancel_left]
  exact here

theorem numberAll_ne_nil {α : Type} {bound : Nat} {locks : List (LockMatch α)} (present : locks ≠ []) :
    LockMatch.numberAll bound locks ≠ [] := by
  cases locks with
  | nil => contradiction
  | cons lock rest => simp [LockMatch.numberAll]

/-- The clause is there, every column of the entity has its place in the row's lock or none, and the
clause is true of a stored row just if the row matches in all of them. -/
structure Guard (entity : Entity) (row : RowReader) (argument : Nat → Value)
    (locks : List (LockMatch Nat)) : Prop where
  present : locks ≠ []
  declared : ∀ column ∈ entity.columns, column.lockStrategy = .ok .none ∨
    ∃ strategy original, row.Locks column strategy original
  means : ∀ (operators : Operators) (stored : StoredRow),
    LockMatch.clause operators argument stored locks = .yes ↔
      ∀ column ∈ entity.columns, ∀ strategy original, row.Locks column strategy original →
        strategy.Matches operators (stored column.name) original

theorem guard_of_guards {entity : Entity} {row : RowReader} {locks : List (LockMatch Operand)}
    (guarded : guards entity row = .ok locks) (statement : Statement Operand) (writer : Writer)
    (quoting : Bool) (before : List Operand)
    (operands : statement.operands = before ++ locks.map (·.operand)) :
    Guard entity row ((statement.command writer quoting).argument writer.style)
      (LockMatch.numberAll before.length locks) := by
  obtain ⟨matched, present⟩ := guards_eq_ok guarded
  refine ⟨numberAll_ne_nil present, ?_, ?_⟩
  · exact (clause_lockMatches matched (fun _ _ _ => true) (fun _ => .null)).1
  · intro operators stored
    rw [clause_command writer quoting operands]
    exact (clause_lockMatches matched operators stored).2

theorem Guard.not_reached {entity : Entity} {row : RowReader} {argument : Nat → Value}
    {locks : List (LockMatch Nat)} (guard : Guard entity row argument locks) (operators : Operators)
    {stored : StoredRow} {column : Column} (member : column ∈ entity.columns) {strategy : LockStrategy}
    {original : Value} (locked : row.Locks column strategy original)
    (apart : ¬(stored column.name = .null ↔ original = .null)) :
    LockMatch.clause operators argument stored locks ≠ .yes := by
  intro reached
  have matched := (guard.means operators stored).mp reached column member strategy original locked
  exact apart (LockStrategy.missing_together locked.used matched)

/-- An update or delete is guarded by a clause that is true of exactly the stored rows in which every
column of the row's lock matches, and so of none in which just one of the two values is missing. -/
theorem reached_iff_matches {compiler : Compiler} {row : RowReader} {command : Command}
    (compiled : compiler.update row = .ok command ∨ compiler.delete row = .ok command) :
    ∃ entity locks, compiler.model.entity row.entity = .ok entity ∧
      ((compiler.update row = .ok command ∧
          ∃ assignments, command.Writes compiler (.update entity.table assignments locks)) ∨
        (compiler.delete row = .ok command ∧ command.Writes compiler (.delete entity.table locks))) ∧
      Guard entity row (command.argument compiler.writer.style) locks ∧
      ∀ (operators : Operators) (stored : StoredRow), ∀ column ∈ entity.columns,
        ∀ strategy original, row.Locks column strategy original →
          ¬(stored column.name = .null ↔ original = .null) →
          LockMatch.clause operators (command.argument compiler.writer.style) stored locks ≠ .yes := by
  rcases compiled with updated | deleted
  · obtain ⟨statement, built, same⟩ := finish_eq_ok updated
    obtain ⟨entity, assignments, locks, known, guarded, rfl⟩ := updateStatement_eq_ok built
    subst same
    have guard := guard_of_guards guarded (.update entity.table assignments locks) compiler.writer
      compiler.quoting (assignments.map (·.2)) rfl
    rw [List.length_map] at guard
    exact ⟨entity, _, known, .inl ⟨updated, numberPairs 0 assignments, writes_command compiler _⟩, guard,
      fun operators stored column member strategy original => guard.not_reached operators member⟩
  · obtain ⟨statement, built, same⟩ := finish_eq_ok deleted
    obtain ⟨entity, locks, known, guarded, rfl⟩ := deleteStatement_eq_ok built
    subst same
    have guard := guard_of_guards guarded (.delete entity.table locks) compiler.writer
      compiler.quoting [] rfl
    exact ⟨entity, _, known, .inr ⟨deleted, writes_command compiler _⟩, guard,
      fun operators stored column member strategy original => guard.not_reached operators member⟩

-- A line with a note that was missing when the row was read, and a price that takes no part in the lock.
def pricedLines : Model :=
  ⟨[⟨"Line", "lines", [⟨"id", "id", true, false, none⟩, .named "note",
    ⟨"price", "price", false, false, some "none"⟩], []⟩]⟩

def unnotedLine : RowReader :=
  ⟨"Line", fun column _ => some (if column = "id" then .integer 7 else .null)⟩

theorem unnoted_line_reached :
    ∃ command locks,
      (⟨pricedLines, Dialect.postgresql.writer, true⟩ : Compiler).delete unnotedLine = .ok command ∧
        ∀ stored : StoredRow,
          LockMatch.clause (fun _ left right => left = right) (command.argument .numbered) stored locks =
            .yes ↔ stored "id" = .integer 7 ∧ stored "note" = .null := by
  obtain ⟨command, deleted⟩ : ∃ command,
      (⟨pricedLines, Dialect.postgresql.writer, true⟩ : Compiler).delete unnotedLine = .ok command :=
    ⟨_, rfl⟩
  obtain ⟨entity, locks, known, -, guard, -⟩ := reached_iff_matches (.inr deleted)
  cases known
  refine ⟨command, locks, deleted, fun stored => (guard.means _ stored).trans ?_⟩
  constructor
  · intro matched
    obtain ⟨-, impossible⟩ | ⟨-, -, same⟩ :=
      matched _ (.head _) .equals (.integer 7) ⟨rfl, by decide, rfl⟩
    · cases impossible
    obtain ⟨missing, -⟩ | ⟨-, there, -⟩ :=
      matched _ (.tail _ (.head _)) .equals .null ⟨rfl, by decide, rfl⟩
    · exact ⟨of_decide_eq_true same, missing⟩
    · exact absurd rfl there
  · rintro ⟨same, missing⟩ column member strategy original locked
    simp only [List.mem_cons, List.not_mem_nil, or_false] at member
    rcases member with rfl | rfl | rfl
    · cases locked.declared
      cases locked.held
      simp [LockStrategy.Matches, Operators.Relate, same]
    · cases locked.declared
      cases locked.held
      simp [LockStrategy.Matches, Column.named, missing]
    · have unused : (⟨"price", "price", false, false, some "none"⟩ : Column).lockStrategy =
          .ok .none := by decide
      cases unused.symm.trans locked.declared
      exact absurd rfl locked.used

end Sql

end RelationalMapper
