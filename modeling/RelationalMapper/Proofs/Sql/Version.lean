import RelationalMapper.Proofs.Sql.Matching

set_option autoImplicit false

namespace RelationalMapper

def Column.locked (column : Column) : Bool :=
  match column.lockStrategy with
  | .ok .none => false
  | _ => true

namespace Sql

theorem values_of_assignments {entity : Entity} {row : RowReader} {columns : List Column}
    {assignments : List (String × Operand)}
    (assigned : columns.mapM (assignment entity row) = .ok assignments) :
    assignments.map (some ·.2.value) = columns.map (row.value? ·.name .current) := by
  have each := Except.mapM_eq_ok.mp assigned
  clear assigned
  induction each with
  | nil => rfl
  | cons here _ ih =>
    obtain ⟨found, read, same⟩ := Except.bind_eq_ok.mp here
    cases same
    rw [List.map_cons, List.map_cons, ih, operand_eq_ok read]

theorem values_of_locks {entity : Entity} {row : RowReader} {columns : List Column}
    {locks : List (LockMatch Operand)} (matched : lockMatches entity row columns = .ok locks) :
    locks.map (some ·.operand.value) =
      (columns.filter (·.locked)).map (row.value? ·.name .original) := by
  induction columns generalizing locks with
  | nil =>
    cases matched
    rfl
  | cons column rest ih =>
    rw [lockMatches] at matched
    obtain ⟨strategy, declared, matched⟩ := Except.bind_eq_ok.mp matched
    split at matched
    next unused =>
      have skipped : column.locked = false := by
        cases strategy <;> simp_all [LockStrategy.operator?, Column.locked]
      rw [List.filter_cons_of_neg (by simp [skipped])]
      exact ih matched
    next operator spelt =>
      obtain ⟨original, read, matched⟩ := Except.bind_eq_ok.mp matched
      obtain ⟨later, each, matched⟩ := Except.bind_eq_ok.mp matched
      cases matched
      have taken : column.locked = true := by
        cases strategy <;> simp_all [LockStrategy.operator?, Column.locked]
      rw [List.filter_cons_of_pos taken, List.map_cons, List.map_cons, ih each, operand_eq_ok read]

theorem Statement.values_command (statement : Statement Operand) (writer : Writer) (quoting : Bool) :
    (statement.command writer quoting).parameters.map (some ·.value) =
      statement.operands.map (some ·.value) := by
  have values := congrArg (List.map (some ·.value)) (Binder.operands_bindAll .empty statement.operands)
  rw [List.map_map] at values
  exact values

variable {compiler : Compiler} {row : RowReader} {command : Command} {entity : Entity}

theorem values_of_update (compiled : compiler.update row = .ok command)
    (known : compiler.model.entity row.entity = .ok entity) :
    command.parameters.map (some ·.value) =
      (entity.columns.filter (!·.generated)).map (row.value? ·.name .current) ++
        (entity.columns.filter (·.locked)).map (row.value? ·.name .original) := by
  obtain ⟨statement, built, rfl⟩ := finish_eq_ok compiled
  obtain ⟨entity', assignments, locks, known', assigned, guarded, rfl⟩ := updateStatement_parts built
  cases known.symm.trans known'
  rw [Statement.values_command, ← values_of_assignments assigned,
    ← values_of_locks (guards_eq_ok guarded).1]
  simp [Statement.operands, Function.comp_def]

theorem values_of_delete (compiled : compiler.delete row = .ok command)
    (known : compiler.model.entity row.entity = .ok entity) :
    command.parameters.map (some ·.value) =
      (entity.columns.filter (·.locked)).map (row.value? ·.name .original) := by
  obtain ⟨statement, built, rfl⟩ := finish_eq_ok compiled
  obtain ⟨entity', locks, known', guarded, rfl⟩ := deleteStatement_eq_ok built
  cases known.symm.trans known'
  rw [Statement.values_command, ← values_of_locks (guards_eq_ok guarded).1]
  simp [Statement.operands, Function.comp_def]

end Sql

end RelationalMapper
