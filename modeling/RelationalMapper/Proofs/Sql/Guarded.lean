import RelationalMapper.Proofs.Sql.Placeholder

set_option autoImplicit false

namespace RelationalMapper

def Column.Declares (column : Column) (strategy : LockStrategy) : Prop :=
  match column.lock with
  | none => strategy = .equals
  | some text => ∃ word ∈ strategy.aliases, Text.sameWord (Text.trim text) word = true

instance (column : Column) (strategy : LockStrategy) : Decidable (column.Declares strategy) := by
  unfold Column.Declares
  split <;> infer_instance

def Entity.written (entity : Entity) : List Column :=
  entity.columns.filter (!·.generated)

def Entity.matched (entity : Entity) : List Column :=
  entity.columns.filter (¬ ·.Declares .none)

/-- There is something to set, and the row has a value for all of it. -/
structure RowReader.Settable (row : RowReader) (entity : Entity) : Prop where
  present : entity.written ≠ []
  offered : ∀ column ∈ entity.written, (row.value? column.name .current).isSome

/-- No column asks for what is no strategy, there is something to match, and the row has an original
value for all of it. -/
structure RowReader.Matchable (row : RowReader) (entity : Entity) : Prop where
  recognised : ∀ column ∈ entity.columns, ∃ strategy, column.Declares strategy
  present : entity.matched ≠ []
  offered : ∀ column ∈ entity.matched, (row.value? column.name .original).isSome

namespace LockStrategy

-- No word stands for two strategies, in whatever case it is written.
theorem eq_of_aliases : ∀ first ∈ all, ∀ second ∈ all, ∀ word ∈ first.aliases,
    ∀ other ∈ second.aliases, Text.sameWord word other = true → first = second := by
  decide

theorem mem_all (strategy : LockStrategy) : strategy ∈ all := by
  cases strategy <;> decide

theorem parse?_eq_some {text : String} {strategy : LockStrategy} :
    parse? text = some strategy ↔
      ∃ word ∈ strategy.aliases, Text.sameWord (Text.trim text) word = true := by
  constructor
  · intro parsed
    simpa using List.find?_some parsed
  · rintro ⟨word, listed, same⟩
    cases parsed : parse? text with
    | none =>
      have spelt := List.find?_eq_none.mp parsed strategy strategy.mem_all
      exact absurd (List.any_eq_true.mpr ⟨word, listed, same⟩) spelt
    | some other =>
      have spelt := List.find?_some parsed
      obtain ⟨word', listed', same'⟩ := List.any_eq_true.mp spelt
      have equal : Text.sameWord word' word = true := by
        simp only [Text.sameWord, beq_iff_eq] at same same' ⊢
        exact same'.symm.trans same
      exact congrArg some (eq_of_aliases other other.mem_all strategy strategy.mem_all word' listed'
        word listed equal)

end LockStrategy

namespace Column

theorem lockStrategy_eq_ok {column : Column} {strategy : LockStrategy} :
    column.lockStrategy = .ok strategy ↔ column.Declares strategy := by
  unfold lockStrategy Declares
  cases column.lock with
  | none => exact ⟨fun same => (Except.ok.inj same).symm, fun same => congrArg Except.ok same.symm⟩
  | some text =>
    dsimp only
    rw [← LockStrategy.parse?_eq_some]
    cases LockStrategy.parse? text <;> simp

theorem declares_unique {column : Column} {strategy other : LockStrategy}
    (declared : column.Declares strategy) (asked : column.Declares other) : strategy = other :=
  Except.ok.inj ((lockStrategy_eq_ok.mpr declared).symm.trans (lockStrategy_eq_ok.mpr asked))

theorem declares_none_iff {column : Column} {strategy : LockStrategy}
    (declared : column.Declares strategy) :
    column.Declares .none ↔ strategy.operator? = Option.none := by
  constructor
  · intro asked
    rw [declares_unique declared asked, LockStrategy.operator?]
  · intro unused
    cases strategy with
    | none => exact declared
    | equals | like => cases unused

def operator (column : Column) : String :=
  if column.Declares .like then "LIKE" else "="

theorem operator_eq {column : Column} {strategy : LockStrategy} {operator : String}
    (declared : column.Declares strategy) (spelt : strategy.operator? = some operator) :
    column.operator = operator := by
  cases strategy with
  | none => cases spelt
  | equals =>
    have other : ¬ column.Declares .like := fun asked => nomatch declares_unique declared asked
    rw [Column.operator, if_neg other]
    exact Option.some.inj spelt
  | like =>
    rw [Column.operator, if_pos declared]
    exact Option.some.inj spelt

end Column

namespace Sql

section

variable {entity : Entity} {row : RowReader} {column : Column} {version : RowVersion}

theorem operand_eq_ok_iff {found : Operand} :
    operand entity row column version = .ok found ↔ GivenBy row version column found := by
  obtain ⟨owner, value⟩ := found
  unfold operand GivenBy
  cases row.value? column.name version with
  | none => simp
  | some held => simp [eq_comm]

theorem exists_givenBy :
    (∃ found, GivenBy row version column found) ↔ (row.value? column.name version).isSome := by
  rw [Option.isSome_iff_exists]
  constructor
  · rintro ⟨found, given⟩
    exact ⟨_, given.2⟩
  · rintro ⟨value, held⟩
    exact ⟨⟨column, value⟩, rfl, held⟩

def Sets (row : RowReader) (column : Column) (pair : String × Operand) : Prop :=
  pair.1 = column.name ∧ GivenBy row .current column pair.2

structure Matches (row : RowReader) (column : Column) (lock : LockMatch Operand) : Prop where
  named : lock.column = column.name
  compared : lock.operator = column.operator
  given : GivenBy row .original column lock.operand

theorem exists_sets :
    (∃ pair, Sets row column pair) ↔ (row.value? column.name .current).isSome := by
  rw [← exists_givenBy]
  exact ⟨fun ⟨pair, _, given⟩ => ⟨pair.2, given⟩, fun ⟨found, given⟩ => ⟨(column.name, found), rfl, given⟩⟩

theorem exists_matches :
    (∃ lock, Matches row column lock) ↔ (row.value? column.name .original).isSome := by
  rw [← exists_givenBy]
  exact ⟨fun ⟨lock, here⟩ => ⟨lock.operand, here.given⟩,
    fun ⟨found, given⟩ => ⟨⟨column.name, column.operator, found⟩, rfl, rfl, given⟩⟩

theorem assignment_eq_ok {pair : String × Operand} :
    assignment entity row column = .ok pair ↔ Sets row column pair := by
  unfold assignment
  rw [Except.bind_eq_ok]
  simp only [operand_eq_ok_iff]
  constructor
  · rintro ⟨found, given, same⟩
    cases same
    exact ⟨rfl, given⟩
  · obtain ⟨name, found⟩ := pair
    rintro ⟨rfl, given⟩
    exact ⟨found, given, rfl⟩

section

variable {rest : List Column} {locks : List (LockMatch Operand)} {strategy : LockStrategy}
  (declared : column.Declares strategy)

include declared

theorem lockMatches_cons_of_none (unused : strategy.operator? = none) :
    lockMatches entity row (column :: rest) = .ok locks ↔ lockMatches entity row rest = .ok locks := by
  rw [lockMatches, Column.lockStrategy_eq_ok.mpr declared]
  change (match strategy.operator? with | none => _ | some operator => _) = _ ↔ _
  rw [unused]

theorem lockMatches_cons_of_some {operator : String} (spelt : strategy.operator? = some operator) :
    lockMatches entity row (column :: rest) = .ok locks ↔
      ∃ lock later, Matches row column lock ∧ lockMatches entity row rest = .ok later ∧
        locks = lock :: later := by
  have compared := Column.operator_eq declared spelt
  rw [lockMatches, Column.lockStrategy_eq_ok.mpr declared]
  change (match strategy.operator? with | none => _ | some operator => _) = _ ↔ _
  rw [spelt]
  simp only [Except.bind_eq_ok, operand_eq_ok_iff]
  constructor
  · rintro ⟨original, given, later, built, same⟩
    cases same
    exact ⟨_, later, ⟨rfl, compared.symm, given⟩, built, rfl⟩
  · rintro ⟨⟨name, operator', original⟩, later, ⟨rfl, rfl, given⟩, built, rfl⟩
    exact ⟨original, given, later, built, by rw [compared]; rfl⟩

end

theorem lockMatches_eq_ok {columns : List Column} {locks : List (LockMatch Operand)} :
    lockMatches entity row columns = .ok locks ↔
      (∀ column ∈ columns, ∃ strategy, column.Declares strategy) ∧
        List.Forall₂ (Matches row) (columns.filter (¬ ·.Declares .none)) locks := by
  induction columns generalizing locks with
  | nil =>
    rw [List.filter_nil, List.forall₂_nil_left_iff]
    exact ⟨fun same => ⟨nofun, (Except.ok.inj same).symm⟩, fun ⟨_, same⟩ => congrArg Except.ok same.symm⟩
  | cons column rest ih =>
    rw [List.forall_mem_cons]
    cases asked : column.lockStrategy with
    | error fault =>
      have undeclared : ¬ ∃ strategy, column.Declares strategy := by
        simp [← Column.lockStrategy_eq_ok, asked]
      refine iff_of_false ?_ fun given => undeclared given.1.1
      simp [lockMatches, asked, Bind.bind, Except.bind]
    | ok strategy =>
      have declared := Column.lockStrategy_eq_ok.mp asked
      have unmatched := Column.declares_none_iff declared
      rw [and_iff_right (⟨strategy, declared⟩ : ∃ strategy, column.Declares strategy)]
      cases spelt : strategy.operator? with
      | none =>
        rw [lockMatches_cons_of_none declared spelt,
          List.filter_cons_of_neg (by simpa using unmatched.mpr spelt)]
        exact ih
      | some operator =>
        have taken : ¬ column.Declares .none := by simp [unmatched, spelt]
        rw [lockMatches_cons_of_some declared spelt, List.filter_cons_of_pos (by simpa using taken),
          List.forall₂_cons_left_iff]
        simp only [ih]
        constructor
        · rintro ⟨lock, later, here, ⟨recognised, each⟩, rfl⟩
          exact ⟨recognised, lock, later, here, each, rfl⟩
        · rintro ⟨recognised, lock, later, here, each, rfl⟩
          exact ⟨lock, later, here, ⟨recognised, each⟩, rfl⟩

theorem guards_eq_ok_iff {locks : List (LockMatch Operand)} : guards entity row = .ok locks ↔
    (∀ column ∈ entity.columns, ∃ strategy, column.Declares strategy) ∧
      List.Forall₂ (Matches row) entity.matched locks ∧ locks ≠ [] := by
  rw [← and_assoc, Entity.matched, ← @lockMatches_eq_ok entity]
  constructor
  · exact guards_eq_ok
  · rintro ⟨built, present⟩
    refine Except.bind_eq_ok.mpr ⟨locks, built, ?_⟩
    cases locks with
    | nil => contradiction
    | cons => rfl

theorem exists_forall₂_ne_nil {α β : Type} {relation : α → β → Prop} {items : List α} :
    (∃ others, List.Forall₂ relation items others ∧ others ≠ []) ↔
      items ≠ [] ∧ ∀ item ∈ items, ∃ other, relation item other := by
  constructor
  · rintro ⟨others, each, present⟩
    refine ⟨fun absent => ?_, fun item member => ?_⟩
    · rw [absent, List.forall₂_nil_left_iff] at each
      exact present each
    · obtain ⟨index, bound, rfl⟩ := List.getElem_of_mem member
      exact ⟨_, each.get bound (each.length_eq ▸ bound)⟩
  · rintro ⟨present, each⟩
    obtain ⟨first, member⟩ := List.exists_mem_of_ne_nil items present
    have : Nonempty β := (each first member).nonempty
    choose! other here using each
    refine ⟨items.map other, ?_, by simpa using present⟩
    rw [List.forall₂_map_right_iff, List.forall₂_same]
    exact here

theorem guards_ok_iff : (∃ locks, guards entity row = .ok locks) ↔ row.Matchable entity := by
  simp only [guards_eq_ok_iff, exists_and_left, exists_forall₂_ne_nil, exists_matches]
  exact ⟨fun ⟨recognised, present, offered⟩ => ⟨recognised, present, offered⟩,
    fun ⟨recognised, present, offered⟩ => ⟨recognised, present, offered⟩⟩

theorem assignments_ok_iff : (∃ assignments, entity.written.mapM (assignment entity row) =
    .ok assignments ∧ assignments ≠ []) ↔ row.Settable entity := by
  simp only [Except.mapM_eq_ok, assignment_eq_ok, exists_forall₂_ne_nil, exists_sets]
  exact ⟨fun ⟨present, offered⟩ => ⟨present, offered⟩, fun ⟨present, offered⟩ => ⟨present, offered⟩⟩

theorem updateStatement_eq_ok_iff {model : Model} {statement : Statement Operand} :
    updateStatement model row = .ok statement ↔ ∃ entity assignments locks,
      model.entity row.entity = .ok entity ∧
      (entity.written.mapM (assignment entity row) = .ok assignments ∧ assignments ≠ []) ∧
      guards entity row = .ok locks ∧ statement = .update entity.table assignments locks := by
  constructor
  · intro built
    obtain ⟨entity, known, built⟩ := Except.bind_eq_ok.mp built
    obtain ⟨assignments, assigned, built⟩ := Except.bind_eq_ok.mp built
    cases assignments with
    | nil => cases built
    | cons first rest =>
      obtain ⟨locks, guarded, same⟩ := Except.bind_eq_ok.mp built
      cases same
      exact ⟨entity, _, locks, known, ⟨assigned, by simp⟩, guarded, rfl⟩
  · rintro ⟨entity, assignments, locks, known, ⟨assigned, present⟩, guarded, rfl⟩
    refine Except.bind_eq_ok.mpr ⟨entity, known, Except.bind_eq_ok.mpr ⟨assignments, assigned, ?_⟩⟩
    cases assignments with
    | nil => contradiction
    | cons first rest => exact Except.bind_eq_ok.mpr ⟨locks, guarded, rfl⟩

theorem deleteStatement_eq_ok_iff {model : Model} {statement : Statement Operand} :
    deleteStatement model row = .ok statement ↔ ∃ entity locks, model.entity row.entity = .ok entity ∧
      guards entity row = .ok locks ∧ statement = .delete entity.table locks := by
  constructor
  · exact deleteStatement_eq_ok
  · rintro ⟨entity, locks, known, guarded, rfl⟩
    exact Except.bind_eq_ok.mpr ⟨entity, known, Except.bind_eq_ok.mpr ⟨locks, guarded, rfl⟩⟩

end

namespace Compiler

def setTerm (compiler : Compiler) (parameter : Parameter) (position : Nat) : String :=
  compiler.shown parameter.column.name ++ " = " ++
    compiler.writer.style.placeholder parameter.name position

def matchTerm (compiler : Compiler) (parameter : Parameter) (position : Nat) : String :=
  let column := compiler.shown parameter.column.name
  let placeholder := compiler.writer.style.placeholder parameter.name position
  "((" ++ column ++ " " ++ parameter.column.operator ++ " " ++ placeholder ++ ") OR (COALESCE(" ++
    column ++ ", " ++ placeholder ++ ") IS NULL))"

def terms (write : Parameter → Nat → String) (separator : String) (parameters : List Parameter)
    (position : Nat) : String :=
  separator.intercalate ((parameters.zipIdx position).map fun (parameter, position) =>
    write parameter position)

def whereClause (compiler : Compiler) (parameters : List Parameter) (position : Nat) : String :=
  " WHERE " ++ terms compiler.matchTerm " AND " parameters position

end Compiler

section

theorem numberPairs_eq_zipIdx {α : Type} (pairs : List (String × α)) (bound : Nat) :
    numberPairs bound pairs =
      (pairs.zipIdx (bound + 1)).map fun (pair, position) => (pair.1, position) := by
  induction pairs generalizing bound with
  | nil => rfl
  | cons pair rest ih => simp [numberPairs, ih]

theorem numberAll_eq_zipIdx {α : Type} (locks : List (LockMatch α)) (bound : Nat) :
    LockMatch.numberAll bound locks = (locks.zipIdx (bound + 1)).map fun (lock, position) =>
      ⟨lock.column, lock.operator, position⟩ := by
  induction locks generalizing bound with
  | nil => rfl
  | cons lock rest ih => simp [LockMatch.numberAll, ih]

theorem intercalate_terms (compiler : Compiler) {α : Type} {relation : α → Parameter → Prop}
    {items : List α} {parameters : List Parameter} (each : List.Forall₂ relation items parameters)
    {known : List Parameter} (before after : List Parameter) (held : known = before ++ parameters ++ after)
    {term : α × Nat → String} {write : Parameter → Nat → String}
    (reads : ∀ item parameter position, relation item parameter →
      compiler.placeholder known position = compiler.writer.style.placeholder parameter.name position →
        term (item, position) = write parameter position)
    (separator : String) :
    separator.intercalate ((items.zipIdx (before.length + 1)).map term) =
      Compiler.terms write separator parameters (before.length + 1) := by
  rw [Compiler.terms]
  congr 1
  induction each generalizing before with
  | nil => rfl
  | @cons item parameter items parameters here _ ih =>
    have named : compiler.placeholder known (before.length + 1) =
        compiler.writer.style.placeholder parameter.name (before.length + 1) := by
      rw [Compiler.placeholder, held]
      simp
    have later := ih (before ++ [parameter]) (by simpa using held)
    rw [List.length_append, List.length_singleton] at later
    rw [List.zipIdx_cons, List.zipIdx_cons, List.map_cons, List.map_cons, later]
    exact congrArg (· :: _) (reads item parameter _ here named)

variable (compiler : Compiler) {row : RowReader} {parameters : List Parameter}

theorem forall₂_parameters {α : Type} {relation : Column → α → Prop} {operand : α → Operand}
    {columns : List Column} {items : List α} (each : List.Forall₂ relation columns items)
    (bound : parameters.map (·.operand) = items.map operand) :
    List.Forall₂ (fun item parameter => (∃ column, relation column item) ∧
      parameter.operand = operand item) items parameters := by
  induction each generalizing parameters with
  | nil =>
    cases List.map_eq_nil_iff.mp bound
    exact .nil
  | cons here _ ih =>
    obtain ⟨parameter, rest, rfl, same, bound⟩ := List.map_eq_cons_iff.mp bound
    exact .cons ⟨⟨_, here⟩, same⟩ (ih bound)

theorem assignmentText_eq (after : List Parameter) {columns : List Column}
    {assignments : List (String × Operand)} (each : List.Forall₂ (Sets row) columns assignments)
    (bound : parameters.map (·.operand) = assignments.map (·.2)) :
    ", ".intercalate ((numberPairs 0 assignments).map fun (column, position) =>
        compiler.shown column ++ " = " ++ compiler.placeholder (parameters ++ after) position) =
      Compiler.terms compiler.setTerm ", " parameters 1 := by
  have related : List.Forall₂ (fun pair parameter => pair.1 = parameter.column.name)
      assignments parameters := by
    refine (forall₂_parameters each bound).imp ?_
    rintro pair parameter ⟨⟨column, named, owner, -⟩, same⟩
    rw [named, ← owner, ← same, Parameter.operand]
  rw [numberPairs_eq_zipIdx, List.map_map]
  refine intercalate_terms compiler related [] after rfl ?_ ", "
  rintro ⟨name, found⟩ parameter position rfl named
  rw [List.nil_append] at named
  simp only [Function.comp_apply, named, Compiler.setTerm]

theorem guardText_eq (before : List Parameter) {columns : List Column}
    {locks : List (LockMatch Operand)} (each : List.Forall₂ (Matches row) columns locks) (present : locks ≠ [])
    (bound : parameters.map (·.operand) = locks.map (·.operand)) :
    Statement.guardText compiler (before ++ parameters) (LockMatch.numberAll before.length locks) =
      compiler.whereClause parameters (before.length + 1) := by
  have related : List.Forall₂ (fun lock parameter => lock.column = parameter.column.name ∧
      lock.operator = parameter.column.operator) locks parameters := by
    refine (forall₂_parameters each bound).imp ?_
    rintro lock parameter ⟨⟨column, named, compared, owner, -⟩, same⟩
    rw [named, compared, ← owner, ← same, Parameter.operand]
    exact ⟨rfl, rfl⟩
  have clause : Statement.guardText compiler (before ++ parameters)
      (LockMatch.numberAll before.length locks) = " WHERE " ++ " AND ".intercalate
        ((LockMatch.numberAll before.length locks).map (·.text compiler (before ++ parameters))) := by
    cases locks with
    | nil => contradiction
    | cons lock rest => rfl
  rw [clause, numberAll_eq_zipIdx, List.map_map, Compiler.whereClause]
  refine congrArg (" WHERE " ++ ·)
    (intercalate_terms compiler related before [] (List.append_nil _).symm ?_ " AND ")
  rintro lock parameter position ⟨column, operator⟩ named
  simp only [Function.comp_apply, LockMatch.text, named, Compiler.matchTerm, column, operator]

theorem givenBy_assignments {columns : List Column} {assignments : List (String × Operand)}
    (each : List.Forall₂ (Sets row) columns assignments) :
    List.Forall₂ (GivenBy row .current) columns (assignments.map (·.2)) :=
  List.forall₂_map_right_iff.mpr (each.imp fun _ _ sets => sets.2)

theorem givenBy_locks {columns : List Column} {locks : List (LockMatch Operand)}
    (each : List.Forall₂ (Matches row) columns locks) :
    List.Forall₂ (GivenBy row .original) columns (locks.map (·.operand)) :=
  List.forall₂_map_right_iff.mpr (each.imp fun _ _ here => here.given)

end

section

variable {compiler : Compiler} {row : RowReader} {command : Command}

theorem update_ok_iff : (∃ command, compiler.update row = .ok command) ↔
    ∃ entity, compiler.model.entity row.entity = .ok entity ∧
      row.Settable entity ∧ row.Matchable entity := by
  constructor
  · rintro ⟨command, compiled⟩
    obtain ⟨statement, built, -⟩ := finish_eq_ok compiled
    obtain ⟨entity, assignments, locks, known, assigned, guarded, -⟩ :=
      updateStatement_eq_ok_iff.mp built
    exact ⟨entity, known, assignments_ok_iff.mp ⟨_, assigned⟩, guards_ok_iff.mp ⟨_, guarded⟩⟩
  · rintro ⟨entity, known, settable, matchable⟩
    obtain ⟨assignments, assigned⟩ := assignments_ok_iff.mpr settable
    obtain ⟨locks, guarded⟩ := guards_ok_iff.mpr matchable
    have built := updateStatement_eq_ok_iff.mpr
      ⟨entity, assignments, locks, known, assigned, guarded, rfl⟩
    exact ⟨_, congrArg compiler.finish built⟩

theorem delete_ok_iff : (∃ command, compiler.delete row = .ok command) ↔
    ∃ entity, compiler.model.entity row.entity = .ok entity ∧ row.Matchable entity := by
  constructor
  · rintro ⟨command, compiled⟩
    obtain ⟨statement, built, -⟩ := finish_eq_ok compiled
    obtain ⟨entity, locks, known, guarded, -⟩ := deleteStatement_eq_ok built
    exact ⟨entity, known, guards_ok_iff.mp ⟨_, guarded⟩⟩
  · rintro ⟨entity, known, matchable⟩
    obtain ⟨locks, guarded⟩ := guards_ok_iff.mpr matchable
    have built := deleteStatement_eq_ok_iff.mpr ⟨entity, locks, known, guarded, rfl⟩
    exact ⟨_, congrArg compiler.finish built⟩

/-- What an update is, with the parameters that it sets and those that it matches. -/
structure Command.Updates (command : Command) (compiler : Compiler) (entity : Entity) (row : RowReader)
    (set matched : List Parameter) : Prop where
  bound : command.parameters = set ++ matched
  current : List.Forall₂ (GivenBy row .current) entity.written (set.map (·.operand))
  original : List.Forall₂ (GivenBy row .original) entity.matched (matched.map (·.operand))
  guarded : matched ≠ []
  text : command.text = "UPDATE " ++ compiler.shown entity.table ++ " SET " ++
    Compiler.terms compiler.setTerm ", " set 1 ++ compiler.whereClause matched (set.length + 1)

structure Command.Deletes (command : Command) (compiler : Compiler) (entity : Entity)
    (row : RowReader) : Prop where
  original : List.Forall₂ (GivenBy row .original) entity.matched (command.parameters.map (·.operand))
  guarded : command.parameters ≠ []
  text : command.text = "DELETE FROM " ++ compiler.shown entity.table ++
    compiler.whereClause command.parameters 1

theorem updates_of_update (compiled : compiler.update row = .ok command) :
    ∃ entity set matched, compiler.model.entity row.entity = .ok entity ∧
      command.Updates compiler entity row set matched := by
  obtain ⟨statement, built, rfl⟩ := finish_eq_ok compiled
  obtain ⟨entity, assignments, locks, known, ⟨assigned, -⟩, guarded, rfl⟩ :=
    updateStatement_eq_ok_iff.mp built
  simp only [Except.mapM_eq_ok, assignment_eq_ok] at assigned
  obtain ⟨-, locked, present⟩ := guards_eq_ok_iff.mp guarded
  have operands : ((Statement.update entity.table assignments locks).command compiler.writer
      compiler.quoting).parameters.map (·.operand) = assignments.map (·.2) ++ locks.map (·.operand) :=
    Binder.operands_bindAll .empty _
  obtain ⟨set, matched, bound, current, original⟩ := List.map_eq_append_iff.mp operands
  refine ⟨entity, set, matched, known, bound, ?_, ?_, ?_, ?_⟩
  · rw [current]
    exact givenBy_assignments assigned
  · rw [original]
    exact givenBy_locks locked
  · rintro rfl
    exact present (List.map_eq_nil_iff.mp original.symm)
  · have length : set.length = assignments.length := by
      simpa using congrArg List.length current
    have writes := writes_command compiler (.update entity.table assignments locks)
    have setting := assignmentText_eq compiler matched assigned current
    have guarding := guardText_eq compiler set locked present original
    rw [length] at guarding
    rw [Command.Writes, bound, Statement.number, Statement.text, setting, guarding] at writes
    rw [writes, length]

theorem deletes_of_delete (compiled : compiler.delete row = .ok command) :
    ∃ entity, compiler.model.entity row.entity = .ok entity ∧
      command.Deletes compiler entity row := by
  obtain ⟨statement, built, rfl⟩ := finish_eq_ok compiled
  obtain ⟨entity, locks, known, guarded, rfl⟩ := deleteStatement_eq_ok built
  obtain ⟨-, locked, present⟩ := guards_eq_ok_iff.mp guarded
  have operands : ((Statement.delete entity.table locks).command compiler.writer
      compiler.quoting).parameters.map (·.operand) = locks.map (·.operand) :=
    Binder.operands_bindAll .empty _
  refine ⟨entity, known, ?_, fun none => ?_, ?_⟩
  · rw [operands]
    exact givenBy_locks locked
  · rw [none] at operands
    exact present (List.map_eq_nil_iff.mp operands.symm)
  · have writes := writes_command compiler (.delete entity.table locks)
    have guarding := guardText_eq compiler [] locked present operands
    rw [List.nil_append, List.length_nil] at guarding
    rw [Command.Writes, Statement.number, Statement.text, guarding] at writes
    exact writes

end

/-- An update can be compiled just if there is something to set and something to match, every column's
strategy is known and the row has the values; a delete, just if all that holds of what it matches. The
command sets every column to be set to its current value and matches every column to be matched with its
original one, each once and in order, and there is always one to match. -/
theorem update_and_delete_complete (compiler : Compiler) (row : RowReader) :
    ((∃ command, compiler.update row = .ok command) ↔
      ∃ entity, compiler.model.entity row.entity = .ok entity ∧
        row.Settable entity ∧ row.Matchable entity) ∧
    ((∃ command, compiler.delete row = .ok command) ↔
      ∃ entity, compiler.model.entity row.entity = .ok entity ∧ row.Matchable entity) ∧
    (∀ command, compiler.update row = .ok command →
      ∃ entity set matched, compiler.model.entity row.entity = .ok entity ∧
        command.Updates compiler entity row set matched) ∧
    ∀ command, compiler.delete row = .ok command →
      ∃ entity, compiler.model.entity row.entity = .ok entity ∧ command.Deletes compiler entity row :=
  ⟨update_ok_iff, delete_ok_iff, fun _ => updates_of_update, fun _ => deletes_of_delete⟩

end Sql

end RelationalMapper
