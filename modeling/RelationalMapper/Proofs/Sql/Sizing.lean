import RelationalMapper.Proofs.Sql.Faults
import RelationalMapper.Proofs.Sql.Guarded

set_option autoImplicit false

namespace RelationalMapper

def Fetch.Sorts (fetch : Fetch) (entity : Entity) (orders : List (Column × SortDirection)) : Prop :=
  List.Forall₂ (fun ordering order => entity.columnOf ordering.property = .ok order.1 ∧
    ordering.direction = order.2) fetch.orderings orders

namespace Sql

namespace Compiler

def columnList (compiler : Compiler) (columns : List Column) : String :=
  ", ".intercalate (columns.map (compiler.shown ·.name))

def orderTerm (compiler : Compiler) (order : Column × SortDirection) : String :=
  compiler.shown order.1.name ++ if order.2 = .descending then " DESC" else ""

-- An order by nothing is not written at all.
def orderList (compiler : Compiler) : List (Column × SortDirection) → String
  | [] => ""
  | orders => " ORDER BY " ++ ", ".intercalate (orders.map compiler.orderTerm)

def Reads (compiler : Compiler) (table : String) (qualifier : Option Qualifier) (source : String) :
    Prop :=
  match qualifier with
  | none => source = " FROM " ++ compiler.shown table
  | some _ => ∃ condition, source = " FROM " ++ compiler.shown table ++ " WHERE " ++ condition

end Compiler

/-- The command counts what the other one selects. -/
structure Command.Sizes (counted selected : Command) (compiler : Compiler) (fetch : Fetch) : Prop where
  parameters : counted.parameters = selected.parameters
  texts : ∃ entity orders source, compiler.model.entity fetch.entity = .ok entity ∧
    fetch.Sorts entity orders ∧ compiler.Reads entity.table fetch.qualifier source ∧
    counted.text = "SELECT COUNT(*)" ++ source ∧
    selected.text = "SELECT " ++ compiler.columnList entity.columns ++ source ++
      compiler.orderList orders ++ fetch.limit.elim "" Writer.limitText

theorem columnList_eq (compiler : Compiler) (columns : List Column) :
    ", ".intercalate ((columns.map (·.name)).map compiler.shown) = compiler.columnList columns := by
  rw [List.map_map]
  rfl

theorem orderList_eq (compiler : Compiler) (orders : List (Column × SortDirection)) :
    Statement.orderText compiler (orders.map fun order => (order.1.name, order.2)) =
      compiler.orderList orders := by
  cases orders with
  | nil => rfl
  | cons first rest =>
    exact congrArg (" ORDER BY " ++ ", ".intercalate ·) List.map_map

theorem reads_sourceText (compiler : Compiler) (parameters : List Parameter) {model : Model} {entity : Entity}
    {qualifier : Option Qualifier} {condition : Option (Condition Operand)}
    (resolved : resolveCondition model entity qualifier = .ok condition) :
    compiler.Reads entity.table qualifier
      (Statement.sourceText compiler parameters entity.table (condition.map (Condition.number 0))) := by
  cases qualifier with
  | none =>
    cases resolved
    exact String.append_empty
  | some qualifier =>
    obtain ⟨built, -, same⟩ := Except.bind_eq_ok.mp resolved
    cases same
    exact ⟨_, (String.append_assoc ..).symm⟩

theorem sorts_of_mapM {entity : Entity} {fetch : Fetch} {orderings : List (String × SortDirection)}
    (ordered : (fetch.orderings.mapM fun ordering => do
      return ((← entity.columnOf ordering.property).name, ordering.direction)) = .ok orderings) :
    ∃ orders, fetch.Sorts entity orders ∧
      orderings = orders.map fun order => (order.1.name, order.2) := by
  have each := Except.mapM_eq_ok.mp ordered
  unfold Fetch.Sorts
  generalize fetch.orderings = asked at each
  clear ordered
  induction each with
  | nil => exact ⟨[], .nil, rfl⟩
  | cons here _ ih =>
    obtain ⟨column, found, same⟩ := Except.bind_eq_ok.mp here
    obtain ⟨orders, later, rfl⟩ := ih
    cases same
    exact ⟨(column, _) :: orders, .cons ⟨found, rfl⟩ later, rfl⟩

section

variable {compiler : Compiler} {fetch : Fetch}

-- The shared part is worked out twice, from the same entity and the same condition.
theorem sizes_of_select {selected : Command} (compiled : compiler.select fetch = .ok selected) :
    ∃ counted, compiler.count fetch = .ok counted ∧ counted.Sizes selected compiler fetch := by
  obtain ⟨statement, built, rfl⟩ := finish_eq_ok compiled
  obtain ⟨entity, condition, orderings, known, resolved, ordered, rfl⟩ := selectStatement_parts built
  obtain ⟨orders, sorts, rfl⟩ := sorts_of_mapM ordered
  have counts : countStatement compiler.model fetch = .ok (.count entity.table condition) :=
    Except.bind_eq_ok.mpr ⟨entity, known, Except.bind_eq_ok.mpr ⟨condition, resolved, rfl⟩⟩
  have reads := reads_sourceText compiler ((Statement.count entity.table condition).command
    compiler.writer compiler.quoting).parameters resolved
  have selects := writes_command compiler (.select (entity.columns.map (·.name)) entity.table condition
    (orders.map fun order => (order.1.name, order.2)) fetch.limit)
  rw [Command.Writes, Statement.number, Statement.text, columnList_eq, orderList_eq] at selects
  exact ⟨_, congrArg compiler.finish counts, rfl, entity, orders, _, known, sorts, reads,
    writes_command compiler (.count entity.table condition), selects⟩

-- The faults of a count are the first ones of the select.
theorem select_fails_of_count {fault : Fault} (failed : compiler.count fetch = .error fault) :
    compiler.select fetch = .error fault := by
  have counted := (countStatement_reports compiler.model fetch).finish compiler
  have selected := (selectStatement_reports compiler.model compiler.writer fetch).finish compiler
  have first := (counted.error_iff fault).mp failed
  refine (selected.error_iff fault).mpr ?_
  rw [Fetch.selectFaults, List.append_assoc, List.head?_append, first, Option.some_or]

end

/-- Whatever can be selected can be counted, with the same parameters and by a text that differs in its
head and ends with the condition; and what keeps it from being counted is why it is not selected. -/
theorem count_sizes_select (compiler : Compiler) (fetch : Fetch) :
    (∀ selected, compiler.select fetch = .ok selected →
      ∃ counted, compiler.count fetch = .ok counted ∧ counted.Sizes selected compiler fetch) ∧
    ∀ fault, compiler.count fetch = .error fault → compiler.select fetch = .error fault :=
  ⟨fun _ => sizes_of_select, fun _ => select_fails_of_count⟩

end Sql

end RelationalMapper
