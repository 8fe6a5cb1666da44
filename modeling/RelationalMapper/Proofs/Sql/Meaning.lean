import RelationalMapper.Proofs.Sql.Logic
import RelationalMapper.Proofs.Sql.Wording

set_option autoImplicit false

namespace RelationalMapper

abbrev StoredRow := String → Value

/-- Tables and their rows. A table has the columns of all entities that it is mapped by, and perhaps
more. -/
structure Database (model : Model) where
  columns : String → List String
  rows : String → List StoredRow
  mapped : ∀ entity ∈ model.entities, ∀ column ∈ entity.columns, column.name ∈ columns entity.table

namespace Database

variable {model : Model} (database : Database model)

def read : List (String × StoredRow) → String → Value
  | [], _ => .null
  | (table, row) :: outer, column =>
    if column ∈ database.columns table then row column else read outer column

theorem read_innermost {entity : Entity} {name : String} {column : Column}
    (member : entity ∈ model.entities) (found : entity.column name = .ok column) (row : StoredRow)
    (outer : List (String × StoredRow)) :
    database.read ((entity.table, row) :: outer) name = row name := by
  obtain ⟨listed, named⟩ := Entity.column_eq_ok found
  rw [read, if_pos (named ▸ database.mapped entity member column listed)]

end Database

section

variable {model : Model} (database : Database model) (operators : Sql.Operators)

namespace Sql.Condition

variable {α : Type} (argument : α → Value)

mutual

def verdict (scope : List (String × StoredRow)) : Condition α → Truth
  | .nullTest column .isNull => .ofBool (database.read scope column = .null)
  | .nullTest column .isNotNull => .ofBool (database.read scope column ≠ .null)
  | .compare column comparison operand =>
    operators.compare comparison.symbol (database.read scope column) (argument operand)
  | .all parts => .all (verdicts scope parts)
  | .any parts => .any (verdicts scope parts)
  | .within key targetKey target inner =>
    -- Only rows of which the inner condition is true are among those to compare with.
    .any (((database.rows target).filter fun row =>
        inner.verdict ((target, row) :: scope) = .yes).map fun row =>
      operators.compare "=" (database.read scope key)
        (database.read ((target, row) :: scope) targetKey))

def verdicts (scope : List (String × StoredRow)) : List (Condition α) → List Truth
  | [] => []
  | part :: rest => part.verdict scope :: verdicts scope rest

end

theorem verdict_within_eq_yes {key targetKey target : String} {inner : Condition α}
    {scope : List (String × StoredRow)} :
    (Condition.within key targetKey target inner).verdict database operators argument scope = .yes ↔
      ∃ row ∈ database.rows target,
        operators.Relate "=" (database.read scope key)
          (database.read ((target, row) :: scope) targetKey) ∧
        inner.verdict database operators argument ((target, row) :: scope) = .yes := by
  simp only [verdict, Truth.any_eq_yes, List.mem_map, List.mem_filter, decide_eq_true_eq,
    Operators.compare_eq_yes]
  constructor
  · rintro ⟨row, ⟨stored, inside⟩, related⟩
    exact ⟨row, stored, related, inside⟩
  · rintro ⟨row, stored, related, inside⟩
    exact ⟨row, ⟨stored, inside⟩, related⟩

mutual

-- Positions in the place of operands change nothing, if each has the value of its operand.
theorem verdict_number (reading : Nat → Value) : ∀ (condition : Condition α) (bound : Nat)
    (scope : List (String × StoredRow)),
    (∀ index operand, condition.operands[index]? = some operand →
      reading (bound + index + 1) = argument operand) →
    (condition.number bound).verdict database operators reading scope =
      condition.verdict database operators argument scope
  | .nullTest column .isNull, _, _, _ => by simp [number, verdict]
  | .nullTest column .isNotNull, _, _, _ => by simp [number, verdict]
  | .compare column comparison operand, bound, scope, reads => by
    have here := reads 0 operand (by simp [operands])
    simp only [number, verdict]
    rw [← here, Nat.add_zero]
  | .all parts, bound, scope, reads => by
    simp only [number, verdict]
    rw [verdicts_numberAll reading parts bound scope (by simpa only [operands] using reads)]
  | .any parts, bound, scope, reads => by
    simp only [number, verdict]
    rw [verdicts_numberAll reading parts bound scope (by simpa only [operands] using reads)]
  | .within key targetKey target inner, bound, scope, reads => by
    simp only [number, verdict]
    have inside := fun row => verdict_number reading inner bound ((target, row) :: scope)
      (by simpa only [operands] using reads)
    simp only [inside]

theorem verdicts_numberAll (reading : Nat → Value) : ∀ (parts : List (Condition α)) (bound : Nat)
    (scope : List (String × StoredRow)),
    (∀ index operand, (operandsOfAll parts)[index]? = some operand →
      reading (bound + index + 1) = argument operand) →
    verdicts database operators reading scope (numberAll bound parts) =
      verdicts database operators argument scope parts
  | [], _, _, _ => rfl
  | part :: rest, bound, scope, reads => by
    simp only [operandsOfAll] at reads
    simp only [numberAll, verdicts]
    have first := verdict_number reading part bound scope fun index operand here =>
      reads index operand (by
        rw [List.getElem?_append_left (List.getElem?_eq_some_iff.mp here).1]
        exact here)
    have later := verdicts_numberAll reading rest (bound + part.operands.length) scope
      fun index operand here => by
        have reached := reads (part.operands.length + index) operand (by
          rw [List.getElem?_append_right (by omega), Nat.add_sub_cancel_left]
          exact here)
        rwa [← Nat.add_assoc bound] at reached
    rw [first, later]

end

end Sql.Condition

def Predicate.Met (predicate : Predicate) (value : Value) : Prop :=
  if predicate.value = .null then
    match predicate.comparison with
    | .equals => value = .null
    | .notEqual => value ≠ .null
    | _ => False
  else operators.Relate predicate.comparison.symbol value predicate.value

/-- Some row at the end of the relations is joined to this one and has the property. -/
def Reaches (finish : Entity → StoredRow → Prop) : Entity → StoredRow → List String → Prop
  | entity, row, [] => finish entity row
  | entity, row, name :: rest => ∃ relation, entity.relation name = .ok relation ∧
    if relation.parent = entity.name then
      ∃ child, model.entity relation.child = .ok child ∧ ∃ other ∈ database.rows child.table,
        operators.Relate "=" (row relation.parentKey) (other relation.childKey) ∧
          Reaches finish child other rest
    else
      ∃ parent, model.entity relation.parent = .ok parent ∧ ∃ other ∈ database.rows parent.table,
        operators.Relate "=" (row relation.childKey) (other relation.parentKey) ∧
          Reaches finish parent other rest

namespace Qualifier

mutual

def Holds (entity : Entity) (row : StoredRow) : Qualifier → Prop
  | .column name predicate => predicate.Met operators (row name)
  | .property name predicate =>
    ∃ column, entity.columnOf name = .ok column ∧ predicate.Met operators (row column.name)
  | .all children => AllHold entity row children
  | .any children => SomeHolds entity row children
  | .path relations terminal =>
    Reaches database operators (fun target other => Holds target other terminal) entity row relations

def AllHold (entity : Entity) (row : StoredRow) : List Qualifier → Prop
  | [] => True
  | child :: rest => child.Holds entity row ∧ AllHold entity row rest

def SomeHolds (entity : Entity) (row : StoredRow) : List Qualifier → Prop
  | [] => False
  | child :: rest => child.Holds entity row ∨ SomeHolds entity row rest

end

end Qualifier

def Sql.Condition.Means (condition : Sql.Condition Sql.Operand) (entity : Entity)
    (property : StoredRow → Prop) : Prop :=
  ∀ row outer, condition.verdict database operators (·.value) ((entity.table, row) :: outer) = .yes ↔
    property row

end

namespace Sql

variable {model : Model} {database : Database model} {operators : Operators}

theorem comparison_means {entity : Entity} {name : String} {column : Column} {predicate : Predicate}
    {condition : Condition Operand} (known : entity ∈ model.entities)
    (found : entity.column name = .ok column) (built : comparison column predicate = .ok condition) :
    condition.Means database operators entity fun row => predicate.Met operators (row name) := by
  intro row outer
  have named : column.name = name := (Entity.column_eq_ok found).2
  have here := database.read_innermost known found row outer
  change _ ↔ predicate.Met operators (row name)
  unfold Predicate.Met
  unfold comparison at built
  split at built
  next absent =>
    rw [if_pos ((Value.isNull_iff _).mp absent)]
    cases kind : predicate.comparison <;> simp only [kind, Comparison.nullTest?] at built <;>
      cases built <;> simp [Condition.verdict, named, here]
  next present =>
    rw [if_neg (mt (Value.isNull_iff _).mpr present)]
    cases built
    rw [Condition.verdict, named, here, Operators.compare_eq_yes]

theorem hop_keys (valid : model.validate = .ok ()) {entity : Entity} {name : String} {hop : Hop}
    (known : model.entity entity.name = .ok entity) (hopped : model.hop entity name = .ok hop) :
    model.entity hop.target.name = .ok hop.target ∧
      (∃ column, entity.column hop.localKey = .ok column) ∧
      ∃ column, hop.target.column hop.targetKey = .ok column := by
  obtain ⟨relation, found, hopped⟩ := Except.bind_eq_ok.mp hopped
  obtain ⟨parent, child, parentColumn, childColumn, parentKnown, childKnown, parentHas, childHas,
    involved⟩ := Model.joins valid (Model.entity_mem known) (Entity.relation_eq_ok found)
  split at hopped
  next stands =>
    obtain ⟨target, targetKnown, hopped⟩ := Except.bind_eq_ok.mp hopped
    cases hopped
    cases childKnown.symm.trans targetKnown
    rw [stands] at parentKnown
    cases known.symm.trans parentKnown
    exact ⟨Model.entity_self childKnown, ⟨parentColumn, parentHas⟩, childColumn, childHas⟩
  next stands =>
    obtain ⟨target, targetKnown, hopped⟩ := Except.bind_eq_ok.mp hopped
    cases hopped
    cases parentKnown.symm.trans targetKnown
    -- An entity that is not the parent can only be the child.
    have other : entity.name = child.name :=
      involved.resolve_left fun same => stands ((Model.entity_name parentKnown).symm.trans same.symm)
    have here := Model.entity_self childKnown
    rw [← other] at here
    cases known.symm.trans here
    exact ⟨Model.entity_self parentKnown, ⟨childColumn, childHas⟩, parentColumn, parentHas⟩

theorem reaches_cons {property : Entity → StoredRow → Prop} {entity : Entity} {row : StoredRow}
    {name : String} {rest : List String} {hop : Hop} (hopped : model.hop entity name = .ok hop) :
    Reaches database operators property entity row (name :: rest) ↔
      ∃ other ∈ database.rows hop.target.table,
        operators.Relate "=" (row hop.localKey) (other hop.targetKey) ∧
        Reaches database operators property hop.target other rest := by
  obtain ⟨relation, found, hopped⟩ := Except.bind_eq_ok.mp hopped
  rw [Reaches]
  split at hopped
  all_goals
    next stands =>
      obtain ⟨target, targetKnown, hopped⟩ := Except.bind_eq_ok.mp hopped
      cases hopped
      simp [found, stands, targetKnown]

theorem along_means (valid : model.validate = .ok ())
    {finish : Entity → Except Fault (Condition Operand)} {property : Entity → StoredRow → Prop}
    (finish_means : ∀ entity condition, model.entity entity.name = .ok entity →
      finish entity = .ok condition → condition.Means database operators entity (property entity))
    (relations : List String) {entity : Entity} {condition : Condition Operand}
    (known : model.entity entity.name = .ok entity)
    (resolved : along model finish entity relations = .ok condition) :
    condition.Means database operators entity fun row =>
      Reaches database operators property entity row relations := by
  induction relations generalizing entity condition with
  | nil => exact finish_means entity condition known resolved
  | cons name rest ih =>
    obtain ⟨hop, hopped, resolved⟩ := Except.bind_eq_ok.mp resolved
    obtain ⟨inner, beyond, resolved⟩ := Except.bind_eq_ok.mp resolved
    cases resolved
    obtain ⟨targetKnown, ⟨localColumn, localHas⟩, targetColumn, targetHas⟩ := hop_keys valid known hopped
    intro row outer
    change _ ↔ Reaches database operators property entity row (name :: rest)
    rw [Condition.verdict_within_eq_yes, reaches_cons hopped]
    apply exists_congr
    intro other
    rw [database.read_innermost (Model.entity_mem known) localHas,
      database.read_innermost (Model.entity_mem targetKnown) targetHas,
      ih targetKnown beyond other]

mutual

-- A condition says of the rows of an entity what the qualifier that it comes from says.
theorem resolve_means (valid : model.validate = .ok ()) : ∀ (qualifier : Qualifier) {entity : Entity}
    {condition : Condition Operand}, model.entity entity.name = .ok entity →
    resolve model entity qualifier = .ok condition →
    condition.Means database operators entity fun row =>
      qualifier.Holds database operators entity row
  | .column name predicate, entity, condition, known, resolved => by
    rw [resolve] at resolved
    obtain ⟨column, found, built⟩ := Except.bind_eq_ok.mp resolved
    simpa only [Qualifier.Holds] using comparison_means (Model.entity_mem known) found built
  | .property name predicate, entity, condition, known, resolved => by
    rw [resolve] at resolved
    obtain ⟨held, property, resolved⟩ := Except.bind_eq_ok.mp resolved
    obtain ⟨column, found, built⟩ := Except.bind_eq_ok.mp resolved
    simpa only [Qualifier.Holds, property, Except.ok.injEq, exists_eq_left'] using
      comparison_means (Model.entity_mem known) found built
  | .all children, entity, condition, known, resolved => by
    rw [resolve] at resolved
    obtain ⟨parts, each, resolved⟩ := Except.bind_eq_ok.mp resolved
    cases resolved
    intro row outer
    simpa only [Condition.verdict, Qualifier.Holds] using
      (resolveAll_means valid children known each row outer).1
  | .any children, entity, condition, known, resolved => by
    rw [resolve] at resolved
    obtain ⟨parts, each, resolved⟩ := Except.bind_eq_ok.mp resolved
    cases resolved
    intro row outer
    simpa only [Condition.verdict, Qualifier.Holds] using
      (resolveAll_means valid children known each row outer).2
  | .path relations terminal, entity, condition, known, resolved => by
    rw [resolve] at resolved
    simpa only [Qualifier.Holds] using along_means valid
      (fun target condition known resolved => resolve_means valid terminal known resolved)
      relations known resolved

theorem resolveAll_means (valid : model.validate = .ok ()) : ∀ (children : List Qualifier)
    {entity : Entity} {parts : List (Condition Operand)}, model.entity entity.name = .ok entity →
    resolveAll model entity children = .ok parts → ∀ row outer,
    (Truth.all (Condition.verdicts database operators (·.value) ((entity.table, row) :: outer) parts) =
        .yes ↔ Qualifier.AllHold database operators entity row children) ∧
      (Truth.any (Condition.verdicts database operators (·.value) ((entity.table, row) :: outer) parts) =
        .yes ↔ Qualifier.SomeHolds database operators entity row children)
  | [], entity, parts, known, resolved, row, outer => by
    cases resolved
    simp [Condition.verdicts, Qualifier.AllHold, Qualifier.SomeHolds, Truth.all, Truth.any]
  | child :: rest, entity, parts, known, resolved, row, outer => by
    rw [resolveAll] at resolved
    obtain ⟨part, here, resolved⟩ := Except.bind_eq_ok.mp resolved
    obtain ⟨later, each, resolved⟩ := Except.bind_eq_ok.mp resolved
    cases resolved
    have first := resolve_means valid child known here row outer
    have others := resolveAll_means valid rest known each row outer
    simp only [Condition.verdicts, Qualifier.AllHold, Qualifier.SomeHolds, Truth.all_cons,
      Truth.any_cons, Truth.and_eq_yes, Truth.or_eq_yes]
    exact ⟨and_congr first others.1, or_congr first others.2⟩

end

/-- The text is that of the statement, in the compiler's dialect and with the command's parameters. -/
def Command.Writes (command : Command) (compiler : Compiler) (statement : Statement Nat) : Prop :=
  command.text = statement.text compiler command.parameters

theorem writes_command (compiler : Compiler) (statement : Statement Operand) :
    (statement.command compiler.writer compiler.quoting).Writes compiler statement.number :=
  (text_command statement).trans statement.number.reading_pieces

def Command.argument (command : Command) (style : PlaceholderStyle) (position : Nat) : Value :=
  (command.bound? style position).elim .null (·.value)

/-- A row is selected if there is no condition, or if the condition is true of it. -/
def Condition.Selects (condition : Option (Condition Nat)) (database : Database model)
    (operators : Operators) (argument : Nat → Value) (table : String) (row : StoredRow) : Prop :=
  ∀ present ∈ condition, present.verdict database operators argument [(table, row)] = .yes

theorem argument_command (statement : Statement Operand) (writer : Writer) (quoting : Bool)
    {index : Nat} {operand : Operand} (written : statement.operands[index]? = some operand) :
    (statement.command writer quoting).argument writer.style (index + 1) = operand.value := by
  have bound := statement.bound?_command writer quoting index
  rw [written, Option.map_eq_some_iff] at bound
  obtain ⟨parameter, found, same⟩ := bound
  rw [Command.argument, found, ← same]
  rfl

theorem selects_resolved (valid : model.validate = .ok ()) {entity : Entity}
    (known : model.entity entity.name = .ok entity) {qualifier : Option Qualifier}
    {condition : Option (Condition Operand)}
    (resolved : resolveCondition model entity qualifier = .ok condition) {argument : Nat → Value}
    (reads : ∀ index operand, (condition.elim [] Condition.operands)[index]? = some operand →
      argument (index + 1) = operand.value) (row : StoredRow) :
    Condition.Selects (condition.map (Condition.number 0)) database operators argument entity.table row ↔
      ∀ present ∈ qualifier, present.Holds database operators entity row := by
  cases qualifier with
  | none =>
    cases resolved
    simp [Condition.Selects]
  | some qualifier =>
    obtain ⟨found, built, same⟩ := Except.bind_eq_ok.mp resolved
    cases same
    have means : found.Means database operators entity fun row =>
        qualifier.Holds database operators entity row := resolve_means valid qualifier known built
    have numbered := found.verdict_number database operators (·.value) argument 0
      [(entity.table, row)] fun index operand here => by
        rw [Nat.zero_add]
        exact reads index operand here
    simpa [Condition.Selects, numbered] using means row []

theorem selectStatement_parts {writer : Writer} {fetch : Fetch} {statement : Statement Operand}
    (built : selectStatement model writer fetch = .ok statement) :
    ∃ entity condition orderings, model.entity fetch.entity = .ok entity ∧
      resolveCondition model entity fetch.qualifier = .ok condition ∧
      (fetch.orderings.mapM fun ordering => do
        return ((← entity.columnOf ordering.property).name, ordering.direction)) = .ok orderings ∧
      statement = .select (entity.columns.map (·.name)) entity.table condition orderings fetch.limit := by
  obtain ⟨entity, known, built⟩ := Except.bind_eq_ok.mp built
  obtain ⟨condition, resolved, built⟩ := Except.bind_eq_ok.mp built
  obtain ⟨orderings, ordered, built⟩ := Except.bind_eq_ok.mp built
  refine ⟨entity, condition, orderings, known, resolved, ordered, ?_⟩
  cases limit : fetch.limit with
  | none =>
    rw [limit] at built
    cases built
    rfl
  | some count =>
    rw [limit] at built
    obtain ⟨_, _, built⟩ := Except.bind_eq_ok.mp built
    cases built
    rfl

theorem selectStatement_eq_ok {writer : Writer} {fetch : Fetch} {statement : Statement Operand}
    (built : selectStatement model writer fetch = .ok statement) :
    ∃ entity condition orderings, model.entity fetch.entity = .ok entity ∧
      resolveCondition model entity fetch.qualifier = .ok condition ∧
      statement = .select (entity.columns.map (·.name)) entity.table condition orderings fetch.limit := by
  obtain ⟨entity, condition, orderings, known, resolved, -, same⟩ := selectStatement_parts built
  exact ⟨entity, condition, orderings, known, resolved, same⟩

theorem countStatement_eq_ok {fetch : Fetch} {statement : Statement Operand}
    (built : countStatement model fetch = .ok statement) :
    ∃ entity condition, model.entity fetch.entity = .ok entity ∧
      resolveCondition model entity fetch.qualifier = .ok condition ∧
      statement = .count entity.table condition := by
  obtain ⟨entity, known, built⟩ := Except.bind_eq_ok.mp built
  obtain ⟨condition, resolved, built⟩ := Except.bind_eq_ok.mp built
  cases built
  exact ⟨entity, condition, known, resolved, rfl⟩

theorem finish_eq_ok {compiler : Compiler} {built : Except Fault (Statement Operand)}
    {command : Command} (finished : compiler.finish built = .ok command) :
    ∃ statement, built = .ok statement ∧
      command = statement.command compiler.writer compiler.quoting := by
  cases built with
  | error fault => cases finished
  | ok statement =>
    cases finished
    exact ⟨statement, rfl, rfl⟩

/-- A select or count reaches exactly the rows that the qualifier of its fetch holds of. -/
theorem selected_iff_holds {compiler : Compiler} (valid : compiler.model.validate = .ok ())
    {fetch : Fetch} {command : Command}
    (compiled : compiler.select fetch = .ok command ∨ compiler.count fetch = .ok command) :
    ∃ entity condition, compiler.model.entity fetch.entity = .ok entity ∧
      ((compiler.select fetch = .ok command ∧ ∃ orderings, command.Writes compiler
          (.select (entity.columns.map (·.name)) entity.table condition orderings fetch.limit)) ∨
        (compiler.count fetch = .ok command ∧ command.Writes compiler (.count entity.table condition))) ∧
      ∀ (database : Database compiler.model) (operators : Operators),
        ∀ row ∈ database.rows entity.table,
          (Condition.Selects condition database operators (command.argument compiler.writer.style)
              entity.table row ↔
            ∀ qualifier ∈ fetch.qualifier, qualifier.Holds database operators entity row) := by
  rcases compiled with selected | counted
  · obtain ⟨statement, built, same⟩ := finish_eq_ok selected
    obtain ⟨entity, condition, orderings, known, resolved, shape⟩ := selectStatement_eq_ok built
    cases shape
    refine ⟨entity, condition.map (Condition.number 0), known,
      .inl ⟨selected, orderings, by rw [same]; exact writes_command compiler (.select _ _ _ _ _)⟩, ?_⟩
    intro database operators row _
    rw [same]
    exact selects_resolved valid (Model.entity_self known) resolved
      (fun index operand written => argument_command (.select _ _ condition orderings _) _ _ written) row
  · obtain ⟨statement, built, same⟩ := finish_eq_ok counted
    obtain ⟨entity, condition, known, resolved, shape⟩ := countStatement_eq_ok built
    cases shape
    refine ⟨entity, condition.map (Condition.number 0), known,
      .inr ⟨counted, by rw [same]; exact writes_command compiler (.count _ _)⟩, ?_⟩
    intro database operators row _
    rw [same]
    exact selects_resolved valid (Model.entity_self known) resolved
      (fun index operand written => argument_command (.count _ condition) _ _ written) row

-- Orders with a note, and their lines.
def notedOrders : Model :=
  ⟨[⟨"Order", "orders", [⟨"id", "id", true, false, none⟩, .named "note"], []⟩,
    ⟨"Line", "lines", [⟨"id", "id", true, false, none⟩, .named "order"],
      [⟨"order", "Order", "Line", "id", "order"⟩]⟩]⟩

def numbered (id : Int64) (other : Value) : StoredRow :=
  fun column => if column = "id" then .integer id else other

-- Order 1 has no note, order 2 has one; line 7 is of order 1, line 8 of order 2, line 9 of none.
def threeLines : Database notedOrders where
  columns table := if table = "orders" then ["id", "note"] else ["id", "order"]
  rows table :=
    if table = "orders" then [numbered 1 .null, numbered 2 (.text "paid")]
    else [numbered 7 (.integer 1), numbered 8 (.integer 2), numbered 9 .null]
  mapped := by decide

-- The lines of orders without a note.
def unnotedLines : Fetch :=
  ⟨"Line", some (.path ["order"] (.column "note" ⟨.equals, .null⟩)), [], none⟩

theorem unnoted_lines_selected :
    notedOrders.validate = .ok () ∧ ∃ command condition,
      (⟨notedOrders, Dialect.ansi.writer, true⟩ : Compiler).select unnotedLines = .ok command ∧
        ∀ row ∈ threeLines.rows "lines",
          (Condition.Selects condition threeLines (fun _ left right => left = right)
            (command.argument .atSign) "lines" row ↔ row "id" = .integer 7) := by
  have valid : notedOrders.validate = .ok () := by decide
  obtain ⟨command, selected⟩ : ∃ command,
      (⟨notedOrders, Dialect.ansi.writer, true⟩ : Compiler).select unnotedLines = .ok command :=
    ⟨_, rfl⟩
  obtain ⟨entity, condition, known, -, selects⟩ := selected_iff_holds valid (.inl selected)
  cases known
  refine ⟨valid, command, condition, selected, fun row stored => ?_⟩
  apply (selects threeLines (fun _ left right => left = right) row stored).trans
  simp only [threeLines, List.mem_cons, List.not_mem_nil, or_false, String.reduceEq, if_false] at stored
  rcases stored with rfl | rfl | rfl <;>
    simp [unnotedLines, notedOrders, threeLines, numbered, Qualifier.Holds, Reaches,
      Predicate.Met, Operators.Relate, Entity.relation, Model.entity, Column.named]

end Sql

end RelationalMapper
