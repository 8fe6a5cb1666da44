import RelationalMapper.Proofs.Sql.Naming

set_option autoImplicit false

namespace RelationalMapper.Sql

inductive Mark where
  | opening
  | closing
  | subquery
  | source
  | other
deriving DecidableEq

def Mark.ofText (content : String) : Mark :=
  if content = "(" then opening
  else if content = ")" then closing
  else if content = " IN (SELECT " then subquery
  else if content = " FROM " then source
  else other

theorem Mark.ofText_eq_subquery {content : String} :
    Mark.ofText content = .subquery ↔ content = " IN (SELECT " := by
  unfold ofText
  split_ifs <;> simp [*]

/-- A SELECT: the table after its FROM, and the other names written directly in it. -/
structure Select where
  table : Option String
  columns : List String
deriving DecidableEq

structure Reading where
  select : Select
  parentheses : Nat
  atTable : Bool

namespace Reading

def start : Reading :=
  ⟨⟨none, []⟩, 0, false⟩

def noting (reading : Reading) (names : List String) : Reading :=
  { reading with select := { reading.select with columns := reading.select.columns ++ names } }

def meeting (reading : Reading) (name : String) : Reading :=
  if reading.atTable then
    { reading with select := { reading.select with table := some name }, atTable := false }
  else reading.noting [name]

@[simp] theorem noting_nil (reading : Reading) : reading.noting [] = reading := by
  simp [noting]

@[simp] theorem noting_noting (reading : Reading) (names others : List String) :
    (reading.noting names).noting others = reading.noting (names ++ others) := by
  simp [noting]

end Reading

/-- The SELECTs from here on, given the innermost one that is open and those around it. -/
def selects (reading : Reading) (around : List Reading) : List Piece → List Select
  | [] => reading.select :: around.map (·.select)
  | .identifier name :: rest => selects (reading.meeting name) around rest
  | .parameter _ :: rest => selects reading around rest
  | .text content :: rest =>
    match Mark.ofText content with
    | .opening => selects { reading with parentheses := reading.parentheses + 1 } around rest
    | .closing =>
      -- A parenthesis that was not opened inside a SELECT is the one before it.
      match reading.parentheses, around with
      | parentheses + 1, _ => selects { reading with parentheses } around rest
      | 0, outer :: around => reading.select :: selects outer around rest
      | 0, [] => selects reading [] rest
    | .subquery => selects .start (reading :: around) rest
    | .source => selects { reading with atTable := true } around rest
    | .other => selects reading around rest

theorem length_selects (reading : Reading) (around : List Reading) (pieces : List Piece) :
    (selects reading around pieces).length =
      around.length + 1 + pieces.count (.text " IN (SELECT ") := by
  induction pieces generalizing reading around with
  | nil => simp [selects]
  | cons piece rest ih =>
    cases piece with
    | identifier name => simp [selects, ih]
    | parameter position => simp [selects, ih]
    | text content =>
      have counts : (Piece.text content :: rest).count (.text " IN (SELECT ") =
          rest.count (.text " IN (SELECT ") + if Mark.ofText content = .subquery then 1 else 0 := by
        simp [List.count_cons, Mark.ofText_eq_subquery]
      rw [counts]
      obtain ⟨select, parentheses, atTable⟩ := reading
      cases mark : Mark.ofText content with
      | opening | source | other => simp [selects, mark, ih]
      | subquery =>
        simp [selects, mark, ih]
        omega
      | closing =>
        cases parentheses with
        | succ parentheses => simp [selects, mark, ih]
        | zero =>
          cases around with
          | nil => simp [selects, mark, ih]
          | cons outer around =>
            simp [selects, mark, ih]
            omega

def Statement.selects (statement : Statement Operand) : List Select :=
  Sql.selects .start [] statement.number.pieces

/-- It reads the table of an entity, and names no columns but that entity's. -/
def Select.WellScoped (select : Select) (model : Model) : Prop :=
  ∃ entity ∈ model.entities, select.table = some entity.table ∧
    ∀ name ∈ select.columns, name ∈ entity.columns.map (·.name)

theorem Mark.ofText_operator (comparison : Comparison) :
    Mark.ofText (" " ++ comparison.operator ++ " ") = .other := by
  cases comparison <;> decide

theorem Mark.ofText_test (test : Comparison.NullTest) : Mark.ofText (" " ++ test.text) = .other := by
  cases test <;> decide

theorem Mark.ofText_limit (limit : Nat) : Mark.ofText (Writer.limitText limit) = .other := by
  have second : (Writer.limitText limit).toList[1]? = some 'L' := by
    simp [Writer.limitText]
  -- No text with a meaning has this character in its place.
  have apart {content : String} (other : content.toList[1]? ≠ some 'L') :
      Writer.limitText limit ≠ content := by
    rintro rfl
    exact other second
  simp [Mark.ofText, apart]

def InScope (model : Model) (entity : Entity) (pieces : List Piece) : Prop :=
  ∃ inner names, (∀ select ∈ inner, select.WellScoped model) ∧
    (∀ name ∈ names, name ∈ entity.columns.map (·.name)) ∧
    ∀ (reading : Reading) (around : List Reading) (rest : List Piece), reading.atTable = false →
      selects reading around (pieces ++ rest) = inner ++ selects (reading.noting names) around rest

namespace InScope

variable {model : Model} {entity target : Entity} {pieces others : List Piece} {name : String}

theorem nil : InScope model entity [] :=
  ⟨[], [], by simp, by simp, by simp⟩

theorem append (first : InScope model entity pieces) (second : InScope model entity others) :
    InScope model entity (pieces ++ others) := by
  obtain ⟨inner, names, wellScoped, has, reads⟩ := first
  obtain ⟨inner', names', scoped', has', reads'⟩ := second
  refine ⟨inner ++ inner', names ++ names', ?_, ?_, ?_⟩
  · exact List.forall_mem_append.mpr ⟨wellScoped, scoped'⟩
  · exact List.forall_mem_append.mpr ⟨has, has'⟩
  · intro reading around rest outside
    rw [List.append_assoc, reads reading around _ outside,
      reads' (reading.noting names) around rest outside, Reading.noting_noting, List.append_assoc]

theorem text {content : String} (plain : Mark.ofText content = .other) :
    InScope model entity [.text content] :=
  ⟨[], [], by simp, by simp, fun reading around rest _ => by simp [selects, plain]⟩

theorem parameter (position : Nat) : InScope model entity [.parameter position] :=
  ⟨[], [], by simp, by simp, fun reading around rest _ => by simp [selects]⟩

theorem identifier (has : name ∈ entity.columns.map (·.name)) :
    InScope model entity [.identifier name] := by
  refine ⟨[], [name], by simp, by simpa using has, fun reading around rest outside => ?_⟩
  simp [selects, Reading.meeting, outside]

theorem separated {separator : String} (plain : Mark.ofText separator = .other)
    {parts : List (List Piece)} (each : ∀ part ∈ parts, InScope model entity part) :
    InScope model entity (separated separator parts) := by
  induction parts with
  | nil => exact nil
  | cons part rest ih =>
    obtain ⟨here, later⟩ := List.forall_mem_cons.mp each
    cases rest with
    | nil => exact here
    | cons next rest => exact here.append ((text plain).append (ih later))

theorem parenthesised (within : InScope model entity pieces) :
    InScope model entity (.text "(" :: pieces ++ [.text ")"]) := by
  obtain ⟨inner, names, wellScoped, has, reads⟩ := within
  refine ⟨inner, names, wellScoped, has, fun reading around rest outside => ?_⟩
  have opened : Mark.ofText "(" = .opening := by decide
  have closed : Mark.ofText ")" = .closing := by decide
  simp only [List.cons_append, List.append_assoc, List.nil_append, selects, opened]
  rw [reads { reading with parentheses := reading.parentheses + 1 } around _ outside]
  simp [selects, closed, Reading.noting]

-- What stands between the parentheses of a subquery is in the scope of its target, the key before them
-- is not.
theorem subquery {key targetKey : String} (has : key ∈ entity.columns.map (·.name))
    (known : target ∈ model.entities) (targetHas : targetKey ∈ target.columns.map (·.name))
    (within : InScope model target pieces) :
    InScope model entity
      ([.identifier key, .text " IN (SELECT ", .identifier targetKey, .text " FROM ",
        .identifier target.table, .text " WHERE "] ++ pieces ++ [.text ")"]) := by
  obtain ⟨inner, names, wellScoped, named, reads⟩ := within
  refine ⟨inner ++ [⟨some target.table, targetKey :: names⟩], [key], ?_, by simpa using has, ?_⟩
  · refine List.forall_mem_append.mpr ⟨wellScoped, List.forall_mem_singleton.mpr ?_⟩
    exact ⟨target, known, rfl, List.forall_mem_cons.mpr ⟨targetHas, named⟩⟩
  · intro reading around rest outside
    have begun : Mark.ofText " IN (SELECT " = .subquery := by decide
    have source : Mark.ofText " FROM " = .source := by decide
    have filter : Mark.ofText " WHERE " = .other := by decide
    have closed : Mark.ofText ")" = .closing := by decide
    simp only [List.cons_append, List.append_assoc, List.nil_append, selects, begun, source, filter,
      Reading.meeting, outside, Reading.start, if_true, Bool.false_eq_true, if_false]
    rw [reads _ _ _ rfl]
    simp [selects, closed, Reading.noting]

theorem optional {α : Type} {read : α → List Piece} {item : Option α}
    (present : ∀ held ∈ item, InScope model entity (read held)) :
    InScope model entity (item.elim [] read) := by
  cases item with
  | none => exact nil
  | some held => exact present held rfl

end InScope

section

variable {model : Model} {entity : Entity}

theorem mem_names {name : String} {column : Column} (found : entity.column name = .ok column) :
    column.name ∈ entity.columns.map (·.name) :=
  List.mem_map_of_mem (Entity.column_eq_ok found).1

theorem comparison_inScope {name : String} {column : Column} {predicate : Predicate}
    {condition : Condition Operand} (found : entity.column name = .ok column)
    (built : comparison column predicate = .ok condition) (bound : Nat) :
    InScope model entity (condition.number bound).pieces := by
  have has : InScope model entity [.identifier column.name] := .identifier (mem_names found)
  unfold comparison at built
  split at built
  · split at built
    next test _ =>
      cases built
      simp only [Condition.number, Condition.pieces]
      exact has.append (.text (Mark.ofText_test test))
    · cases built
  · cases built
    simp only [Condition.number, Condition.pieces]
    exact has.append ((InScope.text (Mark.ofText_operator _)).append (.parameter _))

theorem along_inScope (valid : model.validate = .ok ())
    {finish : Entity → Except Fault (Condition Operand)}
    (finish_inScope : ∀ entity condition, model.entity entity.name = .ok entity →
      finish entity = .ok condition → ∀ bound, InScope model entity (condition.number bound).pieces)
    (relations : List String) {condition : Condition Operand}
    (known : model.entity entity.name = .ok entity)
    (resolved : along model finish entity relations = .ok condition) (bound : Nat) :
    InScope model entity (condition.number bound).pieces := by
  induction relations generalizing entity condition with
  | nil => exact finish_inScope entity condition known resolved bound
  | cons name rest ih =>
    obtain ⟨hop, hopped, resolved⟩ := Except.bind_eq_ok.mp resolved
    obtain ⟨inner, beyond, resolved⟩ := Except.bind_eq_ok.mp resolved
    cases resolved
    obtain ⟨targetKnown, ⟨localColumn, localHas⟩, targetColumn, targetHas⟩ := hop_keys valid known hopped
    have localMember := mem_names localHas
    have targetMember := mem_names targetHas
    rw [(Entity.column_eq_ok localHas).2] at localMember
    rw [(Entity.column_eq_ok targetHas).2] at targetMember
    simp only [Condition.number, Condition.pieces]
    exact .subquery localMember (Model.entity_mem targetKnown) targetMember (ih targetKnown beyond)

mutual

-- A condition stands inside a SELECT of the entity that its qualifier is resolved against.
theorem resolve_inScope (valid : model.validate = .ok ()) : ∀ (qualifier : Qualifier) {entity : Entity}
    {condition : Condition Operand}, model.entity entity.name = .ok entity →
    resolve model entity qualifier = .ok condition → ∀ bound,
    InScope model entity (condition.number bound).pieces
  | .column name predicate, entity, condition, known, resolved, bound => by
    rw [resolve] at resolved
    obtain ⟨column, found, built⟩ := Except.bind_eq_ok.mp resolved
    exact comparison_inScope found built bound
  | .property name predicate, entity, condition, known, resolved, bound => by
    rw [resolve] at resolved
    obtain ⟨held, property, resolved⟩ := Except.bind_eq_ok.mp resolved
    obtain ⟨column, found, built⟩ := Except.bind_eq_ok.mp resolved
    exact comparison_inScope found built bound
  | .all children, entity, condition, known, resolved, bound => by
    rw [resolve] at resolved
    obtain ⟨parts, each, resolved⟩ := Except.bind_eq_ok.mp resolved
    cases resolved
    have inside := resolveAll_inScope valid children known each bound
    cases parts with
    | nil => exact .text (by decide)
    | cons part rest => exact .parenthesised (.separated (by decide) inside)
  | .any children, entity, condition, known, resolved, bound => by
    rw [resolve] at resolved
    obtain ⟨parts, each, resolved⟩ := Except.bind_eq_ok.mp resolved
    cases resolved
    have inside := resolveAll_inScope valid children known each bound
    cases parts with
    | nil => exact .text (by decide)
    | cons part rest => exact .parenthesised (.separated (by decide) inside)
  | .path relations terminal, entity, condition, known, resolved, bound => by
    rw [resolve] at resolved
    exact along_inScope valid
      (fun target condition known resolved => resolve_inScope valid terminal known resolved)
      relations known resolved bound

theorem resolveAll_inScope (valid : model.validate = .ok ()) : ∀ (children : List Qualifier)
    {entity : Entity} {parts : List (Condition Operand)}, model.entity entity.name = .ok entity →
    resolveAll model entity children = .ok parts → ∀ bound,
    ∀ pieces ∈ Condition.piecesOfAll (Condition.numberAll bound parts), InScope model entity pieces
  | [], entity, parts, known, resolved, bound => by
    cases resolved
    simp [Condition.numberAll, Condition.piecesOfAll]
  | child :: rest, entity, parts, known, resolved, bound => by
    rw [resolveAll] at resolved
    obtain ⟨part, here, resolved⟩ := Except.bind_eq_ok.mp resolved
    obtain ⟨later, each, resolved⟩ := Except.bind_eq_ok.mp resolved
    cases resolved
    simp only [Condition.numberAll, Condition.piecesOfAll]
    exact List.forall_mem_cons.mpr ⟨resolve_inScope valid child known here bound,
      resolveAll_inScope valid rest known each _⟩

end

theorem ordered_inScope {writer : Writer} {fetch : Fetch} {columns : List String} {table : String}
    {condition : Option (Condition Operand)} {orderings : List (String × SortDirection)}
    {limit : Option Nat} (known : model.entity fetch.entity = .ok entity)
    (built : selectStatement model writer fetch = .ok (.select columns table condition orderings limit)) :
    InScope model entity (Statement.orderPieces orderings) := by
  obtain ⟨found, _, orderings', same, -, ordered, equal⟩ := selectStatement_parts built
  cases known.symm.trans same
  cases equal
  have each : ∀ ordering ∈ orderings, ordering.1 ∈ entity.columns.map (·.name) := by
    intro ordering listed
    obtain ⟨asked, -, named⟩ := Except.exists_of_mem_mapM ordered listed
    obtain ⟨column, property, named⟩ := Except.bind_eq_ok.mp named
    cases named
    exact List.mem_map_of_mem (Entity.columnOf_eq_ok property)
  cases orderings with
  | nil => exact .nil
  | cons first rest =>
    refine InScope.append (.text (by decide)) (.separated (by decide) ?_)
    rintro _ mapped
    obtain ⟨⟨name, direction⟩, listed, rfl⟩ := List.mem_map.mp mapped
    refine InScope.append (.identifier (each _ listed)) ?_
    cases direction
    · exact .nil
    · exact .text (by decide)

theorem condition_inScope (valid : model.validate = .ok ())
    (known : model.entity entity.name = .ok entity) {qualifier : Option Qualifier}
    {condition : Option (Condition Operand)}
    (resolved : resolveCondition model entity qualifier = .ok condition) :
    InScope model entity ((condition.map (Condition.number 0)).elim [] fun condition =>
      .text " WHERE " :: condition.pieces) := by
  apply InScope.optional
  intro numbered present
  obtain ⟨found, here, rfl⟩ := Option.map_eq_some_iff.mp present
  subst here
  cases qualifier with
  | none => cases resolved
  | some qualifier =>
    obtain ⟨built, here, same⟩ := Except.bind_eq_ok.mp resolved
    cases same
    exact InScope.append (.text (by decide)) (resolve_inScope valid qualifier known here 0)

theorem wellScoped_of_inScope {heading pieces : List Piece} (member : entity ∈ model.entities)
    (headed : InScope model entity heading) (inside : InScope model entity pieces) :
    ∀ select ∈ selects .start [] (heading ++ ([.text " FROM ", .identifier entity.table] ++ pieces)),
      select.WellScoped model := by
  obtain ⟨before, names, beforeScoped, has, reads⟩ := headed
  obtain ⟨inner, others, innerScoped, othersHas, readsOn⟩ := inside
  have source : Mark.ofText " FROM " = .source := by decide
  rw [reads .start [] _ rfl]
  simp only [List.cons_append, List.nil_append, selects, source, Reading.meeting, if_true]
  rw [← List.append_nil pieces, readsOn _ _ _ rfl]
  refine List.forall_mem_append.mpr ⟨beforeScoped, List.forall_mem_append.mpr ⟨innerScoped, ?_⟩⟩
  refine List.forall_mem_singleton.mpr ⟨entity, member, rfl, ?_⟩
  exact List.forall_mem_append.mpr ⟨has, othersHas⟩

theorem select_wellScoped (valid : model.validate = .ok ()) {writer : Writer} {fetch : Fetch}
    {statement : Statement Operand} (built : selectStatement model writer fetch = .ok statement) :
    ∀ select ∈ statement.selects, select.WellScoped model := by
  obtain ⟨entity, condition, orderings, known, resolved, rfl⟩ := selectStatement_eq_ok built
  have heading : InScope model entity
      (.text "SELECT " :: separated ", " ((entity.columns.map (·.name)).map fun name =>
        [.identifier name])) := by
    refine InScope.append (.text (by decide)) (.separated (by decide) ?_)
    intro part mapped
    obtain ⟨name, has, rfl⟩ := List.mem_map.mp mapped
    exact .identifier has
  have filter := condition_inScope valid (Model.entity_self known) resolved
  have ordered := ordered_inScope known built
  have limited : InScope model entity
      (fetch.limit.elim [] fun limit => [.text (Writer.limitText limit)]) :=
    .optional fun limit _ => .text (Mark.ofText_limit limit)
  have scopes := wellScoped_of_inScope (Model.entity_mem known) heading
    ((filter.append ordered).append limited)
  simpa [Statement.selects, Statement.number, Statement.pieces, Statement.fromWhere] using scopes

theorem count_wellScoped (valid : model.validate = .ok ()) {fetch : Fetch}
    {statement : Statement Operand} (built : countStatement model fetch = .ok statement) :
    ∀ select ∈ statement.selects, select.WellScoped model := by
  obtain ⟨entity, condition, known, resolved, rfl⟩ := countStatement_eq_ok built
  have heading : InScope model entity [.text "SELECT COUNT(*)"] := .text (by decide)
  exact wellScoped_of_inScope (Model.entity_mem known) heading
    (condition_inScope valid (Model.entity_self known) resolved)

theorem comparison_ne_unknown (column : Column) (predicate : Predicate) (name : String) :
    comparison column predicate ≠ .error (.unknownEntity name) := by
  unfold comparison
  split
  · split <;> simp
  · simp

theorem columnComparison_ne_unknown (entity : Entity) (column : String) (predicate : Predicate)
    (name : String) : columnComparison entity column predicate ≠ .error (.unknownEntity name) := by
  refine Except.bind_ne_error ?_ fun found _ => comparison_ne_unknown found predicate name
  unfold Entity.column
  split <;> simp

theorem columnOf_ne_unknown (entity : Entity) (property name : String) :
    entity.columnOf property ≠ .error (.unknownEntity name) := by
  unfold Entity.columnOf
  split <;> simp

-- Both ends of every relation that a valid model's entity has are in the model.
theorem hop_ne_unknown (valid : model.validate = .ok ())
    (known : model.entity entity.name = .ok entity) (relation name : String) :
    model.hop entity relation ≠ .error (.unknownEntity name) := by
  refine Except.bind_ne_error ?_ fun held found => ?_
  · unfold Entity.relation
    split <;> simp
  · obtain ⟨parent, child, -, -, parentKnown, childKnown, -⟩ :=
      Model.joins valid (Model.entity_mem known) (Entity.relation_eq_ok found)
    split
    · exact Except.bind_pure_ne_error (by rw [childKnown]; simp)
    · exact Except.bind_pure_ne_error (by rw [parentKnown]; simp)

theorem along_ne_unknown (valid : model.validate = .ok ())
    {finish : Entity → Except Fault (Condition Operand)} {name : String}
    (finishes : ∀ entity, model.entity entity.name = .ok entity →
      finish entity ≠ .error (.unknownEntity name))
    (relations : List String) (known : model.entity entity.name = .ok entity) :
    along model finish entity relations ≠ .error (.unknownEntity name) := by
  induction relations generalizing entity with
  | nil => exact finishes entity known
  | cons relation rest ih =>
    refine Except.bind_ne_error (hop_ne_unknown valid known relation name) fun hop hopped => ?_
    exact Except.bind_pure_ne_error (ih (hop_keys valid known hopped).1)

mutual

theorem resolve_ne_unknown (valid : model.validate = .ok ()) (name : String) :
    ∀ (qualifier : Qualifier) {entity : Entity}, model.entity entity.name = .ok entity →
    resolve model entity qualifier ≠ .error (.unknownEntity name)
  | .column column predicate, entity, _ => by
    rw [resolve]
    exact columnComparison_ne_unknown entity column predicate name
  | .property property predicate, entity, _ => by
    rw [resolve]
    exact Except.bind_ne_error (columnOf_ne_unknown entity property name) fun column _ =>
      columnComparison_ne_unknown entity column.name predicate name
  | .all children, entity, known => by
    rw [resolve]
    exact Except.bind_pure_ne_error (resolveAll_ne_unknown valid name children known)
  | .any children, entity, known => by
    rw [resolve]
    exact Except.bind_pure_ne_error (resolveAll_ne_unknown valid name children known)
  | .path relations terminal, entity, known => by
    rw [resolve]
    exact along_ne_unknown valid (fun target known => resolve_ne_unknown valid name terminal known)
      relations known

theorem resolveAll_ne_unknown (valid : model.validate = .ok ()) (name : String) :
    ∀ (children : List Qualifier) {entity : Entity}, model.entity entity.name = .ok entity →
    resolveAll model entity children ≠ .error (.unknownEntity name)
  | [], entity, _ => Except.pure_ne_error
  | child :: rest, entity, known => by
    rw [resolveAll]
    refine Except.bind_ne_error (resolve_ne_unknown valid name child known) fun part _ => ?_
    exact Except.bind_pure_ne_error (resolveAll_ne_unknown valid name rest known)

end

theorem resolveCondition_ne_unknown (valid : model.validate = .ok ()) (name : String)
    (qualifier : Option Qualifier) (known : model.entity entity.name = .ok entity) :
    resolveCondition model entity qualifier ≠ .error (.unknownEntity name) := by
  cases qualifier with
  | none => exact Except.pure_ne_error
  | some qualifier => exact Except.bind_pure_ne_error (resolve_ne_unknown valid name qualifier known)

-- The entity of the fetch itself is the only one that can be missing.
theorem entity_of_unknown (valid : model.validate = .ok ()) (writer : Writer) {fetch : Fetch}
    {name : String}
    (failed : selectStatement model writer fetch = .error (.unknownEntity name) ∨
      countStatement model fetch = .error (.unknownEntity name)) :
    model.entity fetch.entity = .error (.unknownEntity name) := by
  cases looked : model.entity fetch.entity with
  | error fault =>
    rcases failed with failed | failed
    · rw [selectStatement, looked] at failed
      cases failed
      rfl
    · rw [countStatement, looked] at failed
      cases failed
      rfl
  | ok entity =>
    exfalso
    have known := Model.entity_self looked
    have filtered := resolveCondition_ne_unknown valid name fetch.qualifier known
    rcases failed with failed | failed
    · revert failed
      rw [selectStatement, looked]
      refine Except.bind_ne_error (by simp) fun found same => ?_
      cases same
      refine Except.bind_ne_error filtered fun condition _ => ?_
      refine Except.bind_ne_error ?_ fun orderings _ => ?_
      · refine Except.mapM_ne_error fun ordering _ => ?_
        exact Except.bind_pure_ne_error (columnOf_ne_unknown entity _ name)
      · cases fetch.limit with
        | none => exact Except.pure_ne_error
        | some limit =>
          refine Except.bind_pure_ne_error ?_
          unfold Writer.checkLimit
          split <;> simp
    · revert failed
      rw [countStatement, looked]
      refine Except.bind_ne_error (by simp) fun found same => ?_
      cases same
      exact Except.bind_pure_ne_error filtered

end

theorem Compiler.compile_eq_error {compiler : Compiler} {request : Request} {fault : Fault}
    (failed : compiler.compile request = .error fault) : compiler.statement request = .error fault := by
  rw [Compiler.compile_eq_finish] at failed
  cases built : compiler.statement request with
  | error other =>
    rw [built] at failed
    cases failed
    rfl
  | ok statement =>
    rw [built] at failed
    cases failed

/-- In a valid model the SELECTs of a select or count, which are the outer one and one for each
subquery, are well scoped; and no relation on a path leads to an unknown entity. -/
theorem selects_wellScoped {compiler : Compiler} (valid : compiler.model.validate = .ok ())
    {request : Request} {fetch : Fetch} (asked : request = .select fetch ∨ request = .count fetch) :
    (∀ command, compiler.compile request = .ok command →
      ∃ statement, compiler.statement request = .ok statement ∧
        command = statement.command compiler.writer compiler.quoting ∧
        statement.selects.length = 1 + statement.number.pieces.count (.text " IN (SELECT ") ∧
        ∀ select ∈ statement.selects, select.WellScoped compiler.model) ∧
      ∀ name, compiler.compile request = .error (.unknownEntity name) →
        compiler.model.entity fetch.entity = .error (.unknownEntity name) := by
  refine ⟨fun command compiled => ?_, fun name failed => ?_⟩
  · rw [Compiler.compile_eq_finish] at compiled
    obtain ⟨statement, built, same⟩ := finish_eq_ok compiled
    have counted : statement.selects.length = _ := length_selects .start [] statement.number.pieces
    refine ⟨statement, built, same, by simpa using counted, ?_⟩
    rcases asked with rfl | rfl
    · exact select_wellScoped valid built
    · exact count_wellScoped valid built
  · have unknown := Compiler.compile_eq_error failed
    rcases asked with rfl | rfl
    · exact entity_of_unknown valid compiler.writer (.inl unknown)
    · exact entity_of_unknown valid compiler.writer (.inr unknown)

theorem unnoted_lines_wellScoped :
    notedOrders.validate = .ok () ∧ ∃ (command : Command) (statement : Statement Operand),
      (⟨notedOrders, Dialect.ansi.writer, true⟩ : Compiler).compile (.select unnotedLines) = .ok command ∧
        command = statement.command Dialect.ansi.writer true ∧
        statement.selects = [⟨some "orders", ["id", "note"]⟩, ⟨some "lines", ["id", "order", "order"]⟩] ∧
        ∀ select ∈ statement.selects, select.WellScoped notedOrders := by
  have valid : notedOrders.validate = .ok () := by decide
  obtain ⟨command, selected⟩ : ∃ command,
      (⟨notedOrders, Dialect.ansi.writer, true⟩ : Compiler).compile (.select unnotedLines) = .ok command :=
    ⟨_, rfl⟩
  obtain ⟨statement, built, same, -, wellScoped⟩ :=
    (selects_wellScoped valid (.inl rfl)).1 command selected
  refine ⟨valid, command, statement, selected, same, ?_, wellScoped⟩
  cases built
  decide

end RelationalMapper.Sql
