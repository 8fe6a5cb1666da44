import Mathlib.Data.Option.Defs
import RelationalMapper.Proofs.Sql.Placeholder

set_option autoImplicit false

namespace RelationalMapper

/-- Both fail with the same fault, or both have answers, and these are related. -/
inductive Together {α β : Type} (related : α → β → Prop) : Except Fault α → Except Fault β → Prop
  | failed (fault : Fault) : Together related (.error fault) (.error fault)
  | answered {first : α} {second : β} (agree : related first second) :
    Together related (.ok first) (.ok second)

namespace Together

variable {α β γ δ : Type} {related : α → β → Prop} {related' : γ → δ → Prop}

theorem bind {first : Except Fault α} {second : Except Fault β} {rest : α → Except Fault γ}
    {other : β → Except Fault δ} (here : Together related first second)
    (later : ∀ left right, related left right → Together related' (rest left) (other right)) :
    Together related' (first >>= rest) (second >>= other) := by
  cases here with
  | failed fault => exact .failed fault
  | answered agree => exact later _ _ agree

theorem same (first : Except Fault α) {rest : α → Except Fault γ} {other : α → Except Fault δ}
    (later : ∀ answer, Together related' (rest answer) (other answer)) :
    Together related' (first >>= rest) (first >>= other) := by
  cases first with
  | error fault => exact .failed fault
  | ok answer => exact later answer

theorem mapM {first : γ → Except Fault α} {second : γ → Except Fault β}
    (each : ∀ item, Together related (first item) (second item)) (items : List γ) :
    Together (List.Forall₂ related) (items.mapM first) (items.mapM second) := by
  induction items with
  | nil => exact .answered .nil
  | cons item rest ih =>
    rw [List.mapM_cons, List.mapM_cons]
    refine (each item).bind fun left right here => ?_
    exact ih.bind fun lefts rights later => .answered (.cons here later)

end Together

structure Predicate.Alike (first second : Predicate) : Prop where
  comparison : first.comparison = second.comparison
  missing : first.value = .null ↔ second.value = .null

mutual

inductive Qualifier.Alike : Qualifier → Qualifier → Prop
  | column (name : String) {first second : Predicate} (alike : first.Alike second) :
    Qualifier.Alike (.column name first) (.column name second)
  | property (name : String) {first second : Predicate} (alike : first.Alike second) :
    Qualifier.Alike (.property name first) (.property name second)
  | all {first second : List Qualifier} (each : Qualifier.AllAlike first second) :
    Qualifier.Alike (.all first) (.all second)
  | any {first second : List Qualifier} (each : Qualifier.AllAlike first second) :
    Qualifier.Alike (.any first) (.any second)
  | path (relations : List String) {first second : Qualifier} (alike : Qualifier.Alike first second) :
    Qualifier.Alike (.path relations first) (.path relations second)

inductive Qualifier.AllAlike : List Qualifier → List Qualifier → Prop
  | nil : Qualifier.AllAlike [] []
  | cons {first second : Qualifier} {rest others : List Qualifier}
    (here : Qualifier.Alike first second) (later : Qualifier.AllAlike rest others) :
    Qualifier.AllAlike (first :: rest) (second :: others)

end

structure Fetch.Alike (first second : Fetch) : Prop where
  entity : first.entity = second.entity
  qualifier : Option.Rel Qualifier.Alike first.qualifier second.qualifier
  orderings : first.orderings = second.orderings
  limit : first.limit = second.limit

def RowReader.OffersAlike (first second : RowReader) (version : RowVersion) : Prop :=
  ∀ column, (first.value? column version).isSome = (second.value? column version).isSome

namespace Sql

/-- The same request, but for the values. -/
inductive Request.Alike : Request → Request → Prop
  | select {first second : Fetch} (alike : first.Alike second) :
    Request.Alike (.select first) (.select second)
  | count {first second : Fetch} (alike : first.Alike second) :
    Request.Alike (.count first) (.count second)
  | insert {first second : RowReader} (entity : first.entity = second.entity)
    (current : first.OffersAlike second .current) (columns : List String) :
    Request.Alike (.insert first columns) (.insert second columns)
  | update {first second : RowReader} (entity : first.entity = second.entity)
    (current : first.OffersAlike second .current) (original : first.OffersAlike second .original) :
    Request.Alike (.update first) (.update second)
  | delete {first second : RowReader} (entity : first.entity = second.entity)
    (original : first.OffersAlike second .original) :
    Request.Alike (.delete first) (.delete second)

structure Statement.Alike (first second : Statement Operand) : Prop where
  numbered : first.number = second.number
  columns : first.operands.map (·.column) = second.operands.map (·.column)

namespace Condition

structure Alike (first second : Condition Operand) : Prop where
  numbered : ∀ bound, first.number bound = second.number bound
  columns : first.operands.map (·.column) = second.operands.map (·.column)

structure AllAlike (first second : List (Condition Operand)) : Prop where
  numbered : ∀ bound, numberAll bound first = numberAll bound second
  columns : (operandsOfAll first).map (·.column) = (operandsOfAll second).map (·.column)

theorem Alike.cons {first second : Condition Operand} {rest others : List (Condition Operand)}
    (here : first.Alike second) (later : AllAlike rest others) :
    AllAlike (first :: rest) (second :: others) where
  numbered bound := by
    have length := congrArg List.length here.columns
    rw [List.length_map, List.length_map] at length
    rw [numberAll, numberAll, here.numbered, later.numbered, length]
  columns := by
    simp only [operandsOfAll, List.map_append, here.columns, later.columns]

end Condition

section

variable {model : Model}

theorem comparison_alike (column : Column) {first second : Predicate} (alike : first.Alike second) :
    Together Condition.Alike (comparison column first) (comparison column second) := by
  unfold comparison
  have missing : first.value.isNull = second.value.isNull := by
    rw [Bool.eq_iff_iff, Value.isNull_iff, Value.isNull_iff, alike.missing]
  rw [missing, alike.comparison]
  split
  · cases second.comparison.nullTest? with
    | none => exact .failed _
    | some test => exact .answered ⟨fun _ => rfl, rfl⟩
  · exact .answered ⟨fun _ => rfl, rfl⟩

theorem along_alike {finish other : Entity → Except Fault (Condition Operand)}
    (finishes : ∀ entity, Together Condition.Alike (finish entity) (other entity))
    (entity : Entity) (relations : List String) :
    Together Condition.Alike (along model finish entity relations) (along model other entity relations) := by
  induction relations generalizing entity with
  | nil => exact finishes entity
  | cons name rest ih =>
    refine Together.same _ fun hop => (ih hop.target).bind fun left right inner => .answered ?_
    exact ⟨fun bound => by simp only [Condition.number, inner.numbered], inner.columns⟩

mutual

theorem resolve_alike : ∀ {first second : Qualifier}, first.Alike second → ∀ entity : Entity,
    Together Condition.Alike (resolve model entity first) (resolve model entity second)
  | _, _, .column name alike, entity => by
    rw [resolve, resolve]
    exact Together.same _ fun column => comparison_alike column alike
  | _, _, .property name alike, entity => by
    rw [resolve, resolve]
    exact Together.same _ fun held => Together.same _ fun column => comparison_alike column alike
  | _, _, .all each, entity => by
    rw [resolve, resolve]
    refine (resolveAll_alike each entity).bind fun lefts rights parts => .answered ?_
    exact ⟨fun bound => by simp only [Condition.number, parts.numbered], parts.columns⟩
  | _, _, .any each, entity => by
    rw [resolve, resolve]
    refine (resolveAll_alike each entity).bind fun lefts rights parts => .answered ?_
    exact ⟨fun bound => by simp only [Condition.number, parts.numbered], parts.columns⟩
  | _, _, .path relations alike, entity => by
    rw [resolve, resolve]
    exact along_alike (fun target => resolve_alike alike target) entity relations

theorem resolveAll_alike : ∀ {first second : List Qualifier}, Qualifier.AllAlike first second →
    ∀ entity : Entity,
    Together Condition.AllAlike (resolveAll model entity first) (resolveAll model entity second)
  | _, _, .nil, entity => .answered ⟨fun _ => rfl, rfl⟩
  | _, _, .cons here later, entity => by
    rw [resolveAll, resolveAll]
    refine (resolve_alike here entity).bind fun left right part => ?_
    exact (resolveAll_alike later entity).bind fun lefts rights parts => .answered (part.cons parts)

end

theorem resolveCondition_alike (entity : Entity) {first second : Option Qualifier}
    (alike : Option.Rel Qualifier.Alike first second) :
    Together (Option.Rel Condition.Alike) (resolveCondition model entity first)
      (resolveCondition model entity second) := by
  cases alike with
  | none => exact .answered .none
  | some alike => exact (resolve_alike alike entity).bind fun left right same => .answered (.some same)

theorem numbered_of_rel {first second : Option (Condition Operand)}
    (alike : Option.Rel Condition.Alike first second) :
    first.map (Condition.number 0) = second.map (Condition.number 0) := by
  cases alike with
  | none => rfl
  | some alike => rw [Option.map_some, Option.map_some, alike.numbered]

theorem columns_of_rel {first second : Option (Condition Operand)}
    (alike : Option.Rel Condition.Alike first second) :
    (first.elim [] Condition.operands).map (·.column) =
      (second.elim [] Condition.operands).map (·.column) := by
  cases alike with
  | none => rfl
  | some alike => exact alike.columns

theorem countStatement_alike {first second : Fetch} (alike : first.Alike second) :
    Together Statement.Alike (countStatement model first) (countStatement model second) := by
  unfold countStatement
  rw [alike.entity]
  refine Together.same _ fun entity => ?_
  refine (resolveCondition_alike entity alike.qualifier).bind fun left right same => .answered ?_
  exact ⟨congrArg (Statement.count _) (numbered_of_rel same), columns_of_rel same⟩

theorem selectStatement_alike (writer : Writer) {first second : Fetch} (alike : first.Alike second) :
    Together Statement.Alike (selectStatement model writer first) (selectStatement model writer second) := by
  unfold selectStatement
  rw [alike.entity, alike.orderings, alike.limit]
  refine Together.same _ fun entity => ?_
  refine (resolveCondition_alike entity alike.qualifier).bind fun left right same => ?_
  refine Together.same _ fun orderings => ?_
  have answer (limit : Option Nat) : Statement.Alike
      (.select (entity.columns.map (·.name)) entity.table left orderings limit)
      (.select (entity.columns.map (·.name)) entity.table right orderings limit) := by
    constructor
    · simp only [Statement.number, numbered_of_rel same]
    · exact columns_of_rel same
  cases second.limit with
  | none => exact .answered (answer none)
  | some limit => exact Together.same _ fun _ => .answered (answer (some limit))

end

section

variable {first second : RowReader}

theorem operand_alike {version : RowVersion} (offers : first.OffersAlike second version)
    (entity : Entity) (column : Column) :
    Together (fun left right => left.column = right.column) (operand entity first column version)
      (operand entity second column version) := by
  have offered := offers column.name
  unfold operand
  cases here : first.value? column.name version <;>
    cases there : second.value? column.name version <;> rw [here, there] at offered
  · exact .failed _
  · cases offered
  · cases offered
  · exact .answered rfl

def PairAlike (left right : String × Operand) : Prop :=
  left.1 = right.1 ∧ left.2.column = right.2.column

def LockMatch.Alike (left right : LockMatch Operand) : Prop :=
  left.column = right.column ∧ left.operator = right.operator ∧
    left.operand.column = right.operand.column

theorem assignment_alike (current : first.OffersAlike second .current) (entity : Entity)
    (column : Column) :
    Together PairAlike (assignment entity first column) (assignment entity second column) :=
  (operand_alike current entity column).bind fun _ _ same => .answered ⟨rfl, same⟩

theorem lockMatches_alike (original : first.OffersAlike second .original) (entity : Entity)
    (columns : List Column) :
    Together (List.Forall₂ LockMatch.Alike) (lockMatches entity first columns)
      (lockMatches entity second columns) := by
  induction columns with
  | nil => exact .answered .nil
  | cons column rest ih =>
    rw [lockMatches, lockMatches]
    refine Together.same _ fun strategy => ?_
    cases strategy.operator? with
    | none => exact ih
    | some operator =>
      refine (operand_alike original entity column).bind fun left right same => ?_
      exact ih.bind fun lefts rights later => .answered (.cons ⟨rfl, rfl, same⟩ later)

theorem guards_alike (original : first.OffersAlike second .original) (entity : Entity) :
    Together (List.Forall₂ LockMatch.Alike) (guards entity first) (guards entity second) := by
  refine (lockMatches_alike original entity entity.columns).bind fun lefts rights same => ?_
  cases same with
  | nil => exact .failed _
  | cons here later => exact .answered (.cons here later)

theorem numberPairs_alike {lefts rights : List (String × Operand)}
    (alike : List.Forall₂ PairAlike lefts rights) (bound : Nat) :
    numberPairs bound lefts = numberPairs bound rights := by
  induction alike generalizing bound with
  | nil => rfl
  | cons here _ ih => rw [numberPairs, numberPairs, here.1, ih]

theorem numberAll_alike {lefts rights : List (LockMatch Operand)}
    (alike : List.Forall₂ LockMatch.Alike lefts rights) (bound : Nat) :
    LockMatch.numberAll bound lefts = LockMatch.numberAll bound rights := by
  induction alike generalizing bound with
  | nil => rfl
  | cons here _ ih => rw [LockMatch.numberAll, LockMatch.numberAll, here.1, here.2.1, ih]

theorem map_eq_of_related {α β : Type} {related : α → α → Prop} {read : α → β}
    (each : ∀ left right, related left right → read left = read right) {lefts rights : List α}
    (alike : List.Forall₂ related lefts rights) : lefts.map read = rights.map read := by
  induction alike with
  | nil => rfl
  | cons here _ ih => rw [List.map_cons, List.map_cons, each _ _ here, ih]

theorem columns_of_pairs {lefts rights : List (String × Operand)}
    (alike : List.Forall₂ PairAlike lefts rights) :
    (lefts.map (·.2)).map (·.column) = (rights.map (·.2)).map (·.column) := by
  rw [List.map_map, List.map_map]
  exact map_eq_of_related (fun _ _ same => same.2) alike

theorem columns_of_locks {lefts rights : List (LockMatch Operand)}
    (alike : List.Forall₂ LockMatch.Alike lefts rights) :
    (lefts.map (·.operand)).map (·.column) = (rights.map (·.operand)).map (·.column) := by
  rw [List.map_map, List.map_map]
  exact map_eq_of_related (fun _ _ same => same.2.2) alike

variable {model : Model}

theorem insertStatement_alike (entity : first.entity = second.entity)
    (current : first.OffersAlike second .current) (columns : List String) :
    Together Statement.Alike (insertStatement model first columns)
      (insertStatement model second columns) := by
  unfold insertStatement
  rw [entity]
  refine Together.same _ fun entity => Together.same _ fun columns => ?_
  refine (Together.mapM (assignment_alike current entity) columns).bind fun lefts rights same => ?_
  refine .answered ⟨?_, columns_of_pairs same⟩
  rw [Statement.number, Statement.number, numberPairs_alike same]

theorem deleteStatement_alike (entity : first.entity = second.entity)
    (original : first.OffersAlike second .original) :
    Together Statement.Alike (deleteStatement model first) (deleteStatement model second) := by
  unfold deleteStatement
  rw [entity]
  refine Together.same _ fun entity => ?_
  refine (guards_alike original entity).bind fun lefts rights same => .answered ⟨?_, ?_⟩
  · rw [Statement.number, Statement.number, numberAll_alike same]
  · exact columns_of_locks same

theorem updateStatement_alike (entity : first.entity = second.entity)
    (current : first.OffersAlike second .current) (original : first.OffersAlike second .original) :
    Together Statement.Alike (updateStatement model first) (updateStatement model second) := by
  unfold updateStatement
  rw [entity]
  refine Together.same _ fun entity => ?_
  refine (Together.mapM (assignment_alike current entity) _).bind fun lefts rights assigned => ?_
  have numbered := numberPairs_alike assigned 0
  have columns := columns_of_pairs assigned
  have length := assigned.length_eq
  cases assigned with
  | nil => exact .failed _
  | cons here later =>
    refine (guards_alike original entity).bind fun locks others same => .answered ⟨?_, ?_⟩
    · rw [Statement.number, Statement.number, numbered, length, numberAll_alike same]
    · simp only [Statement.operands, List.map_append, columns, columns_of_locks same]

end

theorem Compiler.statement_alike (compiler : Compiler) {request other : Request}
    (alike : request.Alike other) :
    Together Statement.Alike (compiler.statement request) (compiler.statement other) := by
  cases alike with
  | select alike => exact selectStatement_alike compiler.writer alike
  | count alike => exact countStatement_alike alike
  | insert entity current columns => exact insertStatement_alike entity current columns
  | update entity current original => exact updateStatement_alike entity current original
  | delete entity original => exact deleteStatement_alike entity original

def Parameter.label (parameter : Parameter) : Column × String :=
  (parameter.column, parameter.name)

/-- Two commands that nothing but the values of their parameters tells apart. -/
structure Command.Alike (first second : Command) : Prop where
  text : first.text = second.text
  labels : first.parameters.map Parameter.label = second.parameters.map Parameter.label

theorem names_of_labels {first second : List Parameter}
    (labels : first.map Parameter.label = second.map Parameter.label) :
    first.map (·.name) = second.map (·.name) := by
  have names := congrArg (List.map Prod.snd) labels
  rwa [List.map_map, List.map_map] at names

namespace Binder

structure Alike (first second : Binder) : Prop where
  last : first.last = second.last
  labels : first.parameters.map Parameter.label = second.parameters.map Parameter.label

-- A name is made of the column, the number and the names before it.
theorem Alike.bind {first second : Binder} (alike : first.Alike second) {left right : Operand}
    (same : left.column = right.column) : (first.bind left).Alike (second.bind right) := by
  obtain ⟨column, value⟩ := left
  cases same
  have number : nextNumber right.column.name first.last (first.parameters.map (·.name)) =
      nextNumber right.column.name second.last (second.parameters.map (·.name)) := by
    rw [alike.last, names_of_labels alike.labels]
  constructor
  · exact number
  · simp only [Binder.bind, List.map_append, alike.labels, number, List.map_cons, List.map_nil,
      Parameter.label]

theorem Alike.bindAll {first second : Binder} (alike : first.Alike second) {lefts rights : List Operand}
    (same : lefts.map (·.column) = rights.map (·.column)) :
    (first.bindAll lefts).Alike (second.bindAll rights) := by
  induction lefts generalizing first second rights with
  | nil =>
    rw [List.map_eq_nil_iff.mp same.symm]
    exact alike
  | cons left rest ih =>
    cases rights with
    | nil => cases same
    | cons right others =>
      obtain ⟨here, later⟩ := List.cons.inj same
      exact ih (alike.bind here) later

end Binder

theorem nameAt_eq (rendering : Rendering) (position : Nat) :
    rendering.nameAt position = ((rendering.parameters.map (·.name))[position - 1]?).getD "" := by
  rw [Rendering.nameAt, List.getElem?_map]
  cases rendering.parameters[position - 1]? <;> rfl

-- A placeholder shows a name or a position, never a value.
theorem written_alike {writer : Writer} {quoting : Bool} {first second : List Parameter}
    (names : first.map (·.name) = second.map (·.name)) (piece : Piece) :
    Rendering.written ⟨writer, quoting, first⟩ piece =
      Rendering.written ⟨writer, quoting, second⟩ piece := by
  cases piece with
  | text content => rfl
  | identifier name => rfl
  | parameter position => rw [Rendering.written, Rendering.written, nameAt_eq, nameAt_eq, names]

theorem Statement.Alike.command {first second : Statement Operand} (alike : first.Alike second)
    (writer : Writer) (quoting : Bool) :
    (first.command writer quoting).Alike (second.command writer quoting) := by
  have bound := (⟨rfl, rfl⟩ : Binder.empty.Alike .empty).bindAll alike.columns
  refine ⟨?_, bound.labels⟩
  unfold Statement.command
  simp only [alike.numbered, Rendering.write_eq_flatMap Rendering.remembers_empty]
  rw [funext (written_alike (names_of_labels bound.labels))]

/-- Requests that differ in nothing but values, of which the same are compared with null, have commands
that differ in nothing but the values of their parameters, or fail in the same way. -/
theorem values_unwritten (compiler : Compiler) {request other : Request}
    (alike : request.Alike other) :
    Together Command.Alike (compiler.compile request) (compiler.compile other) := by
  rw [Compiler.compile_eq_finish, Compiler.compile_eq_finish]
  exact (compiler.statement_alike alike).bind fun _ _ same =>
    .answered (same.command compiler.writer compiler.quoting)

-- The lines of orders with this note.
def linesNoted (note : String) : Fetch :=
  ⟨"Line", some (.path ["order"] (.column "note" ⟨.equals, .text note⟩)), [], none⟩

theorem note_unwritten :
    (Request.select (linesNoted "rush")).Alike (.select (linesNoted "' OR 1=1; --")) ∧
      ∃ command other,
        (⟨notedOrders, Dialect.sqlite.writer, false⟩ : Compiler).compile
            (.select (linesNoted "rush")) = .ok command ∧
          (⟨notedOrders, Dialect.sqlite.writer, false⟩ : Compiler).compile
            (.select (linesNoted "' OR 1=1; --")) = .ok other ∧
          command.Alike other ∧ command.parameters ≠ other.parameters := by
  have alike : (Request.select (linesNoted "rush")).Alike (.select (linesNoted "' OR 1=1; --")) :=
    .select ⟨rfl, .some (.path _ (.column _ ⟨rfl, by decide⟩)), rfl, rfl⟩
  obtain ⟨command, compiled⟩ : ∃ command, (⟨notedOrders, Dialect.sqlite.writer, false⟩ : Compiler).compile
      (.select (linesNoted "rush")) = .ok command := ⟨_, rfl⟩
  obtain ⟨other, compiled'⟩ : ∃ command, (⟨notedOrders, Dialect.sqlite.writer, false⟩ : Compiler).compile
      (.select (linesNoted "' OR 1=1; --")) = .ok command := ⟨_, rfl⟩
  have together := values_unwritten ⟨notedOrders, Dialect.sqlite.writer, false⟩ alike
  rw [compiled, compiled'] at together
  cases together with
  | answered agree =>
    refine ⟨alike, command, other, compiled, compiled', agree, ?_⟩
    cases compiled
    cases compiled'
    intro same
    have values := congrArg (List.map (·.value)) same
    revert values
    decide

end Sql

end RelationalMapper
