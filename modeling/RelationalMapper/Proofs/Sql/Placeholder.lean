import RelationalMapper.Proofs.Sql.Matching
import RelationalMapper.Proofs.Sql.Naming

set_option autoImplicit false

namespace RelationalMapper

namespace Sql

namespace Rendering

variable {rendering : Rendering} {known : DelimitedNames}

end Rendering

def references : List Piece → List Nat
  | [] => []
  | .parameter position :: rest => position :: references rest
  | .text _ :: rest | .identifier _ :: rest => references rest

@[simp] theorem references_append (first second : List Piece) :
    references (first ++ second) = references first ++ references second := by
  induction first with
  | nil => rfl
  | cons piece rest ih => cases piece <;> simp [references, ih]

@[simp] theorem references_separated (separator : String) (parts : List (List Piece)) :
    references (separated separator parts) = parts.flatMap references := by
  induction parts with
  | nil => rfl
  | cons part rest ih =>
    cases rest with
    | nil => simp [separated]
    | cons next rest => simpa [separated, references] using ih

section

variable {α : Type}

namespace Condition

mutual

theorem references_pieces : ∀ (condition : Condition α) (bound : Nat),
    references (condition.number bound).pieces = List.range' (bound + 1) condition.operands.length
  | .nullTest _ _, _ => rfl
  | .compare _ _ _, _ => rfl
  | .all [], _ => rfl
  | .any [], _ => rfl
  | .all (part :: rest), bound => by
    have inside := references_piecesOfAll (part :: rest) bound
    simp only [numberAll, piecesOfAll] at inside
    simp [number, numberAll, pieces, piecesOfAll, references, operands, inside]
  | .any (part :: rest), bound => by
    have inside := references_piecesOfAll (part :: rest) bound
    simp only [numberAll, piecesOfAll] at inside
    simp [number, numberAll, pieces, piecesOfAll, references, operands, inside]
  | .within _ _ _ inner, bound => by
    simp [number, pieces, references, operands, references_pieces inner bound]

theorem references_piecesOfAll : ∀ (parts : List (Condition α)) (bound : Nat),
    (piecesOfAll (numberAll bound parts)).flatMap references =
      List.range' (bound + 1) (operandsOfAll parts).length
  | [], _ => rfl
  | part :: rest, bound => by
    simp only [numberAll, piecesOfAll, List.flatMap_cons, operandsOfAll, List.length_append]
    rw [references_pieces part, references_piecesOfAll rest, Nat.add_right_comm, List.range'_append_1]

end

end Condition

theorem numberPairs_positions (pairs : List (String × α)) (bound : Nat) :
    (numberPairs bound pairs).map (·.2) = List.range' (bound + 1) pairs.length := by
  induction pairs generalizing bound with
  | nil => rfl
  | cons pair rest ih => simp [numberPairs, List.range'_succ, ih]

theorem references_numberPairs (pairs : List (String × α)) (bound : Nat) (separator : String)
    (write : String × Nat → List Piece) (each : ∀ pair, references (write pair) = [pair.2]) :
    references (separated separator ((numberPairs bound pairs).map write)) =
      List.range' (bound + 1) pairs.length := by
  rw [references_separated, List.flatMap_map, ← numberPairs_positions, List.map_eq_flatMap]
  simp only [each]

theorem numberAll_positions (locks : List (LockMatch α)) (bound : Nat) :
    (LockMatch.numberAll bound locks).map (·.operand) = List.range' (bound + 1) locks.length := by
  induction locks generalizing bound with
  | nil => rfl
  | cons lock rest ih => simp [LockMatch.numberAll, List.range'_succ, ih]

theorem references_wherePieces (locks : List (LockMatch α)) (bound : Nat) :
    references (Statement.wherePieces (LockMatch.numberAll bound locks)) =
      (List.range' (bound + 1) locks.length).flatMap fun position => [position, position] := by
  have each : references (Statement.wherePieces (LockMatch.numberAll bound locks)) =
      ((LockMatch.numberAll bound locks).map (·.operand)).flatMap fun position =>
        [position, position] := by
    cases LockMatch.numberAll bound locks with
    | nil => rfl
    | cons lock rest =>
      simp [Statement.wherePieces, references, List.flatMap_map, LockMatch.pieces]
  rw [each, numberAll_positions]

namespace Statement

def places : Statement α → List Nat
  | .select _ _ condition _ _ | .count _ condition =>
    List.range' 1 (condition.elim [] Condition.operands).length
  | .insert _ columns => List.range' 1 columns.length
  | .update _ assignments locks =>
    List.range' 1 assignments.length ++
      (List.range' (assignments.length + 1) locks.length).flatMap fun position => [position, position]
  | .delete _ locks => (List.range' 1 locks.length).flatMap fun position => [position, position]

theorem references_fromWhere (table : String) (condition : Option (Condition α)) :
    references (fromWhere table (condition.map (Condition.number 0))) =
      List.range' 1 (condition.elim [] Condition.operands).length := by
  cases condition with
  | none => rfl
  | some condition => simp [fromWhere, references, Condition.references_pieces]

theorem references_orderPieces (orderings : List (String × SortDirection)) :
    references (orderPieces orderings) = [] := by
  have plain (direction : SortDirection) :
      references (if direction = .descending then [.text " DESC"] else []) = [] := by
    cases direction <;> rfl
  cases orderings with
  | nil => rfl
  | cons first rest => simp [orderPieces, references, List.flatMap_map, plain]

theorem references_pieces (statement : Statement α) :
    references statement.number.pieces = statement.places := by
  cases statement with
  | select columns table condition orderings limit =>
    have limited : references
        (limit.elim [] fun limit => [.text (Writer.limitText limit)]) = [] := by
      cases limit <;> rfl
    simp [number, pieces, places, references, List.flatMap_map, references_fromWhere,
      references_orderPieces, limited]
  | count table condition =>
    simp [number, pieces, places, references, references_fromWhere]
  | insert table columns =>
    have values := references_numberPairs columns 0 ", " (fun pair => [.parameter pair.2]) fun _ => rfl
    -- With no columns nothing is bound, and the text is another one.
    cases numbered : numberPairs 0 columns with
    | nil => simpa [number, numbered, pieces, places, references, separated] using values
    | cons first rest =>
      have names : references (separated ", " ((first :: rest).map fun pair =>
          [.identifier pair.1])) = [] := by
        simp [references, List.flatMap_map, List.flatMap_eq_nil_iff]
      rw [numbered] at values
      simp only [number, numbered, pieces, places, references_append, names, values]
      simp [references]
  | update table assignments locks =>
    have assigned := references_numberPairs assignments 0 ", "
      (fun pair => [.identifier pair.1, .text " = ", .parameter pair.2]) fun _ => rfl
    simp only [number, pieces, places, references_append, assigned, references_wherePieces]
    rfl
  | delete table locks => simp [number, pieces, places, references, references_wherePieces]

end Statement

end

inductive Field where
  | column (name : String)
  | property (name : String)

structure Leaf where
  relations : List String
  field : Field
  predicate : Predicate

end Sql

namespace Qualifier

mutual

def leaves (walked : List String) : Qualifier → List Sql.Leaf
  | .column name predicate => [⟨walked, .column name, predicate⟩]
  | .property name predicate => [⟨walked, .property name, predicate⟩]
  | .all children | .any children => leavesOfAll walked children
  | .path relations terminal => terminal.leaves (walked ++ relations)

def leavesOfAll (walked : List String) : List Qualifier → List Sql.Leaf
  | [] => []
  | child :: rest => child.leaves walked ++ leavesOfAll walked rest

end

end Qualifier

def Model.reach (model : Model) : Entity → List String → Except Fault Entity
  | entity, [] => .ok entity
  | entity, name :: rest => do model.reach (← model.hop entity name).target rest

-- A property stands for the column that a comparison of its column's name finds.
def Entity.columnAt (entity : Entity) : Sql.Field → Except Fault Column
  | .column name => entity.column name
  | .property name => do entity.column (← entity.columnOf name).name

def Column.locks (column : Column) : Bool :=
  match column.lockStrategy with
  | .ok strategy => strategy.operator?.isSome
  | .error _ => false

theorem Model.reach_append {model : Model} {entity target : Entity} {walked : List String}
    (reached : model.reach entity walked = .ok target) (relations : List String) :
    model.reach entity (walked ++ relations) = model.reach target relations := by
  induction walked generalizing entity with
  | nil =>
    cases reached
    rfl
  | cons name rest ih =>
    obtain ⟨hop, hopped, reached⟩ := Except.bind_eq_ok.mp reached
    rw [List.cons_append, reach, hopped]
    exact ih reached

namespace Sql

def Leaf.Gives (leaf : Leaf) (model : Model) (entity : Entity) (operand : Operand) : Prop :=
  ∃ target, model.reach entity leaf.relations = .ok target ∧
    target.columnAt leaf.field = .ok operand.column ∧ operand.value = leaf.predicate.value

/-- The operands are, one for one, those of the comparisons with something else than null. -/
def Carries (model : Model) (entity : Entity) (leaves : List Leaf) (operands : List Operand) : Prop :=
  List.Forall₂ (·.Gives model entity) (leaves.filter (·.predicate.value ≠ .null)) operands

section

variable {model : Model} {root entity : Entity} {walked : List String}

theorem Carries.append {first second : List Leaf} {operands others : List Operand}
    (here : Carries model entity first operands) (later : Carries model entity second others) :
    Carries model entity (first ++ second) (operands ++ others) := by
  unfold Carries
  rw [List.filter_append]
  exact List.rel_append here later

theorem comparison_carries (reached : model.reach root walked = .ok entity) {field : Field}
    {predicate : Predicate} {column : Column} {condition : Condition Operand}
    (found : entity.columnAt field = .ok column) (built : comparison column predicate = .ok condition) :
    Carries model root [⟨walked, field, predicate⟩] condition.operands := by
  unfold comparison at built
  unfold Carries
  split at built
  next absent =>
    rw [List.filter_cons_of_neg (by simpa using (Value.isNull_iff _).mp absent)]
    split at built
    · cases built
      exact .nil
    · cases built
  next present =>
    rw [List.filter_cons_of_pos (by simpa using mt (Value.isNull_iff _).mpr present)]
    cases built
    exact .cons ⟨entity, reached, found, rfl⟩ .nil

theorem along_eq_ok {finish : Entity → Except Fault (Condition Operand)} {relations : List String}
    {condition : Condition Operand} (resolved : along model finish entity relations = .ok condition) :
    ∃ target inner, model.reach entity relations = .ok target ∧ finish target = .ok inner ∧
      condition.operands = inner.operands := by
  induction relations generalizing entity condition with
  | nil => exact ⟨entity, condition, rfl, resolved, rfl⟩
  | cons name rest ih =>
    obtain ⟨hop, hopped, resolved⟩ := Except.bind_eq_ok.mp resolved
    obtain ⟨between, beyond, resolved⟩ := Except.bind_eq_ok.mp resolved
    cases resolved
    obtain ⟨target, inner, reached, finished, same⟩ := ih beyond
    refine ⟨target, inner, ?_, finished, same⟩
    rw [Model.reach, hopped]
    exact reached

mutual

theorem resolve_carries : ∀ (qualifier : Qualifier) {walked : List String} {entity : Entity}
    {condition : Condition Operand}, model.reach root walked = .ok entity →
    resolve model entity qualifier = .ok condition →
    Carries model root (qualifier.leaves walked) condition.operands
  | .column name predicate, walked, entity, condition, reached, resolved => by
    rw [resolve] at resolved
    obtain ⟨column, found, built⟩ := Except.bind_eq_ok.mp resolved
    exact comparison_carries reached found built
  | .property name predicate, walked, entity, condition, reached, resolved => by
    rw [resolve] at resolved
    obtain ⟨held, property, resolved⟩ := Except.bind_eq_ok.mp resolved
    obtain ⟨column, found, built⟩ := Except.bind_eq_ok.mp resolved
    exact comparison_carries reached (Except.bind_eq_ok.mpr ⟨held, property, found⟩) built
  | .all children, walked, entity, condition, reached, resolved => by
    rw [resolve] at resolved
    obtain ⟨parts, each, resolved⟩ := Except.bind_eq_ok.mp resolved
    cases resolved
    exact resolveAll_carries children reached each
  | .any children, walked, entity, condition, reached, resolved => by
    rw [resolve] at resolved
    obtain ⟨parts, each, resolved⟩ := Except.bind_eq_ok.mp resolved
    cases resolved
    exact resolveAll_carries children reached each
  | .path relations terminal, walked, entity, condition, reached, resolved => by
    rw [resolve] at resolved
    obtain ⟨target, inner, further, finished, same⟩ := along_eq_ok resolved
    rw [same]
    exact resolve_carries terminal (by rwa [Model.reach_append reached]) finished

theorem resolveAll_carries : ∀ (children : List Qualifier) {walked : List String} {entity : Entity}
    {parts : List (Condition Operand)}, model.reach root walked = .ok entity →
    resolveAll model entity children = .ok parts →
    Carries model root (Qualifier.leavesOfAll walked children) (Condition.operandsOfAll parts)
  | [], walked, entity, parts, reached, resolved => by
    cases resolved
    exact .nil
  | child :: rest, walked, entity, parts, reached, resolved => by
    rw [resolveAll] at resolved
    obtain ⟨part, here, resolved⟩ := Except.bind_eq_ok.mp resolved
    obtain ⟨later, each, resolved⟩ := Except.bind_eq_ok.mp resolved
    cases resolved
    exact (resolve_carries child reached here).append (resolveAll_carries rest reached each)

end

end

def GivenBy (row : RowReader) (version : RowVersion) (column : Column) (operand : Operand) : Prop :=
  operand.column = column ∧ row.value? column.name version = some operand.value

section

variable {entity : Entity} {row : RowReader} {columns : List Column}

theorem insertStatement_eq_ok {model : Model} {names : List String} {statement : Statement Operand}
    (built : insertStatement model row names = .ok statement) :
    ∃ entity columns assignments, model.entity row.entity = .ok entity ∧
      names.mapM entity.column = .ok columns ∧
      columns.mapM (assignment entity row) = .ok assignments ∧
      statement = .insert entity.table assignments := by
  obtain ⟨entity, known, built⟩ := Except.bind_eq_ok.mp built
  obtain ⟨columns, found, built⟩ := Except.bind_eq_ok.mp built
  obtain ⟨assignments, assigned, built⟩ := Except.bind_eq_ok.mp built
  cases built
  exact ⟨entity, columns, assignments, known, found, assigned, rfl⟩

end

theorem mem_doubled {positions : List Nat} {position : Nat}
    (member : position ∈ positions.flatMap fun position => [position, position]) :
    position ∈ positions := by
  simpa using member

theorem Statement.places_within {α : Type} (statement : Statement α) :
    ∀ position ∈ statement.places, 1 ≤ position ∧ position ≤ statement.operands.length := by
  intro position member
  cases statement with
  | select | count | insert =>
    have := List.mem_range'_1.mp member
    simp only [operands, List.length_map]
    omega
  | update table assignments locks =>
    simp only [operands, List.length_append, List.length_map]
    rcases List.mem_append.mp member with assigned | locked
    · have := List.mem_range'_1.mp assigned
      omega
    · have := List.mem_range'_1.mp (mem_doubled locked)
      omega
  | delete table locks =>
    have := List.mem_range'_1.mp (mem_doubled member)
    simp only [operands, List.length_map]
    omega

theorem mem_references {position : Nat} {pieces : List Piece} (member : .parameter position ∈ pieces) :
    position ∈ references pieces := by
  induction pieces with
  | nil => cases member
  | cons piece rest ih =>
    cases member with
    | head => exact List.mem_cons_self
    | tail _ later =>
      cases piece with
      | parameter first => exact List.mem_cons_of_mem _ (ih later)
      | text | identifier => exact ih later

namespace Statement

variable (statement : Statement Operand) (writer : Writer) (quoting : Bool)

theorem length_parameters :
    (statement.command writer quoting).parameters.length = statement.operands.length := by
  rw [← List.length_map (f := (·.operand))]
  exact congrArg List.length (Binder.operands_bindAll .empty statement.operands)

variable {statement}

theorem parameter_of_reference {position : Nat}
    (referred : position ∈ references statement.number.pieces) :
    ∃ index parameter, position = index + 1 ∧
      (statement.command writer quoting).parameters[index]? = some parameter ∧
      Rendering.nameAt ⟨writer, quoting, (statement.command writer quoting).parameters⟩ position =
        parameter.name := by
  rw [references_pieces] at referred
  obtain ⟨low, high⟩ := statement.places_within position referred
  rw [← statement.length_parameters writer quoting] at high
  obtain ⟨index, rfl⟩ := Nat.exists_eq_add_of_le' low
  have held := List.getElem?_eq_getElem (l := (statement.command writer quoting).parameters)
    (i := index) (by omega)
  exact ⟨index, _, rfl, held, by rw [Rendering.nameAt, Nat.add_sub_cancel, held]; rfl⟩

end Statement

end Sql

end RelationalMapper
