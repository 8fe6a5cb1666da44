import RelationalMapper.Proofs.Sql.Placeholder

set_option autoImplicit false

namespace RelationalMapper.Sql

def words : List String :=
  ["SELECT ", "SELECT COUNT(*)", "INSERT INTO ", "UPDATE ", "DELETE FROM ", " FROM ", " WHERE ",
    " ORDER BY ", " DESC", " SET ", " DEFAULT VALUES", " (", ") VALUES (", "(", "((", ")", ", ",
    " AND ", " OR ", "1=1", "1=0", " IN (SELECT ", ") OR (COALESCE(", ") IS NULL))", " IS NULL",
    " IS NOT NULL", " = ", " <> ", " < ", " <= ", " > ", " >= ", " LIKE ", "  =  "]

def Wording (limit : Option Nat) (content : String) : Prop :=
  content ∈ words ∨ ∃ count ∈ limit, content = Writer.limitText count

def dividers : List Char :=
  [' ', ',', ')']

def Divides (content : String) : Prop :=
  ∃ char ∈ content.toList.head?, char ∈ dividers

instance (content : String) : Decidable (Divides content) :=
  decidable_of_iff (content.toList.head?.any (dividers.contains ·) = true) (by simp [Divides, Option.any_eq_true])

def Divided : List Piece → Prop
  | [] => True
  | .text content :: _ => Divides content
  | .identifier _ :: _ | .parameter _ :: _ => False

def Laid (limit : Option Nat) : List Piece → Prop
  | [] => True
  | .text content :: rest => Wording limit content ∧ Laid limit rest
  | .identifier _ :: rest | .parameter _ :: rest => Divided rest ∧ Laid limit rest

theorem Wording.word {limit : Option Nat} {content : String} (listed : content ∈ words) :
    Wording limit content :=
  .inl listed

theorem isDigit_of_mem_toString {number : Nat} {char : Char} (member : char ∈ (toString number).toList) :
    char.isDigit = true := by
  have digit : char ∈ Nat.toDigits 10 number := by simpa using member
  exact Nat.isDigit_of_mem_toDigits (by decide) (by decide) digit

theorem Wording.notMem {limit : Option Nat} {content : String} (wording : Wording limit content)
    {char : Char} (unused : ∀ word ∈ words, char ∉ word.toList) (other : char ∉ " LIMIT ".toList)
    (plain : char.isDigit = false) : char ∉ content.toList := by
  rcases wording with listed | ⟨count, -, rfl⟩
  · exact unused content listed
  · rw [Writer.limitText, String.toList_append, List.mem_append]
    rintro (spelt | counted)
    · exact other spelt
    · rw [isDigit_of_mem_toString counted] at plain
      cases plain

theorem Divided.text {content : String} {rest : List Piece} (divides : Divides content) :
    Divided (.text content :: rest) :=
  divides

theorem Divided.append {first second : List Piece} (here : Divided first) (later : Divided second) :
    Divided (first ++ second) := by
  cases first with
  | nil => exact later
  | cons piece rest =>
    cases piece with
    | text content => exact here
    | identifier | parameter => cases here

theorem Divided.head {pieces : List Piece} (divided : Divided pieces) (rendering : Rendering) :
    ∀ char ∈ (pieces.flatMap rendering.written).head?, char ∈ dividers := by
  cases pieces with
  | nil => simp
  | cons piece rest =>
    cases piece with
    | text content =>
      obtain ⟨char, first, divider⟩ := divided
      intro other also
      rw [List.flatMap_cons, Rendering.written, List.head?_append_of_ne_nil _ ?nonempty] at also
      case nonempty =>
        rintro empty
        simp [empty] at first
      cases also.symm.trans first
      exact divider
    | identifier | parameter => cases divided

namespace Laid

variable {limit : Option Nat} {first second : List Piece}

theorem append (here : Laid limit first) (divided : Divided second) (later : Laid limit second) :
    Laid limit (first ++ second) := by
  induction first with
  | nil => exact later
  | cons piece rest ih =>
    cases piece with
    | text content => exact ⟨here.1, ih here.2⟩
    | identifier | parameter => exact ⟨here.1.append divided, ih here.2⟩

theorem separated {separator : String} (divides : Divides separator) (listed : separator ∈ words)
    {parts : List (List Piece)} (each : ∀ part ∈ parts, Laid limit part) :
    Laid limit (separated separator parts) := by
  induction parts with
  | nil => trivial
  | cons part rest ih =>
    obtain ⟨here, later⟩ := List.forall_mem_cons.mp each
    cases rest with
    | nil => exact here
    | cons next rest => exact here.append divides ⟨.word listed, ih later⟩

theorem separated_map {α : Type} {separator : String} (divides : Divides separator)
    (listed : separator ∈ words) {items : List α} {write : α → List Piece}
    (each : ∀ item ∈ items, Laid limit (write item)) :
    Laid limit (Sql.separated separator (items.map write)) :=
  .separated divides listed (List.forall_mem_map.mpr each)

theorem parenthesised (inside : Laid limit first) : Laid limit (.text "(" :: first ++ [.text ")"]) :=
  ⟨.word (by decide), inside.append (.text (by decide)) ⟨.word (by decide), trivial⟩⟩

end Laid

namespace Condition

variable {α : Type} (limit : Option Nat)

mutual

theorem laid : ∀ (condition : Condition α) (bound : Nat), Laid limit (condition.number bound).pieces
  | .nullTest column test, bound => by
    have listed : " " ++ test.text ∈ words := by cases test <;> decide
    have divides : Divides (" " ++ test.text) := by cases test <;> decide
    exact ⟨divides, .word listed, trivial⟩
  | .compare column comparison operand, bound => by
    have listed : " " ++ comparison.operator ++ " " ∈ words := by cases comparison <;> decide
    have divides : Divides (" " ++ comparison.operator ++ " ") := by cases comparison <;> decide
    exact ⟨divides, .word listed, trivial, trivial⟩
  | .all [], bound => ⟨.word (by decide), trivial⟩
  | .any [], bound => ⟨.word (by decide), trivial⟩
  | .all (part :: rest), bound => .parenthesised (.separated (by decide) (by decide)
      (laid_all (part :: rest) bound))
  | .any (part :: rest), bound => .parenthesised (.separated (by decide) (by decide)
      (laid_all (part :: rest) bound))
  | .within key targetKey target inner, bound => by
    have inside : Laid limit ((inner.number bound).pieces ++ [.text ")"]) :=
      (laid inner bound).append (.text (by decide)) ⟨.word (by decide), trivial⟩
    exact ⟨.text (by decide), .word (by decide), .text (by decide), .word (by decide),
      .text (by decide), .word (by decide), inside⟩

theorem laid_all : ∀ (parts : List (Condition α)) (bound : Nat),
    ∀ part ∈ piecesOfAll (numberAll bound parts), Laid limit part
  | [], bound => by simp [numberAll, piecesOfAll]
  | part :: rest, bound => by
    simp only [numberAll, piecesOfAll]
    exact List.forall_mem_cons.mpr ⟨laid part bound, laid_all rest _⟩

end

end Condition

def lockOperators : List String :=
  ["=", "LIKE"]

theorem lockOperators_of_operator {strategy : LockStrategy} {operator : String}
    (spelt : strategy.operator? = some operator) : operator ∈ lockOperators := by
  cases strategy <;> cases spelt <;> decide

theorem lockMatches_of {entity : Entity} {row : RowReader} {columns : List Column}
    {locks : List (LockMatch Operand)} (built : lockMatches entity row columns = .ok locks) :
    List.Forall₂ (fun lock column => lock.operator ∈ lockOperators ∧ lock.column = column.name)
      locks (columns.filter Column.locks) := by
  induction columns generalizing locks with
  | nil =>
    cases built
    exact .nil
  | cons column rest ih =>
    rw [lockMatches] at built
    obtain ⟨strategy, declared, built⟩ := Except.bind_eq_ok.mp built
    split at built
    next unused =>
      rw [List.filter_cons_of_neg (by simp [Column.locks, declared, unused])]
      exact ih built
    next operator used =>
      obtain ⟨original, read, built⟩ := Except.bind_eq_ok.mp built
      obtain ⟨later, each, built⟩ := Except.bind_eq_ok.mp built
      cases built
      rw [List.filter_cons_of_pos (by simp [Column.locks, declared, used])]
      exact .cons ⟨lockOperators_of_operator used, rfl⟩ (ih each)

theorem guards_locks {entity : Entity} {row : RowReader} {locks : List (LockMatch Operand)}
    (guarded : guards entity row = .ok locks) : (∀ lock ∈ locks, lock.operator ∈ lockOperators) ∧
      locks.map (·.column) = (entity.columns.filter Column.locks).map (·.name) := by
  obtain ⟨spelt, named⟩ := (List.forall₂_and_left _ _).mp (lockMatches_of (guards_eq_ok guarded).1)
  refine ⟨spelt, ?_⟩
  rwa [← List.forall₂_eq_eq_eq, List.forall₂_map_left_iff, List.forall₂_map_right_iff]

theorem LockMatch.laid {limit : Option Nat} {lock : LockMatch Nat}
    (spelt : lock.operator ∈ lockOperators) : Laid limit lock.pieces := by
  have worded : ∀ operator ∈ lockOperators,
      " " ++ operator ++ " " ∈ words ∧ Divides (" " ++ operator ++ " ") := by decide
  obtain ⟨listed, divides⟩ := worded lock.operator spelt
  exact ⟨.word (by decide), divides, .word listed, .text (by decide), .word (by decide),
    .text (by decide), .word (by decide), .text (by decide), .word (by decide), trivial⟩

theorem spelt_numberAll {α : Type} {locks : List (LockMatch α)}
    (spelt : ∀ lock ∈ locks, lock.operator ∈ lockOperators) (bound : Nat) :
    ∀ lock ∈ LockMatch.numberAll bound locks, lock.operator ∈ lockOperators := by
  induction locks generalizing bound with
  | nil => simp [LockMatch.numberAll]
  | cons lock rest ih =>
    obtain ⟨here, later⟩ := List.forall_mem_cons.mp spelt
    exact List.forall_mem_cons.mpr ⟨here, ih later _⟩

namespace Statement

variable {α : Type}

def limit : Statement α → Option Nat
  | .select _ _ _ _ limit => limit
  | .count .. | .insert .. | .update .. | .delete .. => none

def locks : Statement α → List (LockMatch α)
  | .update _ _ locks | .delete _ locks => locks
  | .select .. | .count .. | .insert .. => []

variable (limit : Option Nat)

theorem laid_fromWhere (table : String) (condition : Option (Condition α)) :
    Laid limit (fromWhere table (condition.map (Condition.number 0))) := by
  cases condition with
  | none => exact ⟨.word (by decide), trivial, trivial⟩
  | some condition =>
    exact ⟨.word (by decide), .text (by decide), .word (by decide), condition.laid limit 0⟩

theorem laid_orderPieces (orderings : List (String × SortDirection)) :
    Divided (orderPieces orderings) ∧ Laid limit (orderPieces orderings) := by
  cases orderings with
  | nil => exact ⟨trivial, trivial⟩
  | cons first rest =>
    refine ⟨.text (by decide), .word (by decide), .separated_map (by decide) (by decide) ?_⟩
    rintro ⟨column, direction⟩ -
    cases direction with
    | ascending => exact ⟨trivial, trivial⟩
    | descending => exact ⟨.text (by decide), .word (by decide), trivial⟩

theorem laid_limit : Divided (limit.elim [] fun limit => [.text (Writer.limitText limit)]) ∧
    Laid limit (limit.elim [] fun limit => [.text (Writer.limitText limit)]) := by
  cases limit with
  | none => exact ⟨trivial, trivial⟩
  | some count =>
    refine ⟨⟨' ', ?_, by decide⟩, .inr ⟨count, rfl, rfl⟩, trivial⟩
    rw [Writer.limitText, String.toList_append]
    rfl

theorem laid_wherePieces {locks : List (LockMatch α)}
    (spelt : ∀ lock ∈ locks, lock.operator ∈ lockOperators) (bound : Nat) :
    Divided (wherePieces (LockMatch.numberAll bound locks)) ∧
      Laid limit (wherePieces (LockMatch.numberAll bound locks)) := by
  have numbered := spelt_numberAll spelt bound
  cases each : LockMatch.numberAll bound locks with
  | nil => exact ⟨trivial, trivial⟩
  | cons lock rest =>
    rw [each] at numbered
    exact ⟨.text (by decide), .word (by decide), .separated_map (by decide) (by decide)
      fun lock member => LockMatch.laid (numbered lock member)⟩

theorem laid (statement : Statement α)
    (spelt : ∀ lock ∈ statement.locks, lock.operator ∈ lockOperators) :
    Laid statement.limit statement.number.pieces := by
  cases statement with
  | select columns table condition orderings limit =>
    have listed : Laid limit (separated ", " (columns.map fun column => [.identifier column])) :=
      .separated_map (by decide) (by decide) fun _ _ => ⟨trivial, trivial⟩
    have source := listed.append (.text (by decide)) (laid_fromWhere limit table condition)
    obtain ⟨ordered, orders⟩ := laid_orderPieces limit orderings
    obtain ⟨limited, limits⟩ := laid_limit limit
    exact ⟨.word (by decide), (source.append ordered orders).append limited limits⟩
  | count table condition => exact ⟨.word (by decide), laid_fromWhere none table condition⟩
  | insert table columns =>
    simp only [number]
    cases numberPairs 0 columns with
    | nil => exact ⟨.word (by decide), .text (by decide), .word (by decide), trivial⟩
    | cons first rest =>
      have names : Laid none (separated ", " ((first :: rest).map fun pair => [.identifier pair.1])) :=
        .separated_map (by decide) (by decide) fun _ _ => ⟨trivial, trivial⟩
      have values : Laid none (separated ", " ((first :: rest).map fun pair => [.parameter pair.2])) :=
        .separated_map (by decide) (by decide) fun _ _ => ⟨trivial, trivial⟩
      have closed : Laid none (.text ") VALUES (" ::
          (separated ", " ((first :: rest).map fun pair => [.parameter pair.2]) ++ [.text ")"])) :=
        ⟨.word (by decide), values.append (.text (by decide)) ⟨.word (by decide), trivial⟩⟩
      simp only [pieces, List.append_assoc]
      exact ⟨.word (by decide), .text (by decide), .word (by decide),
        names.append (.text (by decide)) closed⟩
  | update table assignments locks =>
    obtain ⟨divided, locked⟩ := laid_wherePieces none spelt assignments.length
    have assigned : Laid none (separated ", " ((numberPairs 0 assignments).map fun pair =>
        [.identifier pair.1, .text " = ", .parameter pair.2])) :=
      .separated_map (by decide) (by decide) fun _ _ =>
        ⟨.text (by decide), .word (by decide), trivial, trivial⟩
    exact ⟨.word (by decide), .text (by decide), .word (by decide), assigned.append divided locked⟩
  | delete table locks =>
    obtain ⟨divided, locked⟩ := laid_wherePieces none spelt 0
    exact ⟨.word (by decide), divided, locked⟩

end Statement

namespace Compiler

variable {compiler : Compiler} {request : Request} {statement : Statement Operand}

theorem limit_locks (built : compiler.statement request = .ok statement) :
    statement.limit = request.limit ∧ ∀ lock ∈ statement.locks, lock.operator ∈ lockOperators := by
  cases request with
  | select fetch =>
    obtain ⟨entity, condition, orderings, known, resolved, rfl⟩ := selectStatement_eq_ok built
    exact ⟨rfl, by simp [Statement.locks]⟩
  | count fetch =>
    obtain ⟨entity, condition, known, resolved, rfl⟩ := countStatement_eq_ok built
    exact ⟨rfl, by simp [Statement.locks]⟩
  | insert row names =>
    obtain ⟨entity, columns, assignments, known, found, assigned, rfl⟩ := insertStatement_eq_ok built
    exact ⟨rfl, by simp [Statement.locks]⟩
  | update row =>
    obtain ⟨entity, assignments, locks, known, guarded, rfl⟩ := updateStatement_eq_ok built
    exact ⟨rfl, (guards_locks guarded).1⟩
  | delete row =>
    obtain ⟨entity, locks, known, guarded, rfl⟩ := deleteStatement_eq_ok built
    exact ⟨rfl, (guards_locks guarded).1⟩

theorem laid (built : compiler.statement request = .ok statement) :
    Laid request.limit statement.number.pieces := by
  obtain ⟨same, spelt⟩ := limit_locks built
  rw [← same]
  exact statement.laid spelt

end Compiler

end RelationalMapper.Sql
