import RelationalMapper.Proofs.Sql.Quoting

set_option autoImplicit false

namespace RelationalMapper.Sql

inductive Stroke where
  | text (content : String)
  | identifier (name : String)
  | bind (operand : Operand)
  | again

structure Script where
  strokes : List Stroke
  fault : Option Fault

namespace Script

def done : Script :=
  ⟨[], none⟩

def text (content : String) : Script :=
  ⟨[.text content], none⟩

def identifier (name : String) : Script :=
  ⟨[.identifier name], none⟩

def bind (operand : Operand) : Script :=
  ⟨[.bind operand], none⟩

def again : Script :=
  ⟨[.again], none⟩

def failing (fault : Fault) : Script :=
  ⟨[], some fault⟩

-- What comes after a fault is never written.
instance : Append Script where
  append first next :=
    match first.fault with
    | none => ⟨first.strokes ++ next.strokes, next.fault⟩
    | some _ => first

def given {α : Type} (found : Except Fault α) (write : α → Script) : Script :=
  match found with
  | .ok value => write value
  | .error fault => failing fault

def separated (separator : String) : List Script → Script
  | [] => done
  | [part] => part
  | part :: rest => part ++ (text separator ++ separated separator rest)

def junction (separator alone : String) : List Script → Script
  | [] => text alone
  | parts => text "(" ++ separated separator parts ++ text ")"

def comparison (column : Column) (predicate : Predicate) : Script :=
  if predicate.value.isNull then
    match predicate.comparison.nullTest? with
    | some test => identifier column.name ++ text (" " ++ test.text)
    | none => failing (.nullComparison predicate.comparison column.name)
  else
    identifier column.name ++ text (" " ++ predicate.comparison.operator ++ " ") ++
      bind ⟨column, predicate.value⟩

-- The head of a subquery is written before what lies beyond it is looked at.
def along (model : Model) (finish : Entity → Script) : Entity → List String → Script
  | entity, [] => finish entity
  | entity, relation :: rest => given (model.hop entity relation) fun hop =>
    identifier hop.localKey ++ text " IN (SELECT " ++ identifier hop.targetKey ++ text " FROM " ++
      identifier hop.target.table ++ text " WHERE " ++ along model finish hop.target rest ++ text ")"

mutual

def qualifier (model : Model) (entity : Entity) : Qualifier → Script
  | .column name predicate => given (entity.column name) (comparison · predicate)
  | .property name predicate => given (entity.columnOf name) fun held =>
    given (entity.column held.name) (comparison · predicate)
  | .all children => junction " AND " "1=1" (qualifiers model entity children)
  | .any children => junction " OR " "1=0" (qualifiers model entity children)
  | .path relations terminal =>
    along model (fun target => qualifier model target terminal) entity relations

def qualifiers (model : Model) (entity : Entity) : List Qualifier → List Script
  | [] => []
  | child :: rest => qualifier model entity child :: qualifiers model entity rest

end

def source (model : Model) (entity : Entity) (condition : Option Qualifier) : Script :=
  text " FROM " ++ identifier entity.table ++ condition.elim done fun condition =>
    text " WHERE " ++ qualifier model entity condition

def order (entity : Entity) (ordering : SortOrdering) : Script :=
  given (entity.columnOf ordering.property) fun column =>
    identifier column.name ++ if ordering.direction = .descending then text " DESC" else done

def orders (entity : Entity) : List SortOrdering → Script
  | [] => done
  | orderings => text " ORDER BY " ++ separated ", " (orderings.map (order entity))

def limit (writer : Writer) (limit : Option Nat) : Script :=
  limit.elim done fun limit =>
    given (writer.checkLimit limit) fun _ => text (Writer.limitText limit)

def select (model : Model) (writer : Writer) (fetch : Fetch) : Script :=
  given (model.entity fetch.entity) fun entity =>
    text "SELECT " ++ separated ", " (entity.columns.map fun column => identifier column.name) ++
      source model entity fetch.qualifier ++ orders entity fetch.orderings ++ limit writer fetch.limit

def count (model : Model) (fetch : Fetch) : Script :=
  given (model.entity fetch.entity) fun entity =>
    text "SELECT COUNT(*)" ++ source model entity fetch.qualifier

def lock (column : Column) (operator : String) (original : Operand) : Script :=
  text "((" ++ identifier column.name ++ text (" " ++ operator ++ " ") ++ bind original ++
    text ") OR (COALESCE(" ++ identifier column.name ++ text ", " ++ again ++ text ") IS NULL))"

def locks (entity : Entity) (row : RowReader) (matched : Bool) : List Column → Script
  -- That nothing is to be matched is known only at the end.
  | [] => if matched then done else failing (.nothingToMatch entity.name)
  | column :: rest => given column.lockStrategy fun strategy =>
    match strategy.operator? with
    | none => locks entity row matched rest
    | some operator =>
      text (if matched then " AND " else " WHERE ") ++
        (given (operand entity row column .original) (lock column operator) ++
          locks entity row true rest)

def value (entity : Entity) (row : RowReader) (column : Column) : Script :=
  given (operand entity row column .current) bind

def insert (model : Model) (row : RowReader) (columns : List String) : Script :=
  given (model.entity row.entity) fun entity => given (columns.mapM entity.column) fun columns =>
    text "INSERT INTO " ++ identifier entity.table ++
      match columns with
      | [] => text " DEFAULT VALUES"
      | columns =>
        text " (" ++ separated ", " (columns.map fun column => identifier column.name) ++
          text ") VALUES (" ++ separated ", " (columns.map (value entity row)) ++ text ")"

def assignment (entity : Entity) (row : RowReader) (column : Column) : Script :=
  given (operand entity row column .current) fun current =>
    identifier column.name ++ text " = " ++ bind current

def update (model : Model) (row : RowReader) : Script :=
  given (model.entity row.entity) fun entity =>
    let writable := entity.columns.filter (!·.generated)
    text "UPDATE " ++ identifier entity.table ++ text " SET " ++
      separated ", " (writable.map (assignment entity row)) ++
      (if writable.isEmpty then failing (.nothingWritable entity.name) else done) ++
      locks entity row false entity.columns

def delete (model : Model) (row : RowReader) : Script :=
  given (model.entity row.entity) fun entity =>
    text "DELETE FROM " ++ identifier entity.table ++ locks entity row false entity.columns

end Script

def Compiler.script (compiler : Compiler) : Request → Script
  | .select fetch => .select compiler.model compiler.writer fetch
  | .count fetch => .count compiler.model fetch
  | .insert row columns => .insert compiler.model row columns
  | .update row => .update compiler.model row
  | .delete row => .delete compiler.model row

/-- A stretch of a statement, as it reads after any number of parameters, and the operands it binds. -/
@[ext] structure Spelling where
  pieces : Nat → List Piece
  operands : List Operand

namespace Spelling

def nothing : Spelling :=
  ⟨fun _ => [], []⟩

-- The parameters of the first part come before those of the next.
instance : Append Spelling where
  append first next :=
    ⟨fun bound => first.pieces bound ++ next.pieces (bound + first.operands.length),
      first.operands ++ next.operands⟩

@[simp] theorem pieces_append (first next : Spelling) (bound : Nat) : (first ++ next).pieces bound =
    first.pieces bound ++ next.pieces (bound + first.operands.length) := rfl

@[simp] theorem operands_append (first next : Spelling) :
    (first ++ next).operands = first.operands ++ next.operands := rfl

@[simp] theorem pieces_nothing (bound : Nat) : nothing.pieces bound = [] := rfl

@[simp] theorem operands_nothing : nothing.operands = [] := rfl

theorem append_assoc (first next last : Spelling) :
    first ++ next ++ last = first ++ (next ++ last) := by
  ext1
  · funext bound
    simp [Nat.add_assoc]
  · exact List.append_assoc ..

def text (content : String) : Spelling :=
  ⟨fun _ => [.text content], []⟩

def identifier (name : String) : Spelling :=
  ⟨fun _ => [.identifier name], []⟩

def each : Nat → List Spelling → List (List Piece)
  | _, [] => []
  | bound, part :: rest => part.pieces bound :: each (bound + part.operands.length) rest

def separated (separator : String) (parts : List Spelling) : Spelling :=
  ⟨fun bound => Sql.separated separator (each bound parts), parts.flatMap (·.operands)⟩

theorem separated_singleton (separator : String) (part : Spelling) :
    separated separator [part] = part := by
  ext1
  · rfl
  · exact List.append_nil _

theorem separated_cons_cons (separator : String) (part next : Spelling) (rest : List Spelling) :
    separated separator (part :: next :: rest) =
      part ++ (text separator ++ separated separator (next :: rest)) := rfl

def junction (separator alone : String) : List Spelling → Spelling
  | [] => text alone
  | parts => text "(" ++ separated separator parts ++ text ")"

end Spelling

def Stroke.spelling : Stroke → Spelling
  | .text content => .text content
  | .identifier name => .identifier name
  | .bind operand => ⟨fun bound => [.parameter (bound + 1)], [operand]⟩
  | .again => ⟨fun bound => [.parameter bound], []⟩

def spell (strokes : List Stroke) : Spelling :=
  strokes.foldr (·.spelling ++ ·) .nothing

theorem spell_append (first next : List Stroke) :
    spell (first ++ next) = spell first ++ spell next := by
  induction first with
  | nil => rfl
  | cons stroke rest ih =>
    change stroke.spelling ++ spell (rest ++ next) = stroke.spelling ++ spell rest ++ spell next
    rw [ih, Spelling.append_assoc]

namespace Script

def spelled (script : Script) : Except Fault Spelling :=
  match script.fault with
  | none => .ok (spell script.strokes)
  | some fault => .error fault

@[simp] theorem spelled_append (first next : Script) : (first ++ next).spelled =
    first.spelled >>= fun here => (here ++ ·) <$> next.spelled := by
  obtain ⟨strokes, fault⟩ := first
  obtain ⟨strokes', fault'⟩ := next
  cases fault with
  | some fault => rfl
  | none =>
    cases fault' with
    | some fault => rfl
    | none => exact congrArg Except.ok (spell_append strokes strokes')

@[simp] theorem spelled_given {α : Type} (found : Except Fault α) (write : α → Script) :
    (given found write).spelled = found >>= fun value => (write value).spelled := by
  cases found <;> rfl

@[simp] theorem spelled_text (content : String) : (text content).spelled = pure (.text content) := rfl

@[simp] theorem spelled_identifier (name : String) :
    (identifier name).spelled = pure (.identifier name) := rfl

theorem spelled_separated (separator : String) (parts : List Script) :
    (separated separator parts).spelled = Spelling.separated separator <$> parts.mapM spelled := by
  induction parts with
  | nil => rfl
  | cons part rest ih =>
    cases rest with
    | nil => simp [separated, Spelling.separated_singleton]
    | cons next rest =>
      have parts : separated separator (part :: next :: rest) =
        part ++ (text separator ++ separated separator (next :: rest)) := rfl
      rw [parts, spelled_append, spelled_append, ih, spelled_text, List.mapM_cons, List.mapM_cons]
      simp [Spelling.separated_cons_cons]

theorem spelled_junction (separator alone : String) (parts : List Script) :
    (junction separator alone parts).spelled =
      Spelling.junction separator alone <$> parts.mapM spelled := by
  cases parts with
  | nil => rfl
  | cons part rest =>
    have inside : junction separator alone (part :: rest) =
      text "(" ++ separated separator (part :: rest) ++ text ")" := rfl
    rw [inside, spelled_append, spelled_append, spelled_separated, spelled_text, spelled_text,
      List.mapM_cons]
    simp [Spelling.junction]

end Script

namespace Condition

def spelling (condition : Condition Operand) : Spelling :=
  ⟨fun bound => (condition.number bound).pieces, condition.operands⟩

theorem each_spelling (parts : List (Condition Operand)) (bound : Nat) :
    Spelling.each bound (parts.map spelling) = piecesOfAll (numberAll bound parts) := by
  induction parts generalizing bound with
  | nil => rfl
  | cons part rest ih =>
    exact congrArg ((part.number bound).pieces :: ·) (ih (bound + part.operands.length))

theorem operands_spelling (parts : List (Condition Operand)) :
    (parts.map spelling).flatMap (·.operands) = operandsOfAll parts := by
  induction parts with
  | nil => rfl
  | cons part rest ih => exact congrArg (part.operands ++ ·) ih

theorem junction_spelling (separator alone : String) (part : Condition Operand)
    (rest : List (Condition Operand)) :
    Spelling.junction separator alone ((part :: rest).map spelling) =
      ⟨fun bound => .text "(" :: separated separator (piecesOfAll (numberAll bound (part :: rest))) ++
        [.text ")"], operandsOfAll (part :: rest)⟩ := by
  ext1
  · funext bound
    exact congrArg (fun parts => .text "(" :: separated separator parts ++ [.text ")"])
      (each_spelling (part :: rest) bound)
  · exact (List.append_nil _).trans (operands_spelling (part :: rest))

theorem spelling_all (parts : List (Condition Operand)) :
    spelling (.all parts) = Spelling.junction " AND " "1=1" (parts.map spelling) := by
  cases parts with
  | nil => rfl
  | cons part rest => exact (junction_spelling ..).symm

theorem spelling_any (parts : List (Condition Operand)) :
    spelling (.any parts) = Spelling.junction " OR " "1=0" (parts.map spelling) := by
  cases parts with
  | nil => rfl
  | cons part rest => exact (junction_spelling ..).symm

theorem spelling_within (key targetKey target : String) (inner : Condition Operand) :
    spelling (.within key targetKey target inner) =
      .identifier key ++ .text " IN (SELECT " ++ .identifier targetKey ++ .text " FROM " ++
        .identifier target ++ .text " WHERE " ++ inner.spelling ++ .text ")" := by
  ext1
  · rfl
  · exact (List.append_nil _).symm

end Condition

namespace Script

variable {model : Model}

theorem spelled_comparison (column : Column) (predicate : Predicate) :
    (comparison column predicate).spelled =
      Condition.spelling <$> Sql.comparison column predicate := by
  unfold comparison Sql.comparison
  split
  · cases predicate.comparison.nullTest? <;> rfl
  · rfl

theorem spelled_along {finish : Entity → Script}
    {resolved : Entity → Except Fault (Condition Operand)}
    (finished : ∀ target, (finish target).spelled = Condition.spelling <$> resolved target)
    (relations : List String) (entity : Entity) :
    (along model finish entity relations).spelled =
      Condition.spelling <$> Sql.along model resolved entity relations := by
  induction relations generalizing entity with
  | nil => exact finished entity
  | cons relation rest ih =>
    simp [along, Sql.along, ih, Condition.spelling_within]

mutual

theorem spelled_qualifier : ∀ (condition : Qualifier) (entity : Entity),
    (qualifier model entity condition).spelled = Condition.spelling <$> resolve model entity condition
  | .column name predicate, entity => by
    simp [qualifier, resolve, columnComparison, spelled_comparison]
  | .property name predicate, entity => by
    simp [qualifier, resolve, columnComparison, spelled_comparison]
  | .all children, entity => by
    simp [qualifier, resolve, spelled_junction, spelled_qualifiers children, Condition.spelling_all]
  | .any children, entity => by
    simp [qualifier, resolve, spelled_junction, spelled_qualifiers children, Condition.spelling_any]
  | .path relations terminal, entity => by
    rw [qualifier, resolve]
    exact spelled_along (fun target => spelled_qualifier terminal target) relations entity

theorem spelled_qualifiers : ∀ (children : List Qualifier) (entity : Entity),
    (qualifiers model entity children).mapM spelled =
      List.map Condition.spelling <$> resolveAll model entity children
  | [], entity => rfl
  | child :: rest, entity => by
    simp [qualifiers, resolveAll, spelled_qualifier child, spelled_qualifiers rest]

end

theorem mapM_spelled {ι τ : Type} {script : ι → Script} {found : ι → Except Fault τ}
    {shown : τ → Spelling} (each : ∀ item, (script item).spelled = shown <$> found item)
    (items : List ι) :
    (items.map script).mapM spelled = List.map shown <$> items.mapM found := by
  induction items with
  | nil => rfl
  | cons item rest ih => simp [each, ih]

end Script

namespace Spelling

def ofPieces (pieces : List Piece) : Spelling :=
  ⟨fun _ => pieces, []⟩

theorem separated_ofPieces {ι : Type} (separator : String) (write : ι → List Piece)
    (items : List ι) :
    separated separator (items.map fun item => ofPieces (write item)) =
      ofPieces (Sql.separated separator (items.map write)) := by
  have shown (bound : Nat) : each bound (items.map fun item => ofPieces (write item)) =
      items.map write := by
    induction items with
    | nil => rfl
    | cons item rest ih => exact congrArg (write item :: ·) ih
  ext1
  · funext bound
    exact congrArg _ (shown bound)
  · simp [separated, ofPieces, List.flatMap_eq_nil_iff]

def ofPair (write : String × Nat → List Piece) (pair : String × Operand) : Spelling :=
  ⟨fun bound => write (pair.1, bound + 1), [pair.2]⟩

def ofPairs (write : String × Nat → List Piece) (pairs : List (String × Operand)) : Spelling :=
  ⟨fun bound => Sql.separated ", " ((numberPairs bound pairs).map write), pairs.map (·.2)⟩

theorem separated_ofPair (write : String × Nat → List Piece) (pairs : List (String × Operand)) :
    separated ", " (pairs.map (ofPair write)) = ofPairs write pairs := by
  have shown (bound : Nat) :
      each bound (pairs.map (ofPair write)) = (numberPairs bound pairs).map write := by
    induction pairs generalizing bound with
    | nil => rfl
    | cons pair rest ih => exact congrArg (write (pair.1, bound + 1) :: ·) (ih (bound + 1))
  ext1
  · funext bound
    exact congrArg _ (shown bound)
  · simp [separated, ofPair, ofPairs, List.flatMap_map, ← List.map_eq_flatMap]

def ofColumns (columns : List Column) : Spelling :=
  .ofPieces (Sql.separated ", " (columns.map fun column => [.identifier column.name]))

def ofSource (table : String) (condition : Option (Condition Operand)) : Spelling :=
  ⟨fun bound => Statement.fromWhere table (condition.map (Condition.number bound)),
    condition.elim [] Condition.operands⟩

def ofOrder (order : String × SortDirection) : Spelling :=
  .ofPieces (.identifier order.1 :: if order.2 = .descending then [.text " DESC"] else [])

def ofOrders (orders : List (String × SortDirection)) : Spelling :=
  .ofPieces (Statement.orderPieces orders)

theorem ofOrders_cons (first : String × SortDirection) (rest : List (String × SortDirection)) :
    ofOrders (first :: rest) = .text " ORDER BY " ++ separated ", " ((first :: rest).map ofOrder) := by
  unfold ofOrder
  rw [separated_ofPieces]
  rfl

def ofLimit (limit : Option Nat) : Spelling :=
  .ofPieces (limit.elim [] fun limit => [.text (Writer.limitText limit)])

def ofLock (lock : LockMatch Operand) : Spelling :=
  ⟨fun bound => LockMatch.pieces ⟨lock.column, lock.operator, bound + 1⟩, [lock.operand]⟩

def ofFurther (locks : List (LockMatch Operand)) : Spelling :=
  ⟨fun bound => (LockMatch.numberAll bound locks).flatMap (.text " AND " :: ·.pieces),
    locks.map (·.operand)⟩

theorem ofFurther_cons (lock : LockMatch Operand) (rest : List (LockMatch Operand)) :
    ofFurther (lock :: rest) = .text " AND " ++ (ofLock lock ++ ofFurther rest) := rfl

def ofLocks (locks : List (LockMatch Operand)) : Spelling :=
  ⟨fun bound => Statement.wherePieces (LockMatch.numberAll bound locks), locks.map (·.operand)⟩

theorem ofLocks_cons (lock : LockMatch Operand) (rest : List (LockMatch Operand)) :
    ofLocks (lock :: rest) = .text " WHERE " ++ (ofLock lock ++ ofFurther rest) := by
  have joined (first : List Piece) (later : List (LockMatch Nat)) :
      Sql.separated " AND " (first :: later.map LockMatch.pieces) =
        first ++ later.flatMap (.text " AND " :: ·.pieces) := by
    induction later generalizing first with
    | nil => exact (List.append_nil first).symm
    | cons next later ih => exact congrArg (first ++ .text " AND " :: ·) (ih next.pieces)
  ext1
  · funext bound
    exact congrArg (.text " WHERE " :: ·)
      (joined (LockMatch.pieces ⟨lock.column, lock.operator, bound + 1⟩) _)
  · rfl

end Spelling

namespace Script

variable {model : Model} {entity : Entity} {row : RowReader}

theorem spelled_columns (columns : List Column) :
    (separated ", " (columns.map fun column => identifier column.name)).spelled =
      pure (.ofColumns columns) := by
  have listed : columns.mapM (spelled ∘ fun column => identifier column.name) =
    pure (columns.map fun column => Spelling.ofPieces [.identifier column.name]) := List.mapM_pure
  rw [spelled_separated, List.mapM_map, listed, map_pure, Spelling.separated_ofPieces]
  rfl

theorem spelled_source (condition : Option Qualifier) : (source model entity condition).spelled =
    Spelling.ofSource entity.table <$> resolveCondition model entity condition := by
  cases condition with
  | none => rfl
  | some condition =>
    simp only [source, resolveCondition, Option.elim, spelled_append, spelled_text, spelled_identifier,
      spelled_qualifier]
    cases resolve model entity condition <;> rfl

theorem spelled_order (ordering : SortOrdering) : (order entity ordering).spelled =
    Spelling.ofOrder <$>
      (do return ((← entity.columnOf ordering.property).name, ordering.direction)) := by
  obtain ⟨property, direction⟩ := ordering
  rw [order, spelled_given, map_bind]
  refine congrArg _ (funext fun column => ?_)
  cases direction <;> rfl

theorem spelled_orders (orderings : List SortOrdering) :
    (orders entity orderings).spelled = Spelling.ofOrders <$>
      orderings.mapM fun ordering =>
        return ((← entity.columnOf ordering.property).name, ordering.direction) := by
  cases orderings with
  | nil => rfl
  | cons ordering rest =>
    have listed := mapM_spelled (@spelled_order entity) (ordering :: rest)
    have written : orders entity (ordering :: rest) =
      text " ORDER BY " ++ separated ", " ((ordering :: rest).map (order entity)) := rfl
    rw [written, spelled_append, spelled_text, spelled_separated, listed, List.mapM_cons]
    simp [Spelling.ofOrders_cons]

theorem spelled_limit (writer : Writer) (limit : Option Nat) : (Script.limit writer limit).spelled =
    (fun _ => .ofLimit limit) <$> limit.elim (pure ()) writer.checkLimit := by
  cases limit with
  | none => rfl
  | some limit =>
    change (given (writer.checkLimit limit) fun _ => text (Writer.limitText limit)).spelled =
      (fun _ => .ofLimit (some limit)) <$> writer.checkLimit limit
    cases writer.checkLimit limit <;> rfl

theorem spelled_lock (column : Column) (operator : String) (original : Operand) :
    (lock column operator original).spelled = pure (.ofLock ⟨column.name, operator, original⟩) := rfl

theorem spelled_further (columns : List Column) : (locks entity row true columns).spelled =
    Spelling.ofFurther <$> lockMatches entity row columns := by
  induction columns with
  | nil => rfl
  | cons column rest ih =>
    rw [locks, lockMatches, spelled_given, map_bind]
    refine congrArg _ (funext fun strategy => ?_)
    cases strategy.operator? with
    | none => exact ih
    | some operator =>
      simp [spelled_lock, ih, Spelling.ofFurther_cons]

theorem spelled_locks (columns : List Column) : (locks entity row false columns).spelled =
    Spelling.ofLocks <$> (lockMatches entity row columns >>= fun locks =>
      if locks.isEmpty then throw (.nothingToMatch entity.name) else return locks) := by
  induction columns with
  | nil => rfl
  | cons column rest ih =>
    rw [locks, lockMatches, spelled_given, bind_assoc, map_bind]
    refine congrArg _ (funext fun strategy => ?_)
    cases strategy.operator? with
    | none => exact ih
    | some operator =>
      simp [spelled_lock, spelled_further, Spelling.ofLocks_cons]

theorem spelled_guards : (locks entity row false entity.columns).spelled =
    Spelling.ofLocks <$> guards entity row := by
  rw [spelled_locks, guards]
  refine congrArg _ (congrArg _ (funext fun locks => ?_))
  split <;> rfl

theorem spelled_pairs {write : String × Nat → List Piece} {script : Column → Script}
    (each : ∀ column, (script column).spelled =
      Spelling.ofPair write <$> Sql.assignment entity row column) (columns : List Column) :
    (separated ", " (columns.map script)).spelled =
      Spelling.ofPairs write <$> columns.mapM (Sql.assignment entity row) := by
  rw [spelled_separated, mapM_spelled each]
  simp [Spelling.separated_ofPair]

theorem spelled_value (column : Column) : (value entity row column).spelled =
    Spelling.ofPair (fun pair => [.parameter pair.2]) <$> Sql.assignment entity row column := by
  rw [value, Sql.assignment, spelled_given, map_bind]
  rfl

theorem spelled_assignment (column : Column) : (assignment entity row column).spelled =
    Spelling.ofPair (fun pair => [.identifier pair.1, .text " = ", .parameter pair.2]) <$>
      Sql.assignment entity row column := by
  rw [assignment, Sql.assignment, spelled_given, map_bind]
  rfl

end Script

def Spelling.whole (spelling : Spelling) : List Piece × List Operand :=
  (spelling.pieces 0, spelling.operands)

namespace Statement

def whole (statement : Statement Operand) : List Piece × List Operand :=
  (statement.number.pieces, statement.operands)

theorem whole_select (columns : List Column) (table : String) (condition : Option (Condition Operand))
    (orders : List (String × SortDirection)) (limit : Option Nat) :
    (Spelling.text "SELECT " ++ .ofColumns columns ++ .ofSource table condition ++ .ofOrders orders ++
      .ofLimit limit).whole = (select (columns.map (·.name)) table condition orders limit).whole := by
  simp [Spelling.whole, whole, number, pieces, operands, Spelling.text, Spelling.ofColumns,
    Spelling.ofSource, Spelling.ofOrders, Spelling.ofLimit, Spelling.ofPieces, Function.comp_def]

theorem whole_count (table : String) (condition : Option (Condition Operand)) :
    (Spelling.text "SELECT COUNT(*)" ++ .ofSource table condition).whole =
      (count table condition).whole := rfl

theorem whole_insert (table : String) (first : String × Operand) (rest : List (String × Operand))
    {columns : List Column} (named : (first :: rest).map (·.1) = columns.map (·.name)) :
    (Spelling.text "INSERT INTO " ++ .identifier table ++ (.text " (" ++ .ofColumns columns ++
      .text ") VALUES (" ++ .ofPairs (fun pair => [.parameter pair.2]) (first :: rest) ++
      .text ")")).whole = (insert table (first :: rest)).whole := by
  have headed : columns.map (fun column => [Piece.identifier column.name]) =
      (numberPairs 0 (first :: rest)).map fun pair => [.identifier pair.1] := by
    have names := named.symm.trans (numberPairs_names (first :: rest) 0).symm
    simpa [Function.comp_def] using congrArg (List.map fun name => [Piece.identifier name]) names
  have written : (insert table (first :: rest)).number.pieces =
    [.text "INSERT INTO ", .identifier table, .text " ("] ++
      separated ", " ((numberPairs 0 (first :: rest)).map fun pair => [.identifier pair.1]) ++
      [.text ") VALUES ("] ++
      separated ", " ((numberPairs 0 (first :: rest)).map fun pair => [.parameter pair.2]) ++
      [.text ")"] := rfl
  rw [whole, written, ← headed]
  simp [Spelling.whole, operands, Spelling.text, Spelling.identifier, Spelling.ofColumns,
    Spelling.ofPieces, Spelling.ofPairs]

theorem whole_update (table : String) (assignments : List (String × Operand))
    (locks : List (LockMatch Operand)) :
    (Spelling.text "UPDATE " ++ .identifier table ++ .text " SET " ++
      .ofPairs (fun pair => [.identifier pair.1, .text " = ", .parameter pair.2]) assignments ++
      .nothing ++ .ofLocks locks).whole = (update table assignments locks).whole := by
  simp [Spelling.whole, whole, number, pieces, operands, Spelling.text, Spelling.identifier,
    Spelling.ofPairs, Spelling.ofLocks]

theorem whole_delete (table : String) (locks : List (LockMatch Operand)) :
    (Spelling.text "DELETE FROM " ++ .identifier table ++ .ofLocks locks).whole =
      (delete table locks).whole := rfl

end Statement

namespace Script

variable {model : Model}

theorem whole_select (writer : Writer) (fetch : Fetch) : Spelling.whole <$>
    (select model writer fetch).spelled = Statement.whole <$> selectStatement model writer fetch := by
  simp only [select, selectStatement, spelled_given, spelled_append, spelled_text, spelled_columns,
    spelled_source, spelled_orders, spelled_limit, map_bind, bind_map_left, pure_bind,
    Functor.map_map]
  cases fetch.limit <;> simp [Statement.whole_select]

theorem whole_count (fetch : Fetch) : Spelling.whole <$>
    (count model fetch).spelled = Statement.whole <$> countStatement model fetch := by
  simp [count, countStatement, spelled_source, Statement.whole_count]

theorem whole_delete (row : RowReader) : Spelling.whole <$>
    (delete model row).spelled = Statement.whole <$> deleteStatement model row := by
  simp [delete, deleteStatement, spelled_guards, Statement.whole_delete]

theorem whole_update (row : RowReader) : Spelling.whole <$>
    (update model row).spelled = Statement.whole <$> updateStatement model row := by
  rw [update, updateStatement, spelled_given, map_bind, map_bind]
  refine congrArg _ (funext fun entity => ?_)
  simp only [spelled_append, spelled_text, spelled_identifier, spelled_pairs spelled_assignment,
    spelled_guards]
  cases entity.columns.filter (!·.generated) with
  | nil => rfl
  | cons column rest =>
    have passed : (if (column :: rest).isEmpty then failing (.nothingWritable entity.name) else
      done).spelled = pure .nothing := rfl
    rw [passed, List.mapM_cons]
    simp [Statement.whole_update]

theorem whole_insert (row : RowReader) (columns : List String) : Spelling.whole <$>
    (insert model row columns).spelled = Statement.whole <$> insertStatement model row columns := by
  rw [insert, insertStatement, spelled_given, map_bind, map_bind]
  refine congrArg _ (funext fun entity => ?_)
  rw [spelled_given, map_bind, map_bind]
  refine congrArg _ (funext fun columns => ?_)
  cases columns with
  | nil => rfl
  | cons column rest =>
    simp only [spelled_append, spelled_text, spelled_identifier, spelled_columns,
      spelled_pairs spelled_value]
    cases assigned : (column :: rest).mapM (Sql.assignment entity row) with
    | error fault => rfl
    | ok pairs =>
      have named := assigned_names assigned
      cases pairs with
      | nil => cases named
      | cons first others =>
        exact congrArg Except.ok (Statement.whole_insert entity.table first others named)

end Script

theorem Compiler.whole_script (compiler : Compiler) (request : Request) :
    Spelling.whole <$> (compiler.script request).spelled =
      Statement.whole <$> compiler.statement request := by
  cases request with
  | select fetch => exact Script.whole_select compiler.writer fetch
  | count fetch => exact Script.whole_count fetch
  | insert row columns => exact Script.whole_insert row columns
  | update row => exact Script.whole_update row
  | delete row => exact Script.whole_delete row

end RelationalMapper.Sql
