import RelationalMapper.Proofs.Sql.Layout

set_option autoImplicit false

namespace RelationalMapper

namespace Sql

inductive Lexeme where
  | outside (char : Char)
  | identifier (name : String)
deriving DecidableEq

def Lexeme.name? : Lexeme → Option String
  | .outside _ => none
  | .identifier name => some name

mutual

/-- What a text reads as, unless it ends inside an identifier. -/
def scan : List Char → Option (List Lexeme)
  | [] => some []
  | '"' :: rest => scanName [] rest
  | char :: rest => (scan rest).map (.outside char :: ·)

def scanName (read : List Char) : List Char → Option (List Lexeme)
  | [] => none
  | '"' :: '"' :: rest => scanName (read ++ ['"']) rest
  | '"' :: rest => (scan rest).map (.identifier (String.ofList read) :: ·)
  | char :: rest => scanName (read ++ [char]) rest

end

theorem scan_outside {chars : List Char} (plain : '"' ∉ chars) (rest : List Char) :
    scan (chars ++ rest) = (scan rest).map (chars.map .outside ++ ·) := by
  induction chars with
  | nil => simp
  | cons char chars ih =>
    simp only [List.mem_cons, not_or] at plain
    rw [List.cons_append, scan.eq_3 _ _ (by rintro rfl; exact plain.1 rfl), ih plain.2]
    simp [Function.comp_def]

-- A quote that closes an identifier must not look doubled.
theorem scanName_close (read : List Char) {rest : List Char} (apart : rest.head? ≠ some '"') :
    scanName read ('"' :: rest) = (scan rest).map (.identifier (String.ofList read) :: ·) := by
  cases rest with
  | nil => rfl
  | cons next rest =>
    rw [scanName.eq_3]
    rintro _ same
    injection same with quote
    exact apart (by rw [quote]; rfl)

theorem scanName_doubleQuotes (read name : List Char) {rest : List Char}
    (apart : rest.head? ≠ some '"') : scanName read (doubleQuotes name ++ '"' :: rest) =
      (scan rest).map (.identifier (String.ofList (read ++ name)) :: ·) := by
  induction name generalizing read with
  | nil => simpa [doubleQuotes] using scanName_close read apart
  | cons char name ih =>
    by_cases quote : char = '"'
    · subst quote
      simpa [doubleQuotes, scanName] using ih (read ++ ['"'])
    · rw [doubleQuotes, if_neg quote, List.cons_append, scanName.eq_4 _ _ _ (by simp_all) (by simp_all)]
      simpa using ih (read ++ [char])

theorem scan_delimit (name : String) {rest : List Char} (apart : rest.head? ≠ some '"') :
    scan ((delimit name).toList ++ rest) = (scan rest).map (.identifier name :: ·) := by
  rw [delimit, String.toList_ofList]
  simpa [scan] using scanName_doubleQuotes [] name.toList apart

def Rendering.lexemes (rendering : Rendering) : Piece → List Lexeme
  | .text content => content.toList.map .outside
  | .identifier name => [.identifier name]
  | .parameter position => (rendering.written (.parameter position)).map .outside

/-- Between identifiers there are only fixed texts, the limit and placeholders of these parameters. -/
inductive Remains (limit : Option Nat) (style : PlaceholderStyle) (parameters : List Parameter) :
    List Lexeme → Prop
  | nothing : Remains limit style parameters []
  | identifier {name : String} {rest : List Lexeme} (later : Remains limit style parameters rest) :
      Remains limit style parameters (.identifier name :: rest)
  | fixed {content : String} {rest : List Lexeme} (wording : Wording limit content)
      (later : Remains limit style parameters rest) :
      Remains limit style parameters (content.toList.map .outside ++ rest)
  | placeholder {index : Nat} {parameter : Parameter} {rest : List Lexeme}
      (held : parameters[index]? = some parameter) (later : Remains limit style parameters rest) :
      Remains limit style parameters
        ((style.placeholder parameter.name (index + 1)).toList.map .outside ++ rest)

namespace Rendering

variable {rendering : Rendering} {limit : Option Nat} {pieces : List Piece}

theorem scan_written (delimits : rendering.writer.delimited = delimit)
    (quotes : rendering.quoting = true) (laid : Laid limit pieces)
    (plain : ∀ position, .parameter position ∈ pieces →
      '"' ∉ rendering.written (.parameter position)) :
    scan (pieces.flatMap rendering.written) = some (pieces.flatMap rendering.lexemes) := by
  induction pieces with
  | nil => rfl
  | cons piece rest ih =>
    have later (laid : Laid limit rest) := ih laid fun position member => plain position (.tail _ member)
    rw [List.flatMap_cons, List.flatMap_cons]
    cases piece with
    | text content =>
      have unquoted : '"' ∉ content.toList := laid.1.notMem (by decide) (by decide) (by decide)
      rw [written, scan_outside unquoted, later laid.2]
      rfl
    | identifier name =>
      -- What follows a name is divided from it, so its last quote is a single one.
      have apart : (rest.flatMap rendering.written).head? ≠ some '"' := by
        intro first
        have divider := laid.1.head rendering _ first
        exact absurd divider (by decide)
      rw [written, if_pos quotes, delimits, scan_delimit name apart, later laid.2]
      rfl
    | parameter position =>
      rw [scan_outside (plain position (.head _)), later laid.2]
      rfl

theorem remains (rendering : Rendering) (laid : Laid limit pieces)
    (shown : ∀ position, .parameter position ∈ pieces → ∃ index parameter, position = index + 1 ∧
      rendering.parameters[index]? = some parameter ∧ rendering.nameAt position = parameter.name) :
    Remains limit rendering.writer.style rendering.parameters (pieces.flatMap rendering.lexemes) := by
  induction pieces with
  | nil => exact .nothing
  | cons piece rest ih =>
    have later (laid : Laid limit rest) := ih laid fun position member => shown position (.tail _ member)
    rw [List.flatMap_cons]
    cases piece with
    | text content => exact .fixed laid.1 (later laid.2)
    | identifier name => exact .identifier (later laid.2)
    | parameter position =>
      obtain ⟨index, parameter, rfl, held, named⟩ := shown position (.head _)
      rw [lexemes, written, named]
      exact .placeholder held (later laid.2)

end Rendering

def identifiers : List Piece → List String
  | [] => []
  | .identifier name :: rest => name :: identifiers rest
  | .text _ :: rest | .parameter _ :: rest => identifiers rest

@[simp] theorem identifiers_append (first second : List Piece) :
    identifiers (first ++ second) = identifiers first ++ identifiers second := by
  induction first with
  | nil => rfl
  | cons piece rest ih => cases piece <;> simp [identifiers, ih]

@[simp] theorem identifiers_separated (separator : String) (parts : List (List Piece)) :
    identifiers (separated separator parts) = parts.flatMap identifiers := by
  induction parts with
  | nil => rfl
  | cons part rest ih =>
    cases rest with
    | nil => simp [separated]
    | cons next rest => simpa [separated, identifiers] using ih

theorem identifiers_separated_map {α : Type} {separator : String} {items : List α}
    {write : α → List Piece} {read : α → String}
    (each : ∀ item, identifiers (write item) = [read item]) :
    identifiers (separated separator (items.map write)) = items.map read := by
  rw [identifiers_separated, List.flatMap_map, List.map_eq_flatMap]
  simp only [each]

theorem names_lexemes (rendering : Rendering) (pieces : List Piece) :
    (pieces.flatMap rendering.lexemes).filterMap Lexeme.name? = identifiers pieces := by
  induction pieces with
  | nil => rfl
  | cons piece rest ih =>
    rw [List.flatMap_cons, List.filterMap_append, ih]
    cases piece <;> simp [Rendering.lexemes, identifiers, Lexeme.name?, List.filterMap_map,
      Function.comp_def]

end Sql

def Model.namesAlong (model : Model) (finish : Entity → Except Fault (List String)) :
    Entity → List String → Except Fault (List String)
  | entity, [] => finish entity
  | entity, name :: rest => do
    let hop ← model.hop entity name
    return hop.localKey :: hop.targetKey :: hop.target.table ::
      (← model.namesAlong finish hop.target rest)

section

variable (model : Model)

mutual

def Qualifier.names (entity : Entity) : Qualifier → Except Fault (List String)
  | .column name _ => return [(← entity.columnAt (.column name)).name]
  | .property name _ => return [(← entity.columnAt (.property name)).name]
  | .all children | .any children => Qualifier.namesOfAll entity children
  | .path relations terminal =>
    model.namesAlong (fun target => Qualifier.names target terminal) entity relations

def Qualifier.namesOfAll (entity : Entity) : List Qualifier → Except Fault (List String)
  | [] => return []
  | child :: rest => return (← Qualifier.names entity child) ++ (← Qualifier.namesOfAll entity rest)

end

/-- The names that a statement is built from, in order of writing. Those of a lock are written twice. -/
def Sql.Request.names : Sql.Request → Except Fault (List String)
  | .select fetch => do
    let entity ← model.entity fetch.entity
    let compared ← (fetch.qualifier.map (·.names model entity)).getD (.ok [])
    let ordered ← fetch.orderings.mapM fun ordering =>
      return (← entity.columnOf ordering.property).name
    return entity.columns.map (·.name) ++ entity.table :: compared ++ ordered
  | .count fetch => do
    let entity ← model.entity fetch.entity
    let compared ← (fetch.qualifier.map (·.names model entity)).getD (.ok [])
    return entity.table :: compared
  | .insert row columns => do
    let entity ← model.entity row.entity
    return entity.table :: (← columns.mapM entity.column).map (·.name)
  | .update row => do
    let entity ← model.entity row.entity
    return entity.table :: (entity.columns.filter (!·.generated)).map (·.name) ++
      (entity.columns.filter Column.locks).flatMap fun column => [column.name, column.name]
  | .delete row => do
    let entity ← model.entity row.entity
    return entity.table ::
      (entity.columns.filter Column.locks).flatMap fun column => [column.name, column.name]

end

namespace Sql

section

variable {model : Model} {entity : Entity}

theorem comparison_identifiers {column : Column} {predicate : Predicate}
    {condition : Condition Operand} (built : comparison column predicate = .ok condition) (bound : Nat) :
    identifiers (condition.number bound).pieces = [column.name] := by
  unfold comparison at built
  split at built
  · split at built
    · cases built
      rfl
    · cases built
  · cases built
    rfl

theorem along_names {finish : Entity → Except Fault (Condition Operand)}
    {names : Entity → Except Fault (List String)}
    (each : ∀ target inner, finish target = .ok inner → ∀ bound,
      names target = .ok (identifiers (inner.number bound).pieces))
    {relations : List String} {condition : Condition Operand}
    (resolved : along model finish entity relations = .ok condition) (bound : Nat) :
    model.namesAlong names entity relations = .ok (identifiers (condition.number bound).pieces) := by
  induction relations generalizing entity condition with
  | nil => exact each entity condition resolved bound
  | cons name rest ih =>
    obtain ⟨hop, hopped, resolved⟩ := Except.bind_eq_ok.mp resolved
    obtain ⟨inner, beyond, resolved⟩ := Except.bind_eq_ok.mp resolved
    cases resolved
    refine Except.bind_eq_ok.mpr ⟨hop, hopped, Except.bind_eq_ok.mpr ⟨_, ih beyond, ?_⟩⟩
    simp [Condition.number, Condition.pieces, identifiers, pure, Except.pure]

-- Without parts there are no names either.
theorem identifiers_junction (parts : List (Condition Operand)) (bound : Nat) :
    identifiers ((Condition.all parts).number bound).pieces =
        (Condition.piecesOfAll (Condition.numberAll bound parts)).flatMap identifiers ∧
      identifiers ((Condition.any parts).number bound).pieces =
        (Condition.piecesOfAll (Condition.numberAll bound parts)).flatMap identifiers := by
  cases parts with
  | nil => exact ⟨rfl, rfl⟩
  | cons part rest =>
    simp [Condition.number, Condition.numberAll, Condition.pieces, Condition.piecesOfAll, identifiers]

mutual

theorem resolve_names : ∀ (qualifier : Qualifier) {entity : Entity} {condition : Condition Operand},
    resolve model entity qualifier = .ok condition → ∀ bound,
      qualifier.names model entity = .ok (identifiers (condition.number bound).pieces)
  | .column name predicate, entity, condition, resolved, bound => by
    rw [resolve] at resolved
    obtain ⟨column, found, built⟩ := Except.bind_eq_ok.mp resolved
    rw [Qualifier.names, comparison_identifiers built]
    exact Except.bind_eq_ok.mpr ⟨column, found, rfl⟩
  | .property name predicate, entity, condition, resolved, bound => by
    rw [resolve] at resolved
    obtain ⟨held, property, resolved⟩ := Except.bind_eq_ok.mp resolved
    obtain ⟨column, found, built⟩ := Except.bind_eq_ok.mp resolved
    rw [Qualifier.names, comparison_identifiers built]
    exact Except.bind_eq_ok.mpr ⟨column, Except.bind_eq_ok.mpr ⟨held, property, found⟩, rfl⟩
  | .all children, entity, condition, resolved, bound => by
    rw [resolve] at resolved
    obtain ⟨parts, each, resolved⟩ := Except.bind_eq_ok.mp resolved
    cases resolved
    rw [Qualifier.names, (identifiers_junction parts bound).1]
    exact resolveAll_names children each bound
  | .any children, entity, condition, resolved, bound => by
    rw [resolve] at resolved
    obtain ⟨parts, each, resolved⟩ := Except.bind_eq_ok.mp resolved
    cases resolved
    rw [Qualifier.names, (identifiers_junction parts bound).2]
    exact resolveAll_names children each bound
  | .path relations terminal, entity, condition, resolved, bound => by
    rw [resolve] at resolved
    rw [Qualifier.names]
    exact along_names (fun _ _ finished => resolve_names terminal finished) resolved bound

theorem resolveAll_names : ∀ (children : List Qualifier) {entity : Entity}
    {parts : List (Condition Operand)}, resolveAll model entity children = .ok parts → ∀ bound,
      Qualifier.namesOfAll model entity children =
        .ok ((Condition.piecesOfAll (Condition.numberAll bound parts)).flatMap identifiers)
  | [], entity, parts, resolved, bound => by
    cases resolved
    rfl
  | child :: rest, entity, parts, resolved, bound => by
    rw [resolveAll] at resolved
    obtain ⟨part, here, resolved⟩ := Except.bind_eq_ok.mp resolved
    obtain ⟨later, each, resolved⟩ := Except.bind_eq_ok.mp resolved
    cases resolved
    rw [Qualifier.namesOfAll]
    exact Except.bind_eq_ok.mpr ⟨_, resolve_names child here bound,
      Except.bind_eq_ok.mpr ⟨_, resolveAll_names rest each _, rfl⟩⟩

end

theorem resolveCondition_names {qualifier : Option Qualifier} {condition : Option (Condition Operand)}
    (resolved : resolveCondition model entity qualifier = .ok condition) :
    (qualifier.map (·.names model entity)).getD (.ok []) =
      .ok (condition.elim [] fun condition => identifiers (condition.number 0).pieces) := by
  cases qualifier with
  | none =>
    cases resolved
    rfl
  | some qualifier =>
    obtain ⟨built, here, same⟩ := Except.bind_eq_ok.mp resolved
    cases same
    exact resolve_names qualifier here 0

theorem identifiers_fromWhere (table : String) (condition : Option (Condition Operand)) :
    identifiers (Statement.fromWhere table (condition.map (Condition.number 0))) =
      table :: condition.elim [] fun condition => identifiers (condition.number 0).pieces := by
  cases condition <;> rfl

theorem identifiers_orderPieces (orderings : List (String × SortDirection)) :
    identifiers (Statement.orderPieces orderings) = orderings.map (·.1) := by
  cases orderings with
  | nil => rfl
  | cons first rest =>
    refine identifiers_separated_map ?_
    rintro ⟨column, direction⟩
    cases direction <;> rfl

theorem numberPairs_names {α : Type} (pairs : List (String × α)) (bound : Nat) :
    (numberPairs bound pairs).map (·.1) = pairs.map (·.1) := by
  induction pairs generalizing bound with
  | nil => rfl
  | cons pair rest ih => simp [numberPairs, ih]

theorem numberAll_columns {α : Type} (locks : List (LockMatch α)) (bound : Nat) :
    (LockMatch.numberAll bound locks).map (·.column) = locks.map (·.column) := by
  induction locks generalizing bound with
  | nil => rfl
  | cons lock rest ih => simp [LockMatch.numberAll, ih]

theorem identifiers_wherePieces {α : Type} (locks : List (LockMatch α)) (bound : Nat) :
    identifiers (Statement.wherePieces (LockMatch.numberAll bound locks)) =
      (locks.map (·.column)).flatMap fun name => [name, name] := by
  have each : identifiers (Statement.wherePieces (LockMatch.numberAll bound locks)) =
      ((LockMatch.numberAll bound locks).map (·.column)).flatMap fun name => [name, name] := by
    cases LockMatch.numberAll bound locks with
    | nil => rfl
    | cons lock rest =>
      simp [Statement.wherePieces, identifiers, List.flatMap_map, LockMatch.pieces]
  rw [each, numberAll_columns]

theorem ordered_names {asked : List SortOrdering} {orderings : List (String × SortDirection)}
    (ordered : (asked.mapM fun ordering => do
      return ((← entity.columnOf ordering.property).name, ordering.direction)) = .ok orderings) :
    (asked.mapM fun ordering => return (← entity.columnOf ordering.property).name) =
      .ok (orderings.map (·.1)) := by
  rw [Except.mapM_eq_ok, List.forall₂_map_right_iff]
  refine (Except.mapM_eq_ok.mp ordered).imp fun ordering pair found => ?_
  obtain ⟨column, property, same⟩ := Except.bind_eq_ok.mp found
  cases same
  exact Except.bind_eq_ok.mpr ⟨column, property, rfl⟩

theorem assigned_names {row : RowReader} {columns : List Column} {assignments : List (String × Operand)}
    (assigned : columns.mapM (assignment entity row) = .ok assignments) :
    assignments.map (·.1) = columns.map (·.name) := by
  rw [← List.forall₂_eq_eq_eq, List.forall₂_map_left_iff, List.forall₂_map_right_iff]
  refine (Except.mapM_eq_ok.mp assigned).flip.imp fun pair column built => ?_
  obtain ⟨found, read, same⟩ := Except.bind_eq_ok.mp built
  cases same
  rfl

theorem identifiers_insert {α : Type} (table : String) (columns : List (String × α)) :
    identifiers (Statement.insert table columns).number.pieces = table :: columns.map (·.1) := by
  rw [← numberPairs_names columns 0, Statement.number]
  cases numberPairs 0 columns with
  | nil => rfl
  | cons first rest =>
    have names : identifiers (separated ", " ((first :: rest).map fun pair => [.identifier pair.1])) =
        (first :: rest).map (·.1) := identifiers_separated_map fun _ => rfl
    have values : identifiers (separated ", " ((first :: rest).map fun pair =>
        [.parameter pair.2])) = [] := by
      simp [identifiers, List.flatMap_map]
    simp only [Statement.pieces, identifiers_append, names, values]
    simp [identifiers]

theorem identifiers_update {α : Type} (table : String) (assignments : List (String × α))
    (locks : List (LockMatch α)) :
    identifiers (Statement.update table assignments locks).number.pieces =
      table :: assignments.map (·.1) ++ (locks.map (·.column)).flatMap fun name => [name, name] := by
  have assigned : identifiers (separated ", " ((numberPairs 0 assignments).map fun pair =>
      [.identifier pair.1, .text " = ", .parameter pair.2])) = assignments.map (·.1) := by
    rw [identifiers_separated_map fun _ => rfl, numberPairs_names]
  simp only [Statement.number, Statement.pieces, identifiers_append, assigned, identifiers_wherePieces]
  rfl

theorem Compiler.names_eq_identifiers {compiler : Compiler} {request : Request} {statement : Statement Operand}
    (built : compiler.statement request = .ok statement) :
    request.names compiler.model = .ok (identifiers statement.number.pieces) := by
  cases request with
  | select fetch =>
    obtain ⟨entity, condition, orderings, known, resolved, ordered, rfl⟩ := selectStatement_parts built
    refine Except.bind_eq_ok.mpr ⟨entity, known, Except.bind_eq_ok.mpr
      ⟨_, resolveCondition_names resolved, Except.bind_eq_ok.mpr
        ⟨_, ordered_names ordered, congrArg Except.ok ?_⟩⟩⟩
    have listed : identifiers (separated ", " ((entity.columns.map (·.name)).map fun column =>
        [.identifier column])) = (entity.columns.map (·.name)).map id :=
      identifiers_separated_map fun _ => rfl
    have limited : identifiers
        (fetch.limit.elim [] fun limit => [.text (Writer.limitText limit)]) = [] := by
      cases fetch.limit <;> rfl
    rw [List.map_id] at listed
    simp only [Statement.number, Statement.pieces, identifiers_append, identifiers, listed,
      identifiers_fromWhere, identifiers_orderPieces, limited, List.append_nil]
  | count fetch =>
    obtain ⟨entity, condition, known, resolved, rfl⟩ := countStatement_eq_ok built
    refine Except.bind_eq_ok.mpr ⟨entity, known, Except.bind_eq_ok.mpr
      ⟨_, resolveCondition_names resolved, congrArg Except.ok ?_⟩⟩
    exact (identifiers_fromWhere entity.table condition).symm
  | insert row names =>
    obtain ⟨entity, columns, assignments, known, found, assigned, rfl⟩ := insertStatement_eq_ok built
    refine Except.bind_eq_ok.mpr ⟨entity, known, Except.bind_eq_ok.mpr
      ⟨_, found, congrArg Except.ok ?_⟩⟩
    rw [identifiers_insert, assigned_names assigned]
  | update row =>
    obtain ⟨entity, assignments, locks, known, assigned, guarded, rfl⟩ := updateStatement_parts built
    refine Except.bind_eq_ok.mpr ⟨entity, known, congrArg Except.ok ?_⟩
    rw [identifiers_update, assigned_names assigned, (guards_locks guarded).2, List.flatMap_map]
  | delete row =>
    obtain ⟨entity, locks, known, guarded, rfl⟩ := deleteStatement_eq_ok built
    refine Except.bind_eq_ok.mpr ⟨entity, known, congrArg Except.ok ?_⟩
    rw [← List.flatMap_map Column.name fun name => [name, name], ← (guards_locks guarded).2,
      ← identifiers_wherePieces locks 0]
    rfl

end

theorem notMem_boundName {column : String} {char : Char} (other : char ∉ column.toList)
    (plain : char.isDigit = false) (number : Nat) : char ∉ (boundName column number).toList := by
  rw [boundName, String.toList_append, List.mem_append]
  rintro (spelt | counted)
  · exact other spelt
  · rw [isDigit_of_mem_toString counted] at plain
    cases plain

namespace PlaceholderStyle

def marker : PlaceholderStyle → Char
  | atSign => '@'
  | colon => ':'
  | numbered => '$'

def shown (name : String) (position : Nat) : PlaceholderStyle → String
  | atSign | colon => name
  | numbered => toString position

theorem toList_placeholder (style : PlaceholderStyle) (name : String) (position : Nat) :
    (style.placeholder name position).toList = style.marker :: (style.shown name position).toList := by
  cases style <;> rw [placeholder, String.toList_append] <;> rfl

end PlaceholderStyle

namespace Statement

variable {statement : Statement Operand} {writer : Writer} {quoting : Bool}

theorem parameter_named {parameter : Parameter}
    (bound : parameter ∈ (statement.command writer quoting).parameters) :
    ∃ number, parameter.name = boundName parameter.column.name number := by
  obtain ⟨numbers, held⟩ := Binder.numbers_empty.bindAll statement.operands
  obtain ⟨length, named⟩ := List.forall₂_iff_get.mp held.numbering.named
  obtain ⟨index, within, rfl⟩ := List.getElem_of_mem bound
  exact ⟨_, named index within (length ▸ within)⟩

theorem placeholder_plain (plain : writer.style = .numbered ∨
      ∀ parameter ∈ (statement.command writer quoting).parameters,
        '"' ∉ parameter.column.name.toList) {position : Nat}
    (member : .parameter position ∈ statement.number.pieces) : '"' ∉ Rendering.written
      ⟨writer, quoting, (statement.command writer quoting).parameters⟩ (.parameter position) := by
  have referred := mem_references member
  obtain ⟨index, parameter, rfl, held, named⟩ := parameter_of_reference writer quoting referred
  obtain ⟨number, spelt⟩ := parameter_named (List.mem_of_getElem? held)
  rw [Rendering.written, named, spelt, PlaceholderStyle.toList_placeholder, List.mem_cons, not_or]
  refine ⟨by cases writer.style <;> decide, ?_⟩
  cases style : writer.style with
  | numbered =>
    intro quote
    exact absurd (isDigit_of_mem_toString quote) (by decide)
  | atSign | colon =>
    have free := plain.resolve_left (by simp [style])
    exact notMem_boundName (free parameter (List.mem_of_getElem? held)) (by decide) number

end Statement

/-- Whatever tables and columns are called, a reader of the text finds the names that the statement is
built from, and between them only what the compiler itself writes. Where placeholders show names, those
of the bound columns are free of quotes. -/
theorem identifiers_read_back {compiler : Compiler} {request : Request} {command : Command}
    (delimits : compiler.writer.delimited = delimit) (quotes : compiler.quoting = true)
    (compiled : compiler.compile request = .ok command)
    (plain : compiler.writer.style = .numbered ∨
      ∀ parameter ∈ command.parameters, '"' ∉ parameter.column.name.toList) :
    ∃ lexemes, scan command.text.toList = some lexemes ∧
      request.names compiler.model = .ok (lexemes.filterMap Lexeme.name?) ∧
      Remains request.limit compiler.writer.style command.parameters lexemes := by
  rw [Compiler.compile_eq_finish] at compiled
  obtain ⟨statement, built, rfl⟩ := finish_eq_ok compiled
  have laid := Compiler.laid built
  rw [Statement.toList_text]
  refine ⟨_, Rendering.scan_written delimits quotes laid fun _ => Statement.placeholder_plain plain, ?_,
    Rendering.remains ⟨compiler.writer, compiler.quoting, _⟩ laid fun _ member =>
      Statement.parameter_of_reference _ _ (mem_references member)⟩
  rw [names_lexemes, Compiler.names_eq_identifiers built]

-- A name that is empty, and names of quotes.
def oddities : Model :=
  ⟨[⟨"Oddity", "\"", [⟨"", "id", true, false, none⟩,
    ⟨"\"\" = $1", "note", false, false, some "none"⟩], []⟩]⟩

def oddity : RowReader :=
  ⟨"Oddity", fun _ _ => some (.integer 7)⟩

theorem oddity_read_back :
    ∃ command lexemes,
      (⟨oddities, Dialect.postgresql.writer, true⟩ : Compiler).compile (.update oddity) = .ok command ∧
        command.text = "UPDATE \"\"\"\" SET \"\" = $1, \"\"\"\"\" = $1\" = $2" ++
          " WHERE ((\"\" = $3) OR (COALESCE(\"\", $3) IS NULL))" ∧
        scan command.text.toList = some lexemes ∧
        lexemes.filterMap Lexeme.name? = ["\"", "", "\"\" = $1", "", ""] := by
  obtain ⟨command, compiled⟩ : ∃ command,
      (⟨oddities, Dialect.postgresql.writer, true⟩ : Compiler).compile (.update oddity) = .ok command :=
    ⟨_, rfl⟩
  obtain ⟨lexemes, read, names, -⟩ := identifiers_read_back rfl rfl compiled (.inl rfl)
  refine ⟨command, lexemes, compiled, ?_, read, (Except.ok.inj names).symm⟩
  cases compiled
  decide

end Sql

end RelationalMapper
