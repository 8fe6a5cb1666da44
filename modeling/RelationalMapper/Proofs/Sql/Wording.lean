import RelationalMapper.Proofs.Sql.Binding
import RelationalMapper.Sql.Compile

set_option autoImplicit false

namespace RelationalMapper

-- The blanks keep the case-insensitive form apart from plain equality.
def Comparison.symbol : Comparison → String
  | .equals => "="
  | .notEqual => "<>"
  | .lessThan => "<"
  | .lessOrEqual => "<="
  | .greaterThan => ">"
  | .greaterOrEqual => ">="
  | .like => "LIKE"
  | .caseInsensitiveEquals => " = "

theorem Comparison.operator_eq_symbol (comparison : Comparison) :
    comparison.operator = comparison.symbol := by
  cases comparison <;> rfl

namespace Sql

namespace Rendering

def Remembers (rendering : Rendering) (known : DelimitedNames) : Prop :=
  ∀ name delimited, known.get? name = some delimited → delimited = rendering.writer.delimited name

variable {rendering : Rendering} {known : DelimitedNames}

theorem remembers_empty : rendering.Remembers .empty := by
  intro name delimited found
  cases found

theorem identifier_eq (remembers : rendering.Remembers known) (name : String) :
    (rendering.identifier known name).1 =
        (if rendering.quoting then rendering.writer.delimited name else name) ∧
      rendering.Remembers (rendering.identifier known name).2 := by
  unfold identifier
  split
  · split
    next delimited found => exact ⟨remembers name delimited found, remembers⟩
    next =>
      refine ⟨rfl, fun other delimited found => ?_⟩
      rw [Assoc.get?_insert] at found
      split at found
      next same =>
        cases found
        rw [same]
      next => exact remembers other delimited found
  · exact ⟨rfl, remembers⟩

def written (rendering : Rendering) : Piece → List Char
  | .text content => content.toList
  | .identifier name => (if rendering.quoting then rendering.writer.delimited name else name).toList
  | .parameter position =>
    (rendering.writer.style.placeholder (rendering.nameAt position) position).toList

theorem write_eq_flatMap (remembers : rendering.Remembers known) (pieces : List Piece) :
    rendering.write known pieces = pieces.flatMap rendering.written := by
  induction pieces generalizing known with
  | nil => rfl
  | cons piece rest ih =>
    rw [List.flatMap_cons]
    cases piece with
    | text content => rw [write, ih remembers, written]
    | identifier name =>
      obtain ⟨same, still⟩ := identifier_eq remembers name
      rw [write, written, ← same, ← ih still]
    | parameter position => rw [write, ih remembers, written]

theorem written_separated (separator : String) (parts : List (List Piece)) :
    (separated separator parts).flatMap rendering.written =
      separator.toList.intercalate (parts.map (·.flatMap rendering.written)) := by
  induction parts with
  | nil => rfl
  | cons part rest ih =>
    cases rest with
    | nil => simp [separated]
    | cons next rest =>
      change (part ++ .text separator :: separated separator (next :: rest)).flatMap _ = _
      rw [List.flatMap_append, List.flatMap_cons, ih, Rendering.written]
      simp [List.intercalate_cons_cons]

end Rendering

theorem Statement.toList_text (statement : Statement Operand) (writer : Writer) (quoting : Bool) :
    (statement.command writer quoting).text.toList = statement.number.pieces.flatMap
      (Rendering.written ⟨writer, quoting, (statement.command writer quoting).parameters⟩) := by
  rw [← Rendering.write_eq_flatMap Rendering.remembers_empty]
  exact String.toList_ofList

namespace Compiler

def shown (compiler : Compiler) (name : String) : String :=
  if compiler.quoting then compiler.writer.delimited name else name

def placeholder (compiler : Compiler) (parameters : List Parameter) (position : Nat) : String :=
  compiler.writer.style.placeholder ((parameters[position - 1]?).elim "" (·.name)) position

end Compiler

section

variable (compiler : Compiler) (parameters : List Parameter)

namespace Condition

mutual

def text : Condition Nat → String
  | .nullTest column .isNull => compiler.shown column ++ " IS NULL"
  | .nullTest column .isNotNull => compiler.shown column ++ " IS NOT NULL"
  | .compare column comparison position => compiler.shown column ++ " " ++ comparison.symbol ++ " " ++
      compiler.placeholder parameters position
  | .all [] => "1=1"
  | .all parts => "(" ++ " AND ".intercalate (texts parts) ++ ")"
  | .any [] => "1=0"
  | .any parts => "(" ++ " OR ".intercalate (texts parts) ++ ")"
  | .within key targetKey target inner =>
    compiler.shown key ++ " IN (SELECT " ++ compiler.shown targetKey ++ " FROM " ++
      compiler.shown target ++ " WHERE " ++ inner.text ++ ")"

def texts : List (Condition Nat) → List String
  | [] => []
  | part :: rest => part.text :: texts rest

end

end Condition

def LockMatch.text (lock : LockMatch Nat) : String :=
  let column := compiler.shown lock.column
  let placeholder := compiler.placeholder parameters lock.operand
  "((" ++ column ++ " " ++ lock.operator ++ " " ++ placeholder ++ ") OR (COALESCE(" ++ column ++ ", " ++
    placeholder ++ ") IS NULL))"

namespace Statement

def sourceText (table : String) (condition : Option (Condition Nat)) : String :=
  " FROM " ++ compiler.shown table ++
    condition.elim "" fun condition => " WHERE " ++ condition.text compiler parameters

def orderText : List (String × SortDirection) → String
  | [] => ""
  | orderings => " ORDER BY " ++ ", ".intercalate (orderings.map fun (column, direction) =>
      compiler.shown column ++ if direction = .descending then " DESC" else "")

def guardText : List (LockMatch Nat) → String
  | [] => ""
  | locks => " WHERE " ++ " AND ".intercalate (locks.map (·.text compiler parameters))

/-- The text of a statement, written out kind by kind. -/
def text : Statement Nat → String
  | .select columns table condition orderings limit =>
    "SELECT " ++ ", ".intercalate (columns.map compiler.shown) ++
      sourceText compiler parameters table condition ++ orderText compiler orderings ++
      limit.elim "" fun limit => " LIMIT " ++ toString limit
  | .count table condition => "SELECT COUNT(*)" ++ sourceText compiler parameters table condition
  | .insert table [] => "INSERT INTO " ++ compiler.shown table ++ " DEFAULT VALUES"
  | .insert table columns =>
    "INSERT INTO " ++ compiler.shown table ++ " (" ++
      ", ".intercalate (columns.map fun (column, _) => compiler.shown column) ++ ") VALUES (" ++
      ", ".intercalate (columns.map fun (_, position) => compiler.placeholder parameters position) ++ ")"
  | .update table assignments locks =>
    "UPDATE " ++ compiler.shown table ++ " SET " ++
      ", ".intercalate (assignments.map fun (column, position) =>
        compiler.shown column ++ " = " ++ compiler.placeholder parameters position) ++
      guardText compiler parameters locks
  | .delete table locks =>
    "DELETE FROM " ++ compiler.shown table ++ guardText compiler parameters locks

end Statement

def Compiler.reading (pieces : List Piece) : String :=
  String.ofList (pieces.flatMap (Rendering.written ⟨compiler.writer, compiler.quoting, parameters⟩))

end

section

variable {compiler : Compiler} {parameters : List Parameter}

theorem text_command (statement : Statement Operand) :
    (statement.command compiler.writer compiler.quoting).text = compiler.reading
      (statement.command compiler.writer compiler.quoting).parameters statement.number.pieces := by
  rw [← String.toList_inj, Statement.toList_text]
  exact String.toList_ofList.symm

@[simp] theorem reading_append (first second : List Piece) : compiler.reading parameters (first ++ second) =
    compiler.reading parameters first ++ compiler.reading parameters second := by
  rw [Compiler.reading, List.flatMap_append, String.ofList_append]
  rfl

@[simp] theorem reading_text (content : String) (rest : List Piece) :
    compiler.reading parameters (.text content :: rest) =
      content ++ compiler.reading parameters rest := by
  rw [Compiler.reading, List.flatMap_cons, String.ofList_append, Rendering.written,
    String.ofList_toList]
  rfl

@[simp] theorem reading_identifier (name : String) (rest : List Piece) :
    compiler.reading parameters (.identifier name :: rest) =
      compiler.shown name ++ compiler.reading parameters rest := by
  rw [Compiler.reading, List.flatMap_cons, String.ofList_append, Rendering.written,
    String.ofList_toList]
  rfl

@[simp] theorem reading_parameter (position : Nat) (rest : List Piece) :
    compiler.reading parameters (.parameter position :: rest) =
      compiler.placeholder parameters position ++ compiler.reading parameters rest := by
  rw [Compiler.reading, List.flatMap_cons, String.ofList_append, Rendering.written,
    String.ofList_toList]
  rfl

@[simp] theorem reading_nil : compiler.reading parameters [] = "" := rfl

@[simp] theorem reading_separated (separator : String) (parts : List (List Piece)) :
    compiler.reading parameters (separated separator parts) =
      separator.intercalate (parts.map (compiler.reading parameters)) := by
  rw [← String.toList_inj, Compiler.reading, String.toList_ofList, Rendering.written_separated,
    String.toList_intercalate, List.map_map]
  congr 1
  refine List.map_congr_left fun part _ => ?_
  exact String.toList_ofList.symm

namespace Condition

mutual

theorem reading_pieces : ∀ condition : Condition Nat,
    compiler.reading parameters condition.pieces = condition.text compiler parameters
  | .nullTest column .isNull | .nullTest column .isNotNull => by
    simp [pieces, text, Comparison.NullTest.text]
  | .compare column comparison position => by
    simp [pieces, text, Comparison.operator_eq_symbol, String.append_assoc]
  | .all [] | .any [] => by
    simp [pieces, text]
  | .all (part :: rest) | .any (part :: rest) => by
    simp [pieces, text, reading_piecesOfAll (part :: rest), String.append_assoc]
  | .within key targetKey target inner => by
    simp [pieces, text, reading_pieces inner, String.append_assoc]

theorem reading_piecesOfAll : ∀ parts : List (Condition Nat),
    (piecesOfAll parts).map (compiler.reading parameters) = texts compiler parameters parts
  | [] => rfl
  | part :: rest => by
    rw [piecesOfAll, List.map_cons, texts, reading_pieces part, reading_piecesOfAll rest]

end

end Condition

theorem LockMatch.reading_pieces (lock : LockMatch Nat) :
    compiler.reading parameters lock.pieces = lock.text compiler parameters := by
  simp [pieces, text, String.append_assoc]

namespace Statement

theorem reading_fromWhere (table : String) (condition : Option (Condition Nat)) :
    compiler.reading parameters (fromWhere table condition) =
      sourceText compiler parameters table condition := by
  cases condition <;> simp [fromWhere, sourceText, Condition.reading_pieces, String.append_assoc]

theorem reading_orderPieces (orderings : List (String × SortDirection)) :
    compiler.reading parameters (orderPieces orderings) = orderText compiler orderings := by
  have each (ordering : String × SortDirection) : compiler.reading parameters
      (.identifier ordering.1 :: if ordering.2 = .descending then [.text " DESC"] else []) =
        compiler.shown ordering.1 ++ if ordering.2 = .descending then " DESC" else "" := by
    rw [reading_identifier]
    split <;> simp
  cases orderings with
  | nil => rfl
  | cons first rest => simp [orderPieces, orderText, each, Function.comp_def]

theorem reading_wherePieces (locks : List (LockMatch Nat)) :
    compiler.reading parameters (wherePieces locks) = guardText compiler parameters locks := by
  cases locks with
  | nil => rfl
  | cons lock rest => simp [wherePieces, guardText, LockMatch.reading_pieces, Function.comp_def]

theorem reading_pieces (statement : Statement Nat) :
    compiler.reading parameters statement.pieces = statement.text compiler parameters := by
  cases statement with
  | select columns table condition orderings limit =>
    cases limit <;> simp [pieces, text, reading_fromWhere, reading_orderPieces, Function.comp_def,
      Writer.limitText, String.append_assoc]
  | count table condition => simp [pieces, text, reading_fromWhere]
  | insert table columns =>
    cases columns <;> simp [pieces, text, Function.comp_def, String.append_assoc]
  | update table assignments locks =>
    simp [pieces, text, reading_wherePieces, Function.comp_def, String.append_assoc]
  | delete table locks => simp [pieces, text, reading_wherePieces, String.append_assoc]

end Statement

end

end Sql

end RelationalMapper
