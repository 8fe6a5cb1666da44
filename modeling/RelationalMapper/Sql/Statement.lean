import RelationalMapper.Query.Qualifier
import RelationalMapper.Schema.Entity
import RelationalMapper.Sql.Writer

/-!
Commands as trees, over whatever stands at the place of a parameter: first the column and the value
to be bound, then the position among the parameters, counted from one in the order of writing. The
written form is a list of pieces, in which names and parameters are still told from the fixed text.
-/

set_option autoImplicit false

namespace RelationalMapper.Sql

inductive Condition (α : Type) where
  | nullTest (column : String) (test : Comparison.NullTest)
  | compare (column : String) (comparison : Comparison) (operand : α)
  | all (parts : List (Condition α))
  | any (parts : List (Condition α))
  | within (key targetKey target : String) (inner : Condition α)
deriving Inhabited

/-- `column` matches the operand, or both are null. -/
structure LockMatch (α : Type) where
  column : String
  operator : String
  operand : α

inductive Statement (α : Type) where
  | select (columns : List String) (table : String) (condition : Option (Condition α))
      (orderings : List (String × SortDirection)) (limit : Option Nat)
  | count (table : String) (condition : Option (Condition α))
  | insert (table : String) (columns : List (String × α))
  | update (table : String) (assignments : List (String × α)) (locks : List (LockMatch α))
  | delete (table : String) (locks : List (LockMatch α))

inductive Piece where
  | text (content : String)
  | identifier (name : String)
  | parameter (position : Nat)
deriving DecidableEq

def separated (separator : String) : List (List Piece) → List Piece
  | [] => []
  | [part] => part
  | part :: rest => part ++ .text separator :: separated separator rest

namespace Condition

variable {α : Type}

mutual

def operands : Condition α → List α
  | .nullTest .. => []
  | .compare _ _ operand => [operand]
  | .all parts | .any parts => operandsOfAll parts
  | .within _ _ _ inner => inner.operands

def operandsOfAll : List (Condition α) → List α
  | [] => []
  | part :: rest => part.operands ++ operandsOfAll rest

end

mutual

def number (bound : Nat) : Condition α → Condition Nat
  | .nullTest column test => .nullTest column test
  | .compare column comparison _ => .compare column comparison (bound + 1)
  -- A part starts where the operands of the parts before it end.
  | .all parts => .all (numberAll bound parts)
  | .any parts => .any (numberAll bound parts)
  | .within key targetKey target inner => .within key targetKey target (inner.number bound)

def numberAll (bound : Nat) : List (Condition α) → List (Condition Nat)
  | [] => []
  | part :: rest => part.number bound :: numberAll (bound + part.operands.length) rest

end

mutual

def pieces : Condition Nat → List Piece
  | .nullTest column test => [.identifier column, .text (" " ++ test.text)]
  | .compare column comparison position =>
    [.identifier column, .text (" " ++ comparison.operator ++ " "), .parameter position]
  -- No parts at all is a condition of its own, and takes no parentheses.
  | .all [] => [.text "1=1"]
  | .all parts => .text "(" :: separated " AND " (piecesOfAll parts) ++ [.text ")"]
  | .any [] => [.text "1=0"]
  | .any parts => .text "(" :: separated " OR " (piecesOfAll parts) ++ [.text ")"]
  | .within key targetKey target inner =>
    [.identifier key, .text " IN (SELECT ", .identifier targetKey, .text " FROM ",
      .identifier target, .text " WHERE "] ++ inner.pieces ++ [.text ")"]

def piecesOfAll : List (Condition Nat) → List (List Piece)
  | [] => []
  | part :: rest => part.pieces :: piecesOfAll rest

end

end Condition

def numberPairs {α : Type} (bound : Nat) : List (String × α) → List (String × Nat)
  | [] => []
  | (column, _) :: rest => (column, bound + 1) :: numberPairs (bound + 1) rest

def LockMatch.numberAll {α : Type} (bound : Nat) : List (LockMatch α) → List (LockMatch Nat)
  | [] => []
  | lock :: rest => ⟨lock.column, lock.operator, bound + 1⟩ :: numberAll (bound + 1) rest

-- The operand stands in the text twice.
def LockMatch.pieces (lock : LockMatch Nat) : List Piece :=
  [.text "((", .identifier lock.column, .text (" " ++ lock.operator ++ " "),
    .parameter lock.operand, .text ") OR (COALESCE(", .identifier lock.column, .text ", ",
    .parameter lock.operand, .text ") IS NULL))"]

namespace Statement

variable {α : Type}

def operands : Statement α → List α
  | .select _ _ condition _ _ | .count _ condition => condition.elim [] Condition.operands
  | .insert _ columns => columns.map (·.2)
  | .update _ assignments locks => assignments.map (·.2) ++ locks.map (·.operand)
  | .delete _ locks => locks.map (·.operand)

def number : Statement α → Statement Nat
  | .select columns table condition orderings limit =>
    .select columns table (condition.map (Condition.number 0)) orderings limit
  | .count table condition => .count table (condition.map (Condition.number 0))
  | .insert table columns => .insert table (numberPairs 0 columns)
  | .update table assignments locks =>
    .update table (numberPairs 0 assignments) (LockMatch.numberAll assignments.length locks)
  | .delete table locks => .delete table (LockMatch.numberAll 0 locks)

def fromWhere (table : String) (condition : Option (Condition Nat)) : List Piece :=
  [.text " FROM ", .identifier table] ++
    condition.elim [] fun condition => .text " WHERE " :: condition.pieces

def orderPieces : List (String × SortDirection) → List Piece
  | [] => []
  | orderings =>
    .text " ORDER BY " :: separated ", " (orderings.map fun (column, direction) =>
      .identifier column :: if direction = .descending then [.text " DESC"] else [])

def wherePieces : List (LockMatch Nat) → List Piece
  | [] => []
  | locks => .text " WHERE " :: separated " AND " (locks.map LockMatch.pieces)

def pieces : Statement Nat → List Piece
  | .select columns table condition orderings limit =>
    .text "SELECT " :: separated ", " (columns.map fun column => [.identifier column]) ++
      fromWhere table condition ++ orderPieces orderings ++
      limit.elim [] fun limit => [.text (Writer.limitText limit)]
  | .count table condition => .text "SELECT COUNT(*)" :: fromWhere table condition
  | .insert table [] => [.text "INSERT INTO ", .identifier table, .text " DEFAULT VALUES"]
  | .insert table columns =>
    [.text "INSERT INTO ", .identifier table, .text " ("] ++
      separated ", " (columns.map fun (column, _) => [.identifier column]) ++
      [.text ") VALUES ("] ++
      separated ", " (columns.map fun (_, position) => [.parameter position]) ++ [.text ")"]
  | .update table assignments locks =>
    [.text "UPDATE ", .identifier table, .text " SET "] ++
      separated ", " (assignments.map fun (column, position) =>
        [.identifier column, .text " = ", .parameter position]) ++
      wherePieces locks
  | .delete table locks => [.text "DELETE FROM ", .identifier table] ++ wherePieces locks

end Statement

end RelationalMapper.Sql
