import RelationalMapper.Assoc
import RelationalMapper.Sql.Parameter
import RelationalMapper.Sql.Statement

set_option autoImplicit false

namespace RelationalMapper.Sql

structure Command where
  text : String
  parameters : List Parameter
deriving DecidableEq

def Command.parameter? (command : Command) (name : String) : Option Parameter :=
  command.parameters.find? (·.name = name)

abbrev DelimitedNames := Assoc String String

structure Rendering where
  writer : Writer
  quoting : Bool
  parameters : List Parameter

namespace Rendering

def nameAt (rendering : Rendering) (position : Nat) : String :=
  (rendering.parameters[position - 1]?).elim "" (·.name)

def identifier (rendering : Rendering) (known : DelimitedNames) (name : String) :
    String × DelimitedNames :=
  if rendering.quoting then
    -- Tables and columns share one memory, keyed by the bare name.
    match known.get? name with
    | some delimited => (delimited, known)
    | none =>
      let delimited := rendering.writer.delimited name
      (delimited, known.insert name delimited)
  else (name, known)

def write (rendering : Rendering) : DelimitedNames → List Piece → List Char
  | _, [] => []
  | known, .text content :: rest => content.toList ++ rendering.write known rest
  | known, .identifier name :: rest =>
    let (written, known) := rendering.identifier known name
    written.toList ++ rendering.write known rest
  | known, .parameter position :: rest =>
    (rendering.writer.style.placeholder (rendering.nameAt position) position).toList ++
      rendering.write known rest

end Rendering

def Statement.command (statement : Statement Operand) (writer : Writer) (quoting : Bool) : Command :=
  let parameters := (Binder.empty.bindAll statement.operands).parameters
  ⟨String.ofList (Rendering.write ⟨writer, quoting, parameters⟩ .empty statement.number.pieces),
    parameters⟩

end RelationalMapper.Sql
