import RelationalMapper.Config.Fields
import RelationalMapper.Sql.Compile
import RelationalMapper.Toml.Reader

set_option autoImplicit false

namespace RelationalMapper

structure Settings where
  dialect : Dialect
  quoteIdentifiers : Bool
deriving DecidableEq, Inhabited

namespace Settings

def standard : Settings :=
  ⟨.ansi, true⟩

-- A dialect's keyword, or a table with the keyword as its one key and nothing under it.
def dialect? : Toml.Item → Option Dialect
  | .text keyword => Dialect.ofKeyword? keyword
  | .table _ [(keyword, .table _ [])] => Dialect.ofKeyword? keyword
  | .table _ [(keyword, .array _ [])] => Dialect.ofKeyword? keyword
  | _ => none

def ofFields? (fields : Config.Fields) : Option Settings := do
  let dialect ← Config.optional? dialect? (fields "dialect")
  let quoteIdentifiers ← Config.optional? Config.bool? (fields "quote_identifiers")
  return ⟨dialect.getD .ansi, quoteIdentifiers.getD true⟩

def ofToml? (text : String) : Option Settings := do
  let entries ← Toml.parse? text
  ofFields? (← Config.fields? ["dialect", "quote_identifiers"] (.table .header entries))

def parse (text : String) : Except Fault Settings :=
  (ofToml? text).elim (.error .unreadableDocument) .ok

def ofFile (file : Config.File) : Except Fault Settings := do
  parse (← Config.fileText file)

def compiler (settings : Settings) (model : Model) : Sql.Compiler :=
  ⟨model, settings.dialect.writer, settings.quoteIdentifiers⟩

end Settings

end RelationalMapper
