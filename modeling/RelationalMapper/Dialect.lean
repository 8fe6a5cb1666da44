import RelationalMapper.Text.Letters

set_option autoImplicit false

namespace RelationalMapper

inductive Dialect where
  | ansi
  | sqlite
  | postgresql
deriving DecidableEq, Inhabited

namespace Dialect

def name : Dialect → String
  | ansi => "ansi"
  | sqlite => "sqlite"
  | postgresql => "postgresql"

def usesNumberedPlaceholders (dialect : Dialect) : Bool :=
  dialect = postgresql

def supportsLimit (dialect : Dialect) : Bool :=
  dialect ≠ ansi

def aliases : Dialect → List String
  | ansi => ["ansi", "baseline"]
  | sqlite => ["sqlite"]
  | postgresql => ["postgresql", "postgres", "pg"]

def all : List Dialect :=
  [ansi, sqlite, postgresql]

def parse? (text : String) : Option Dialect :=
  all.find? fun dialect => dialect.aliases.any (Text.sameWord text)

-- Configuration documents spell a dialect in lower case and know no `baseline`.
def ofKeyword? : String → Option Dialect
  | "ansi" => some ansi
  | "sqlite" => some sqlite
  | "postgresql" => some postgresql
  | "postgres" => some postgresql
  | "pg" => some postgresql
  | _ => none

def unknownMessage (text : String) : String :=
  "unknown dialect '" ++ text ++ "', expected one of: ansi, sqlite, postgresql"

end Dialect

end RelationalMapper
