import RelationalMapper.Fault

set_option autoImplicit false

namespace RelationalMapper.Sql

inductive PlaceholderStyle where
  | atSign
  | colon
  | numbered
deriving DecidableEq, Inhabited

namespace PlaceholderStyle

def name : PlaceholderStyle → String
  | atSign => "at"
  | colon => "colon"
  | numbered => "numbered"

-- A placeholder shows either the bound name or the position, counted from one.
def placeholder (style : PlaceholderStyle) (name : String) (position : Nat) : String :=
  match style with
  | atSign => "@" ++ name
  | colon => ":" ++ name
  | numbered => "$" ++ toString position

end PlaceholderStyle

def doubleQuotes : List Char → List Char
  | [] => []
  | char :: rest =>
    if char = '"' then '"' :: '"' :: doubleQuotes rest else char :: doubleQuotes rest

def delimit (name : String) : String :=
  String.ofList ('"' :: doubleQuotes name.toList ++ ['"'])

structure Writer where
  kind : Dialect
  style : PlaceholderStyle
  delimited : String → String
  writesLimit : Bool

namespace Writer

def custom (kind : Dialect) (style : PlaceholderStyle) : Writer :=
  ⟨kind, style, delimit, false⟩

def limitText (limit : Nat) : String :=
  " LIMIT " ++ toString limit

def checkLimit (writer : Writer) (limit : Nat) : Except Fault Unit :=
  if writer.writesLimit then .ok () else .error (.unsupportedLimit limit writer.kind)

end Writer

end RelationalMapper.Sql

namespace RelationalMapper

def Dialect.writer : Dialect → Sql.Writer
  | ansi => ⟨.ansi, .atSign, Sql.delimit, false⟩
  | sqlite => ⟨.sqlite, .colon, Sql.delimit, true⟩
  | postgresql => ⟨.postgresql, .numbered, Sql.delimit, true⟩

end RelationalMapper
