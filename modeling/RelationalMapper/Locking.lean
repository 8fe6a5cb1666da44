import RelationalMapper.Text.Letters

set_option autoImplicit false

namespace RelationalMapper

inductive LockStrategy where
  | equals
  | like
  | none
deriving DecidableEq, Inhabited

namespace LockStrategy

def name : LockStrategy → String
  | equals => "equals"
  | like => "like"
  | none => "none"

def operator? : LockStrategy → Option String
  | equals => some "="
  | like => some "LIKE"
  | none => Option.none

def aliases : LockStrategy → List String
  | equals => ["equals", "eq", "="]
  | like => ["like"]
  | none => ["none"]

def all : List LockStrategy :=
  [equals, like, none]

-- White space around the word and the case of its letters do not count.
def parse? (text : String) : Option LockStrategy :=
  all.find? fun strategy => strategy.aliases.any (Text.sameWord (Text.trim text))

def ofKeyword? : String → Option LockStrategy
  | "equals" => some equals
  | "like" => some like
  | "none" => some none
  | _ => Option.none

end LockStrategy

end RelationalMapper
