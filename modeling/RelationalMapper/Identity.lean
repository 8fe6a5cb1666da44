import RelationalMapper.Value

set_option autoImplicit false

namespace RelationalMapper

structure RowId where
  number : Nat
deriving DecidableEq, Inhabited

def RowId.display (row : RowId) : String :=
  "row#" ++ toString row.number

structure ObjectIdentity where
  table : String
  key : List Value
deriving DecidableEq, Inhabited

def ObjectIdentity.display (identity : ObjectIdentity) : String :=
  "\x7b" ++ String.intercalate ", " (identity.table :: identity.key.map Value.display) ++ "\x7d"

inductive RowState where
  | fresh
  | unchanged
  | modified
  | deleted
  | detached
deriving DecidableEq, Inhabited

namespace RowState

def name : RowState → String
  | fresh => "New"
  | unchanged => "Unchanged"
  | modified => "Modified"
  | deleted => "Deleted"
  | detached => "Detached"

def isLive : RowState → Bool
  | fresh | unchanged | modified => true
  | deleted | detached => false

end RowState

inductive RowVersion where
  | current
  | original
deriving DecidableEq, Inhabited

end RelationalMapper
