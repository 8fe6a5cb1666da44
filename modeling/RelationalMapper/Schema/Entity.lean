import RelationalMapper.Fault
import RelationalMapper.Locking

set_option autoImplicit false

namespace RelationalMapper

structure Column where
  name : String
  property : String
  primaryKey : Bool
  generated : Bool
  lock : Option String
deriving DecidableEq, Inhabited

namespace Column

def named (name : String) : Column :=
  ⟨name, name, false, false, none⟩

-- A column that says nothing is compared for equality; a word that is no strategy is a fault.
def lockStrategy (column : Column) : Except Fault LockStrategy :=
  match column.lock with
  | none => .ok .equals
  | some text =>
    match LockStrategy.parse? text with
    | some strategy => .ok strategy
    | none => .error (.unknownLockStrategy column.name text)

end Column

structure Relation where
  name : String
  parent : String
  child : String
  parentKey : String
  childKey : String
deriving DecidableEq, Inhabited

namespace Relation

-- Joins the two lists of keys, which must hold one column each.
def ofKeys (name parent : String) (parentKeys : List String) (child : String)
    (childKeys : List String) : Except Fault Relation :=
  match parentKeys, childKeys with
  | [parentKey], [childKey] => .ok ⟨name, parent, child, parentKey, childKey⟩
  | _, _ => .error (.compoundKey name parentKeys.length childKeys.length)

def renamed (relation : Relation) (name : String) : Relation :=
  { relation with name }

end Relation

structure Entity where
  name : String
  table : String
  columns : List Column
  relations : List Relation
deriving DecidableEq, Inhabited

namespace Entity

def column (entity : Entity) (name : String) : Except Fault Column :=
  match entity.columns.find? (·.name = name) with
  | some column => .ok column
  | none => .error (.noColumn entity.name name)

def columnIndex (entity : Entity) (name : String) : Except Fault Nat :=
  match entity.columns.findIdx? (·.name = name) with
  | some index => .ok index
  | none => .error (.noColumn entity.name name)

def columnOf (entity : Entity) (property : String) : Except Fault Column :=
  match entity.columns.find? (·.property = property) with
  | some column => .ok column
  | none => .error (.noProperty entity.name property)

def relation (entity : Entity) (name : String) : Except Fault Relation :=
  match entity.relations.find? (·.name = name) with
  | some relation => .ok relation
  | none => .error (.noRelation entity.name name)

def primaryKey (entity : Entity) : List Column :=
  entity.columns.filter (·.primaryKey)

def addRelation (entity : Entity) (relation : Relation) : Entity :=
  { entity with relations := entity.relations ++ [relation] }

def keyOf (entity : Entity) (values : List Value) : List Value :=
  ((entity.columns.zip values).filter (·.1.primaryKey)).map (·.2)

-- A row is known by its table and its primary-key values, none of which may be null.
def identityOf (entity : Entity) (values : List Value) : Except Fault ObjectIdentity :=
  let key := entity.keyOf values
  if key.isEmpty then .error (.noPrimaryKey entity.name)
  else if key.any Value.isNull then .error (.nullPrimaryKey entity.name)
  else .ok ⟨entity.table, key⟩

end Entity

end RelationalMapper
