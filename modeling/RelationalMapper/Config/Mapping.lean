import RelationalMapper.Config.Fields
import RelationalMapper.Schema.Model
import RelationalMapper.Toml.Reader

set_option autoImplicit false

namespace RelationalMapper

namespace Mapping

structure ColumnEntry where
  name : String
  property : Option String
  primaryKey : Bool
  generated : Bool
  lock : Option String
deriving DecidableEq

structure EntityEntry where
  name : String
  table : Option String
  columns : List ColumnEntry
deriving DecidableEq

-- A key is written as one name or as a list of names.
inductive KeyColumns where
  | one (name : String)
  | many (names : List String)
deriving DecidableEq

def KeyColumns.names : KeyColumns → List String
  | one name => [name]
  | many names => names

structure RelationEntry where
  name : String
  parent : String
  child : String
  parentKey : KeyColumns
  childKey : KeyColumns
  inverse : Option String
deriving DecidableEq

end Mapping

structure Mapping where
  entities : List Mapping.EntityEntry
  relations : List Mapping.RelationEntry
deriving DecidableEq

namespace Mapping

open Config

def columnEntry? (item : Toml.Item) : Option ColumnEntry := do
  let fields ← fields? ["name", "property", "primary_key", "generated", "lock"] item
  let name ← text? (← fields "name")
  let property ← optional? text? (fields "property")
  let primaryKey ← optional? bool? (fields "primary_key")
  let generated ← optional? bool? (fields "generated")
  let lock ← optional? text? (fields "lock")
  return ⟨name, property, primaryKey.getD false, generated.getD false, lock⟩

def entityEntry? (item : Toml.Item) : Option EntityEntry := do
  let fields ← fields? ["name", "table", "column"] item
  let name ← text? (← fields "name")
  let table ← optional? text? (fields "table")
  let columns ← optional? (listOf? columnEntry?) (fields "column")
  return ⟨name, table, columns.getD []⟩

def keyColumns? (item : Toml.Item) : Option KeyColumns :=
  match text? item with
  | some name => some (.one name)
  | none => (listOf? text? item).map .many

def relationEntry? (item : Toml.Item) : Option RelationEntry := do
  let fields ← fields? ["name", "parent", "child", "parent_key", "child_key", "inverse"] item
  let name ← text? (← fields "name")
  let parent ← text? (← fields "parent")
  let child ← text? (← fields "child")
  let parentKey ← keyColumns? (← fields "parent_key")
  let childKey ← keyColumns? (← fields "child_key")
  let inverse ← optional? text? (fields "inverse")
  return ⟨name, parent, child, parentKey, childKey, inverse⟩

def ofToml? (text : String) : Option Mapping := do
  let entries ← Toml.parse? text
  let fields ← fields? ["entity", "relation"] (.table .header entries)
  let entities ← optional? (listOf? entityEntry?) (fields "entity")
  let relations ← optional? (listOf? relationEntry?) (fields "relation")
  return ⟨entities.getD [], relations.getD []⟩

def parse (text : String) : Except Fault Mapping :=
  (ofToml? text).elim (.error .unreadableDocument) .ok

def ofFile (file : File) : Except Fault Mapping := do
  parse (← fileText file)

def ColumnEntry.column (entry : ColumnEntry) : Column :=
  ⟨entry.name, entry.property.getD entry.name, entry.primaryKey, entry.generated, entry.lock⟩

-- An entity's table has the entity's name unless another is given.
def EntityEntry.entity (entry : EntityEntry) : Entity :=
  ⟨entry.name, entry.table.getD entry.name, entry.columns.map ColumnEntry.column, []⟩

def RelationEntry.relation (entry : RelationEntry) : Except Fault Relation :=
  Relation.ofKeys entry.name entry.parent entry.parentKey.names entry.child entry.childKey.names

def addInverse (model : Model) (relation : Relation) : Option String → Except Fault Model
  | none => return model
  | some inverse => model.addRelation relation.child (relation.renamed inverse)

-- The inverse is entered before the relation itself.
def addEntry (model : Model) (entry : RelationEntry) : Except Fault Model := do
  let relation ← entry.relation
  let model ← addInverse model relation entry.inverse
  model.addRelation relation.parent relation

def model (mapping : Mapping) : Except Fault Model := do
  let entities := mapping.entities.foldl (fun model entry => model.insert entry.entity) .empty
  let model ← mapping.relations.foldlM addEntry entities
  -- Key columns are looked up only now, when all entities are in place.
  model.validate
  return model

end Mapping

end RelationalMapper
