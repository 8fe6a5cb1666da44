import RelationalMapper.Schema.Entity

set_option autoImplicit false

namespace RelationalMapper

structure Model where
  entities : List Entity
deriving DecidableEq, Inhabited

namespace Model

def empty : Model :=
  ⟨[]⟩

-- A later entity of the same name takes the place of the earlier one.
def insert (model : Model) (entity : Entity) : Model :=
  if model.entities.any (·.name = entity.name) then
    ⟨model.entities.map fun held => if held.name = entity.name then entity else held⟩
  else ⟨model.entities ++ [entity]⟩

def entity (model : Model) (name : String) : Except Fault Entity :=
  match model.entities.find? (·.name = name) with
  | some entity => .ok entity
  | none => .error (.unknownEntity name)

def entityForTable (model : Model) (table : String) : Except Fault Entity :=
  match model.entities.find? (·.table = table) with
  | some entity => .ok entity
  | none => .error (.unmappedTable table)

def addRelation (model : Model) (name : String) (relation : Relation) : Except Fault Model := do
  let entity ← model.entity name
  return model.insert (entity.addRelation relation)

def checkRelation (model : Model) (entity : Entity) (relation : Relation) : Except Fault Unit := do
  let parent ← model.entity relation.parent
  let child ← model.entity relation.child
  -- Both entities are looked up before either key.
  let _ ← parent.column relation.parentKey
  let _ ← child.column relation.childKey
  if entity.name ≠ parent.name ∧ entity.name ≠ child.name then
    throw (.uninvolvedRelation relation.name entity.name)

def validate (model : Model) : Except Fault Unit :=
  model.entities.forM fun entity => entity.relations.forM (model.checkRelation entity)

end Model

end RelationalMapper
