import Mathlib.Data.List.Induction
import RelationalMapper.Proofs.Config.Inverse

set_option autoImplicit false

namespace RelationalMapper

theorem Except.bind_eq_error {ε α β : Type} {first : Except ε α} {rest : α → Except ε β} {fault : ε} :
    first >>= rest = .error fault ↔
      first = .error fault ∨ ∃ between, first = .ok between ∧ rest between = .error fault := by
  cases first with
  | error other =>
    constructor
    · intro failed
      cases failed
      exact .inl rfl
    · rintro (failed | ⟨between, ran, -⟩)
      · cases failed
        rfl
      · cases ran
  | ok between =>
    constructor
    · exact fun failed => .inr ⟨between, rfl, failed⟩
    · rintro (failed | ⟨_, same, failed⟩)
      · cases failed
      · cases same
        exact failed

theorem Except.forM_eq_error {ε α : Type} {check : α → Except ε Unit} {items : List α} {fault : ε}
    (failed : items.forM check = .error fault) : ∃ item ∈ items, check item = .error fault := by
  induction items with
  | nil => cases failed
  | cons first rest ih =>
    change check first >>= (fun _ => rest.forM check) = _ at failed
    obtain here | ⟨_, -, later⟩ := Except.bind_eq_error.mp failed
    · exact ⟨first, List.mem_cons_self, here⟩
    · obtain ⟨item, listed, there⟩ := ih later
      exact ⟨item, .tail _ listed, there⟩

namespace Entity

variable {entity : Entity} {name : String} {fault : Fault}

theorem column_isOk_iff : (∃ column, entity.column name = .ok column) ↔
    name ∈ entity.columns.map (·.name) := by
  unfold Entity.column
  cases found : entity.columns.find? (·.name = name) with
  | none =>
    have missing := List.find?_eq_none.mp found
    simpa using missing
  | some column =>
    have named : column.name = name := by simpa using List.find?_some found
    have listed := List.mem_of_find?_eq_some found
    exact iff_of_true ⟨column, rfl⟩ (List.mem_map.mpr ⟨column, listed, named⟩)

theorem column_eq_error (failed : entity.column name = .error fault) :
    fault = .noColumn entity.name name := by
  unfold Entity.column at failed
  split at failed <;> cases failed
  rfl

end Entity

namespace Model

variable {model : Model} {entity : Entity} {name : String} {relation : Relation} {fault : Fault}

theorem entity_eq_error (failed : model.entity name = .error fault) : fault = .unknownEntity name := by
  unfold Model.entity at failed
  split at failed <;> cases failed
  rfl

theorem nodup_insert (distinct : (model.entities.map (·.name)).Nodup) (entity : Entity) :
    ((model.insert entity).entities.map (·.name)).Nodup := by
  unfold Model.insert
  split
  next =>
    -- What is put in another's place has its name.
    have same : (model.entities.map fun held => if held.name = entity.name then entity else held).map
        (·.name) = model.entities.map (·.name) := by
      rw [List.map_map]
      refine List.map_congr_left fun held _ => ?_
      by_cases here : held.name = entity.name <;> simp [here]
    rwa [same]
  next absent =>
    rw [List.map_append, List.nodup_append]
    refine ⟨distinct, List.nodup_singleton _, ?_⟩
    simpa using absent

theorem checkRelation_category (failed : model.checkRelation entity relation = .error fault) :
    fault.category = .mapping := by
  obtain failed | ⟨parent, -, failed⟩ := Except.bind_eq_error.mp failed
  · rw [entity_eq_error failed]
    rfl
  obtain failed | ⟨child, -, failed⟩ := Except.bind_eq_error.mp failed
  · rw [entity_eq_error failed]
    rfl
  obtain failed | ⟨_, -, failed⟩ := Except.bind_eq_error.mp failed
  · rw [Entity.column_eq_error failed]
    rfl
  obtain failed | ⟨_, -, failed⟩ := Except.bind_eq_error.mp failed
  · rw [Entity.column_eq_error failed]
    rfl
  split at failed <;> cases failed
  rfl

theorem checkRelation_involved (involved : entity.name = relation.parent ∨ entity.name = relation.child)
    (stray host : String) : model.checkRelation entity relation ≠ .error (.uninvolvedRelation stray host) := by
  refine Except.bind_ne_error (fun failed => nomatch entity_eq_error failed) fun parent parentKnown => ?_
  refine Except.bind_ne_error (fun failed => nomatch entity_eq_error failed) fun child childKnown => ?_
  refine Except.bind_ne_error (fun failed => nomatch Entity.column_eq_error failed) fun _ _ => ?_
  refine Except.bind_ne_error (fun failed => nomatch Entity.column_eq_error failed) fun _ _ => ?_
  rw [entity_name parentKnown, entity_name childKnown, if_neg (by tauto)]
  exact Except.pure_ne_error

theorem checkRelation_eq_ok : model.checkRelation entity relation = .ok () ↔
    ∃ parent child, model.entity relation.parent = .ok parent ∧ model.entity relation.child = .ok child ∧
      relation.parentKey ∈ parent.columns.map (·.name) ∧ relation.childKey ∈ child.columns.map (·.name) ∧
      (entity.name = relation.parent ∨ entity.name = relation.child) := by
  unfold checkRelation
  constructor
  · intro ran
    obtain ⟨parent, parentKnown, ran⟩ := Except.bind_eq_ok.mp ran
    obtain ⟨child, childKnown, ran⟩ := Except.bind_eq_ok.mp ran
    obtain ⟨_, parentKey, ran⟩ := Except.bind_eq_ok.mp ran
    obtain ⟨_, childKey, ran⟩ := Except.bind_eq_ok.mp ran
    refine ⟨parent, child, parentKnown, childKnown, Entity.column_isOk_iff.mp ⟨_, parentKey⟩,
      Entity.column_isOk_iff.mp ⟨_, childKey⟩, ?_⟩
    rw [entity_name parentKnown, entity_name childKnown] at ran
    split at ran
    next => cases ran
    next involved => tauto
  · rintro ⟨parent, child, parentKnown, childKnown, parentKey, childKey, involved⟩
    obtain ⟨_, parentKey⟩ := Entity.column_isOk_iff.mpr parentKey
    obtain ⟨_, childKey⟩ := Entity.column_isOk_iff.mpr childKey
    refine Except.bind_eq_ok.mpr ⟨parent, parentKnown, Except.bind_eq_ok.mpr ⟨child, childKnown,
      Except.bind_eq_ok.mpr ⟨_, parentKey, Except.bind_eq_ok.mpr ⟨_, childKey, ?_⟩⟩⟩⟩
    rw [entity_name parentKnown, entity_name childKnown, if_neg (by tauto)]
    rfl

theorem validate_eq_ok : model.validate = .ok () ↔
    ∀ entity ∈ model.entities, ∀ relation ∈ entity.relations,
      model.checkRelation entity relation = .ok () := by
  simp only [validate, Except.forM_eq_ok]

theorem validate_eq_error (failed : model.validate = .error fault) :
    ∃ entity ∈ model.entities, ∃ relation ∈ entity.relations,
      model.checkRelation entity relation = .error fault := by
  obtain ⟨entity, held, failed⟩ := Except.forM_eq_error failed
  obtain ⟨relation, listed, failed⟩ := Except.forM_eq_error failed
  exact ⟨entity, held, relation, listed, failed⟩

end Model

namespace Mapping

/-- The last declaration of a name. -/
def declaration? (mapping : Mapping) (name : String) : Option EntityEntry :=
  mapping.entities.reverse.find? (·.name = name)

def Declares (mapping : Mapping) (name : String) : Prop :=
  ∃ declared ∈ mapping.entities, declared.name = name

def KeyColumns.single? : KeyColumns → Option String
  | .one name | .many [name] => some name
  | .many _ => none

def RelationEntry.Paired (entry : RelationEntry) : Prop :=
  entry.parentKey.single?.isSome ∧ entry.childKey.single?.isSome

/-- An entity that would list the relation is not declared. -/
def Homeless (mapping : Mapping) (entry : RelationEntry) : Prop :=
  ¬ mapping.Declares entry.parent ∨ entry.inverse.isSome ∧ ¬ mapping.Declares entry.child

def Joins (mapping : Mapping) (entry : RelationEntry) : Prop :=
  ∃ parent child parentKey childKey, mapping.declaration? entry.parent = some parent ∧
    mapping.declaration? entry.child = some child ∧ entry.parentKey.single? = some parentKey ∧
    entry.childKey.single? = some childKey ∧ parentKey ∈ parent.columns.map (·.name) ∧
    childKey ∈ child.columns.map (·.name)

/-- What the entity of that name lists of a relation: under the inverse name if it is the child, and
under its own if it is the parent. -/
def RelationEntry.standing (entry : RelationEntry) (name : String) : List Relation :=
  match entry.parentKey.single?, entry.childKey.single? with
  | some parentKey, some childKey =>
    let called (name : String) : Relation :=
      { name, parent := entry.parent, child := entry.child, parentKey, childKey }
    (if entry.child = name then entry.inverse.toList.map called else []) ++
      if entry.parent = name then [called entry.name] else []
  | _, _ => []

def relationsOf (mapping : Mapping) (name : String) : List Relation :=
  mapping.relations.flatMap (·.standing name)

def entered (mapping : Mapping) : Except Fault Model :=
  mapping.relations.foldlM addEntry
    (mapping.entities.foldl (fun model entry => model.insert entry.entity) .empty)

theorem model_eq (mapping : Mapping) : mapping.model = mapping.entered >>= fun model =>
    model.validate >>= fun _ => .ok model :=
  rfl

variable {mapping : Mapping} {model after : Model} {entry : RelationEntry} {fault : Fault}
  {standing : String → List Relation}

theorem declaration?_name {name : String} {declared : EntityEntry}
    (found : mapping.declaration? name = some declared) : declared.name = name := by
  simpa using List.find?_some found

theorem declares_iff {name : String} : mapping.Declares name ↔ (mapping.declaration? name).isSome := by
  simp [Declares, declaration?]

structure Holds (mapping : Mapping) (standing : String → List Relation) (model : Model) : Prop where
  distinct : (model.entities.map (·.name)).Nodup
  holds : ∀ name, model.entities.find? (·.name = name) =
    (mapping.declaration? name).map fun declared => { declared.entity with relations := standing name }

theorem holds_declared (mapping : Mapping) : mapping.Holds (fun _ => [])
    (mapping.entities.foldl (fun model entry => model.insert entry.entity) .empty) := by
  obtain ⟨entities, relations⟩ := mapping
  change Holds ⟨entities, relations⟩ _ (entities.foldl _ _)
  -- The last declaration is the last one inserted.
  induction entities using List.reverseRecOn with
  | nil => exact ⟨List.nodup_nil, fun _ => rfl⟩
  | append_singleton earlier last ih =>
    rw [List.foldl_append]
    refine ⟨Model.nodup_insert ih.distinct _, fun name => ?_⟩
    have before := ih.holds name
    simp only [declaration?, List.reverse_append, List.reverse_singleton, List.singleton_append,
      List.find?_cons, List.foldl_cons, List.foldl_nil, Model.find?_insert] at before ⊢
    rw [before]
    by_cases here : last.name = name
    · simp [here, EntityEntry.entity]
    · simp [here, EntityEntry.entity]

theorem Holds.entity_eq_ok (held : mapping.Holds standing model) {name : String} {entity : Entity} :
    model.entity name = .ok entity ↔ ∃ declared, mapping.declaration? name = some declared ∧
      entity = { declared.entity with relations := standing name } := by
  unfold Model.entity
  rw [held.holds name]
  cases mapping.declaration? name with
  | none => simp
  | some declared => simp [eq_comm]

theorem Holds.entity_of_mem (held : mapping.Holds standing model) {entity : Entity}
    (listed : entity ∈ model.entities) : ∃ declared, mapping.declaration? entity.name = some declared ∧
      entity = { declared.entity with relations := standing entity.name } := by
  refine held.entity_eq_ok.mp ?_
  rw [Model.entity, find?_key held.distinct listed]

theorem Holds.addRelation (held : mapping.Holds standing model) {name : String}
    (declares : mapping.Declares name) (relation : Relation) :
    ∃ after, model.addRelation name relation = .ok after ∧ mapping.Holds
      (fun other => standing other ++ if name = other then [relation] else []) after := by
  obtain ⟨declared, last⟩ := Option.isSome_iff_exists.mp (declares_iff.mp declares)
  have known := held.entity_eq_ok.mpr ⟨declared, last, rfl⟩
  have named : declared.entity.name = name := declaration?_name last
  refine ⟨_, Except.bind_eq_ok.mpr ⟨_, known, rfl⟩, Model.nodup_insert held.distinct _, fun other => ?_⟩
  rw [Model.find?_insert]
  by_cases here : name = other
  · subst here
    simp [Entity.addRelation, named, last]
  · have away : (Entity.addRelation { declared.entity with relations := standing name } relation).name ≠
        other := fun same => here (named.symm.trans same)
    rw [if_neg away, held.holds]
    simp [here]

theorem Holds.addRelation_undeclared (held : mapping.Holds standing model) {name : String}
    (undeclared : ¬ mapping.Declares name) (relation : Relation) :
    model.addRelation name relation = .error (.unknownEntity name) := by
  have absent : mapping.declaration? name = none := by simpa [declares_iff] using undeclared
  have unknown : model.entity name = .error (.unknownEntity name) := by
    rw [Model.entity, held.holds, absent]
    rfl
  rw [Model.addRelation, unknown]
  rfl

theorem KeyColumns.names_eq_singleton {keys : KeyColumns} {name : String} :
    keys.names = [name] ↔ keys.single? = some name := by
  cases keys with
  | one only => simp [KeyColumns.names, single?]
  | many names => rcases names with - | ⟨first, - | ⟨second, rest⟩⟩ <;> simp [KeyColumns.names, single?]

section

variable {parentKey childKey : String}

theorem RelationEntry.paired_iff : entry.Paired ↔ ∃ parentKey childKey,
    entry.parentKey.single? = some parentKey ∧ entry.childKey.single? = some childKey := by
  simp [Paired, Option.isSome_iff_exists]

theorem RelationEntry.relation_eq (parentKeys : entry.parentKey.single? = some parentKey)
    (childKeys : entry.childKey.single? = some childKey) :
    entry.relation = .ok ⟨entry.name, entry.parent, entry.child, parentKey, childKey⟩ := by
  rw [RelationEntry.relation, KeyColumns.names_eq_singleton.mpr parentKeys,
    KeyColumns.names_eq_singleton.mpr childKeys]
  rfl

theorem RelationEntry.standing_eq (parentKeys : entry.parentKey.single? = some parentKey)
    (childKeys : entry.childKey.single? = some childKey) (name : String) : entry.standing name =
      (if entry.child = name then entry.inverse.toList.map fun inverse =>
        ⟨inverse, entry.parent, entry.child, parentKey, childKey⟩ else []) ++
      if entry.parent = name then [⟨entry.name, entry.parent, entry.child, parentKey, childKey⟩] else [] := by
  simp only [standing, parentKeys, childKeys]

end

theorem RelationEntry.relation_of_unpaired (unpaired : ¬ entry.Paired) : entry.relation =
    .error (.compoundKey entry.name entry.parentKey.names.length entry.childKey.names.length) := by
  unfold RelationEntry.relation Relation.ofKeys
  split
  next parentKey childKey parentKeys childKeys =>
    exact absurd (paired_iff.mpr ⟨parentKey, childKey, KeyColumns.names_eq_singleton.mp parentKeys,
      KeyColumns.names_eq_singleton.mp childKeys⟩) unpaired
  next => rfl

theorem Holds.addInverse (held : mapping.Holds standing model) (relation : Relation) (inverse : Option String)
    (declared : inverse.isSome → mapping.Declares relation.child) :
    ∃ after, addInverse model relation inverse = .ok after ∧ mapping.Holds (fun name => standing name ++
      if relation.child = name then inverse.toList.map fun name => { relation with name } else []) after := by
  cases inverse with
  | none => exact ⟨model, rfl, by simpa using held⟩
  | some name => exact held.addRelation (declared rfl) (relation.renamed name)

theorem Holds.addEntry (held : mapping.Holds standing model) (paired : entry.Paired)
    (housed : ¬ mapping.Homeless entry) : ∃ after, addEntry model entry = .ok after ∧
      mapping.Holds (fun name => standing name ++ entry.standing name) after := by
  obtain ⟨parentKey, childKey, parentKeys, childKeys⟩ := RelationEntry.paired_iff.mp paired
  have joined := RelationEntry.relation_eq parentKeys childKeys
  simp only [Homeless, not_or, not_not, not_and] at housed
  obtain ⟨between, inverted, heldBetween⟩ := held.addInverse ⟨entry.name, entry.parent, entry.child,
    parentKey, childKey⟩ entry.inverse housed.2
  obtain ⟨after, ran, heldAfter⟩ := heldBetween.addRelation housed.1
    ⟨entry.name, entry.parent, entry.child, parentKey, childKey⟩
  refine ⟨after, Except.bind_eq_ok.mpr ⟨_, joined, Except.bind_eq_ok.mpr ⟨between, inverted, ran⟩⟩, ?_⟩
  simpa only [RelationEntry.standing_eq parentKeys childKeys, List.append_assoc] using heldAfter

theorem addEntry_unpaired (model : Model) (unpaired : ¬ entry.Paired) : addEntry model entry =
    .error (.compoundKey entry.name entry.parentKey.names.length entry.childKey.names.length) := by
  rw [Mapping.addEntry, entry.relation_of_unpaired unpaired]
  rfl

theorem Holds.addEntry_homeless (held : mapping.Holds standing model) (paired : entry.Paired)
    (homeless : mapping.Homeless entry) :
    ∃ name, Mapping.addEntry model entry = .error (.unknownEntity name) := by
  obtain ⟨parentKey, childKey, parentKeys, childKeys⟩ := RelationEntry.paired_iff.mp paired
  simp only [Homeless] at homeless
  rw [Mapping.addEntry, RelationEntry.relation_eq parentKeys childKeys]
  by_cases declared : entry.inverse.isSome → mapping.Declares entry.child
  · obtain ⟨between, inverted, heldBetween⟩ := held.addInverse ⟨entry.name, entry.parent, entry.child,
      parentKey, childKey⟩ entry.inverse declared
    have undeclared : ¬ mapping.Declares entry.parent := by tauto
    refine ⟨entry.parent, ?_⟩
    change Mapping.addInverse model _ entry.inverse >>= _ = _
    rw [inverted]
    exact heldBetween.addRelation_undeclared undeclared _
  · simp only [not_forall] at declared
    obtain ⟨inverted, undeclared⟩ := declared
    obtain ⟨inverse, named⟩ := Option.isSome_iff_exists.mp inverted
    refine ⟨entry.child, ?_⟩
    change Mapping.addInverse model _ entry.inverse >>= _ = _
    rw [named, Mapping.addInverse, held.addRelation_undeclared undeclared]
    rfl

def Blames (mapping : Mapping) (entry : RelationEntry) (fault : Fault) : Prop :=
  ¬ entry.Paired ∧ fault.category = .invalidOperation ∨
    entry.Paired ∧ mapping.Homeless entry ∧ fault.category = .mapping

theorem Holds.addEntries (held : mapping.Holds standing model) (entries : List RelationEntry) :
    ((∀ entry ∈ entries, entry.Paired ∧ ¬ mapping.Homeless entry) ∧
      ∃ after, entries.foldlM Mapping.addEntry model = .ok after ∧
        mapping.Holds (fun name => standing name ++ entries.flatMap (·.standing name)) after) ∨
    ∃ earlier entry later fault, entries = earlier ++ entry :: later ∧
      (∀ before ∈ earlier, before.Paired ∧ ¬ mapping.Homeless before) ∧
      entries.foldlM Mapping.addEntry model = .error fault ∧ mapping.Blames entry fault := by
  induction entries generalizing model standing with
  | nil => exact .inl ⟨by simp, model, rfl, by simpa using held⟩
  | cons first rest ih =>
    rw [List.foldlM_cons]
    by_cases paired : first.Paired
    · by_cases homeless : mapping.Homeless first
      · obtain ⟨name, failed⟩ := held.addEntry_homeless paired homeless
        rw [failed]
        exact .inr ⟨[], first, rest, _, rfl, by simp, rfl, .inr ⟨paired, homeless, rfl⟩⟩
      · obtain ⟨between, ran, heldBetween⟩ := held.addEntry paired homeless
        rw [ran]
        obtain ⟨rest_in, after, ran, heldAfter⟩ | ⟨earlier, entry, later, fault, rfl, before, failed, blamed⟩ :=
          ih heldBetween
        · refine .inl ⟨List.forall_mem_cons.mpr ⟨⟨paired, homeless⟩, rest_in⟩, after, ran, ?_⟩
          simpa only [List.flatMap_cons, List.append_assoc] using heldAfter
        · exact .inr ⟨first :: earlier, entry, later, fault, rfl,
            List.forall_mem_cons.mpr ⟨⟨paired, homeless⟩, before⟩, failed, blamed⟩
    · rw [addEntry_unpaired model paired]
      exact .inr ⟨[], first, rest, _, rfl, by simp, rfl, .inl ⟨paired, rfl⟩⟩

theorem entered_or_blamed (mapping : Mapping) :
    ((∀ entry ∈ mapping.relations, entry.Paired ∧ ¬ mapping.Homeless entry) ∧
      ∃ model, mapping.entered = .ok model ∧ mapping.Holds mapping.relationsOf model) ∨
    ∃ earlier entry later fault, mapping.relations = earlier ++ entry :: later ∧
      (∀ before ∈ earlier, before.Paired ∧ ¬ mapping.Homeless before) ∧
      mapping.entered = .error fault ∧ mapping.Blames entry fault := by
  have outcome := (holds_declared mapping).addEntries mapping.relations
  simp only [List.nil_append] at outcome
  exact outcome

theorem entered_eq_ok (ran : mapping.entered = .ok model) :
    (∀ entry ∈ mapping.relations, entry.Paired ∧ ¬ mapping.Homeless entry) ∧
      mapping.Holds mapping.relationsOf model := by
  obtain ⟨inside, held, here, holds⟩ | ⟨_, _, _, _, -, -, failed, -⟩ := mapping.entered_or_blamed
  · rw [here] at ran
    cases ran
    exact ⟨inside, holds⟩
  · rw [failed] at ran
    cases ran

theorem RelationEntry.mem_standing {relation : Relation} {name : String}
    (listed : relation ∈ entry.standing name) : entry.parent = relation.parent ∧
      entry.child = relation.child ∧ entry.parentKey.single? = some relation.parentKey ∧
      entry.childKey.single? = some relation.childKey ∧ (name = relation.parent ∨ name = relation.child) := by
  unfold standing at listed
  split at listed
  next parentKey childKey parentKeys childKeys =>
    simp only [List.mem_append, List.mem_ite_nil_right, List.mem_map, List.mem_singleton] at listed
    obtain ⟨rfl, inverse, -, rfl⟩ | ⟨rfl, rfl⟩ := listed
    · exact ⟨rfl, rfl, parentKeys, childKeys, .inr rfl⟩
    · exact ⟨rfl, rfl, parentKeys, childKeys, .inl rfl⟩
  next => cases listed

theorem mem_relationsOf {relation : Relation} {name : String}
    (listed : relation ∈ mapping.relationsOf name) :
    ∃ entry ∈ mapping.relations, entry.parent = relation.parent ∧ entry.child = relation.child ∧
      entry.parentKey.single? = some relation.parentKey ∧
      entry.childKey.single? = some relation.childKey ∧ (name = relation.parent ∨ name = relation.child) := by
  obtain ⟨entry, stated, listed⟩ := List.mem_flatMap.mp listed
  exact ⟨entry, stated, RelationEntry.mem_standing listed⟩

theorem Holds.involved (held : mapping.Holds mapping.relationsOf model) {entity : Entity}
    (listed : entity ∈ model.entities) {relation : Relation} (stands : relation ∈ entity.relations) :
    entity.name = relation.parent ∨ entity.name = relation.child := by
  obtain ⟨declared, -, same⟩ := held.entity_of_mem listed
  rw [same] at stands
  obtain ⟨-, -, -, -, -, -, involved⟩ := mem_relationsOf stands
  exact involved

theorem EntityEntry.column_names (declared : EntityEntry) :
    declared.entity.columns.map (·.name) = declared.columns.map (·.name) := by
  rw [EntityEntry.entity, List.map_map]
  rfl

theorem Holds.checkRelation_eq_ok (held : mapping.Holds standing model) {entity : Entity}
    {relation : Relation} (involved : entity.name = relation.parent ∨ entity.name = relation.child) :
    model.checkRelation entity relation = .ok () ↔
      ∃ parent child, mapping.declaration? relation.parent = some parent ∧
        mapping.declaration? relation.child = some child ∧
        relation.parentKey ∈ parent.columns.map (·.name) ∧
        relation.childKey ∈ child.columns.map (·.name) := by
  rw [Model.checkRelation_eq_ok]
  constructor
  · rintro ⟨parent, child, parentKnown, childKnown, parentKey, childKey, -⟩
    obtain ⟨parent, parentLast, rfl⟩ := held.entity_eq_ok.mp parentKnown
    obtain ⟨child, childLast, rfl⟩ := held.entity_eq_ok.mp childKnown
    exact ⟨parent, child, parentLast, childLast, parent.column_names ▸ parentKey,
      child.column_names ▸ childKey⟩
  · rintro ⟨parent, child, parentLast, childLast, parentKey, childKey⟩
    exact ⟨_, _, held.entity_eq_ok.mpr ⟨parent, parentLast, rfl⟩,
      held.entity_eq_ok.mpr ⟨child, childLast, rfl⟩, parent.column_names.symm ▸ parentKey,
      child.column_names.symm ▸ childKey, involved⟩

theorem Joins.enterable (joins : mapping.Joins entry) : entry.Paired ∧ ¬ mapping.Homeless entry := by
  obtain ⟨parent, child, parentKey, childKey, parentLast, childLast, parentKeys, childKeys, -⟩ := joins
  refine ⟨RelationEntry.paired_iff.mpr ⟨parentKey, childKey, parentKeys, childKeys⟩, ?_⟩
  simp [Homeless, declares_iff, parentLast, childLast]

theorem Holds.validate_eq_ok (held : mapping.Holds mapping.relationsOf model)
    (enterable : ∀ entry ∈ mapping.relations, entry.Paired ∧ ¬ mapping.Homeless entry) :
    model.validate = .ok () ↔ ∀ entry ∈ mapping.relations, mapping.Joins entry := by
  rw [Model.validate_eq_ok]
  constructor
  · intro valid entry stated
    obtain ⟨paired, housed⟩ := enterable entry stated
    obtain ⟨parentKey, childKey, parentKeys, childKeys⟩ := RelationEntry.paired_iff.mp paired
    -- The relation is checked where it stands, on its parent.
    have declared : mapping.Declares entry.parent := not_not.mp fun undeclared => housed (.inl undeclared)
    obtain ⟨last, declared⟩ := Option.isSome_iff_exists.mp (declares_iff.mp declared)
    have known := held.entity_eq_ok.mpr ⟨last, declared, rfl⟩
    have stands : ⟨entry.name, entry.parent, entry.child, parentKey, childKey⟩ ∈
        mapping.relationsOf entry.parent := by
      refine List.mem_flatMap.mpr ⟨entry, stated, ?_⟩
      simp [RelationEntry.standing_eq parentKeys childKeys]
    have checked := valid _ (Model.entity_mem known) _ stands
    obtain ⟨parentLast, childLast, parentDeclared, childDeclared, parentHas, childHas⟩ :=
      (held.checkRelation_eq_ok (.inl (Model.entity_name known))).mp checked
    exact ⟨parentLast, childLast, parentKey, childKey, parentDeclared, childDeclared, parentKeys,
      childKeys, parentHas, childHas⟩
  · intro joins entity listed relation stands
    have involved := held.involved listed stands
    obtain ⟨declared, -, same⟩ := held.entity_of_mem listed
    rw [same] at stands
    obtain ⟨entry, stated, parent, child, parentKeys, childKeys, -⟩ := mem_relationsOf stands
    obtain ⟨parentLast, childLast, parentKey, childKey, parentDeclared, childDeclared, parentNames,
      childNames, parentHas, childHas⟩ := joins entry stated
    rw [parentKeys] at parentNames
    rw [childKeys] at childNames
    cases parentNames
    cases childNames
    exact (held.checkRelation_eq_ok involved).mpr ⟨parentLast, childLast, parent ▸ parentDeclared,
      child ▸ childDeclared, parentHas, childHas⟩

theorem model_eq_error (failed : mapping.model = .error fault) :
    (∃ earlier entry later, mapping.relations = earlier ++ entry :: later ∧
      (∀ before ∈ earlier, before.Paired ∧ ¬ mapping.Homeless before) ∧ mapping.Blames entry fault) ∨
    (∀ entry ∈ mapping.relations, entry.Paired ∧ ¬ mapping.Homeless entry) ∧ fault.category = .mapping := by
  rw [model_eq] at failed
  obtain ⟨enterable, model, ran, held⟩ | ⟨earlier, entry, later, other, split, before, ran, blamed⟩ :=
    mapping.entered_or_blamed
  · rw [ran] at failed
    change model.validate >>= _ = _ at failed
    obtain invalid | ⟨-, -, failed⟩ := Except.bind_eq_error.mp failed
    · obtain ⟨entity, -, relation, -, invalid⟩ := Model.validate_eq_error invalid
      exact .inr ⟨enterable, Model.checkRelation_category invalid⟩
    · cases failed
  · rw [ran] at failed
    cases failed
    exact .inl ⟨earlier, entry, later, split, before, blamed⟩

theorem exists_model_iff (mapping : Mapping) :
    (∃ model, mapping.model = .ok model) ↔ ∀ entry ∈ mapping.relations, mapping.Joins entry := by
  constructor
  · rintro ⟨model, built⟩
    obtain ⟨entered, ran, built⟩ := Except.bind_eq_ok.mp built
    obtain ⟨⟨⟩, valid, built⟩ := Except.bind_eq_ok.mp built
    obtain ⟨enterable, held⟩ := entered_eq_ok ran
    exact (held.validate_eq_ok enterable).mp valid
  · intro joins
    obtain ⟨enterable, model, ran, held⟩ | ⟨earlier, entry, later, _, split, -, -, blamed⟩ :=
      mapping.entered_or_blamed
    · have valid := (held.validate_eq_ok enterable).mpr joins
      exact ⟨model, Except.bind_eq_ok.mpr ⟨model, ran, Except.bind_eq_ok.mpr ⟨(), valid, rfl⟩⟩⟩
    · obtain ⟨paired, housed⟩ := (joins entry (by simp [split])).enterable
      obtain ⟨unpaired, -⟩ | ⟨-, homeless, -⟩ := blamed
      · exact absurd paired unpaired
      · exact absurd homeless housed

theorem invalidOperation_iff (mapping : Mapping) :
    (∃ fault, mapping.model = .error fault ∧ fault.category = .invalidOperation) ↔
      ∃ earlier entry later, mapping.relations = earlier ++ entry :: later ∧ ¬ entry.Paired ∧
        ∀ before ∈ earlier, ¬ mapping.Homeless before := by
  constructor
  · rintro ⟨fault, failed, invalid⟩
    obtain ⟨earlier, entry, later, split, before, blamed⟩ | ⟨-, other⟩ := model_eq_error failed
    · obtain ⟨unpaired, -⟩ | ⟨-, -, other⟩ := blamed
      · exact ⟨earlier, entry, later, split, unpaired, fun entry listed => (before entry listed).2⟩
      · cases other.symm.trans invalid
    · cases other.symm.trans invalid
  · rintro ⟨earlier, entry, later, split, unpaired, housed⟩
    obtain ⟨enterable, -⟩ | ⟨sooner, first, rest, fault, also, before, ran, blamed⟩ :=
      mapping.entered_or_blamed
    · exact absurd (enterable entry (by simp [split])).1 unpaired
    · have failed : mapping.model = .error fault := by
        rw [model_eq, ran]
        rfl
      obtain ⟨-, invalid⟩ | ⟨paired, homeless, -⟩ := blamed
      · exact ⟨fault, failed, invalid⟩
      · -- A relation without a home would stand before the one with the wrong keys.
        rw [split, List.append_eq_append_iff] at also
        obtain ⟨between, rfl, also⟩ | ⟨between, rfl, also⟩ := also
        · cases between with
          | nil =>
            cases also
            exact absurd paired unpaired
          | cons last between =>
            cases also
            exact absurd (before entry (by simp)).1 unpaired
        · cases between with
          | nil =>
            cases also
            exact absurd paired unpaired
          | cons last between =>
            cases also
            exact absurd homeless (housed first (by simp))

theorem model_eq_ok (built : mapping.model = .ok model) : mapping.Holds mapping.relationsOf model := by
  obtain ⟨entered, ran, built⟩ := Except.bind_eq_ok.mp built
  obtain ⟨⟨⟩, -, built⟩ := Except.bind_eq_ok.mp built
  cases built
  exact (entered_eq_ok ran).2

theorem Holds.name_mem_iff (held : mapping.Holds standing model) (name : String) :
    name ∈ model.entities.map (·.name) ↔ mapping.Declares name := by
  have found : (model.entities.find? (·.name = name)).isSome ↔ name ∈ model.entities.map (·.name) := by
    simp
  rw [← found, held.holds, Option.isSome_map, declares_iff]

/-- Which documents have a model, what is wrong with the others, and what the model is. The entities of
a model are checked in some order; whichever check fails first, its fault is one of the mapping. -/
theorem model_is_what_is_declared (mapping : Mapping) :
    ((∃ model, mapping.model = .ok model) ↔ ∀ entry ∈ mapping.relations, mapping.Joins entry) ∧
    (∀ model, mapping.entered = .ok model → ∀ entity ∈ model.entities, ∀ relation ∈ entity.relations,
      (∀ stray host, model.checkRelation entity relation ≠ .error (.uninvolvedRelation stray host)) ∧
        ∀ fault, model.checkRelation entity relation = .error fault → fault.category = .mapping) ∧
    ((∃ fault, mapping.model = .error fault ∧ fault.category = .invalidOperation) ↔
      ∃ earlier entry later, mapping.relations = earlier ++ entry :: later ∧ ¬ entry.Paired ∧
        ∀ before ∈ earlier, ¬ mapping.Homeless before) ∧
    (∀ fault, mapping.model = .error fault → fault.category ≠ .invalidOperation →
      fault.category = .mapping) ∧
    ∀ model, mapping.model = .ok model → (model.entities.map (·.name)).Nodup ∧
      (∀ name, name ∈ model.entities.map (·.name) ↔ mapping.Declares name) ∧
      ∀ entity ∈ model.entities, ∃ declared, mapping.declaration? entity.name = some declared ∧
        entity.table = declared.table.getD entity.name ∧
        entity.columns = declared.columns.map (fun column => ⟨column.name,
          column.property.getD column.name, column.primaryKey, column.generated, column.lock⟩) ∧
        entity.relations = mapping.relationsOf entity.name := by
  refine ⟨mapping.exists_model_iff, fun model ran entity listed relation stands => ?_,
    mapping.invalidOperation_iff, fun fault failed other => ?_, fun model built => ?_⟩
  · have involved := (entered_eq_ok ran).2.involved listed stands
    exact ⟨Model.checkRelation_involved involved, fun _ => Model.checkRelation_category⟩
  · obtain ⟨_, _, _, -, -, blamed⟩ | ⟨-, wrong⟩ := model_eq_error failed
    · obtain ⟨-, invalid⟩ | ⟨-, -, wrong⟩ := blamed
      · exact absurd invalid other
      · exact wrong
    · exact wrong
  · have held := model_eq_ok built
    refine ⟨held.distinct, held.name_mem_iff, fun entity listed => ?_⟩
    obtain ⟨declared, last, same⟩ := held.entity_of_mem listed
    have table : entity.table = declared.table.getD declared.name := congrArg Entity.table same
    rw [declaration?_name last] at table
    exact ⟨declared, last, table, congrArg Entity.columns same, congrArg Entity.relations same⟩

end Mapping

end RelationalMapper
