import RelationalMapper.Config.Mapping
import RelationalMapper.Proofs.Schema.Lookup
import RelationalMapper.Sql.Compile

set_option autoImplicit false

namespace RelationalMapper

namespace Model

variable {model after : Model} {entity : Entity} {name other : String} {relation added : Relation}

theorem find?_replaced {entities : List Entity} (present : ∃ held ∈ entities, held.name = entity.name)
    (name : String) :
    (entities.map fun held => if held.name = entity.name then entity else held).find? (·.name = name) =
      if entity.name = name then some entity else entities.find? (·.name = name) := by
  split
  next same =>
    subst same
    induction entities with
    | nil => simp at present
    | cons first rest ih =>
      by_cases here : first.name = entity.name
      · simp [here]
      · have later : ∃ held ∈ rest, held.name = entity.name := by simpa [here] using present
        simpa [here] using ih later
  next apart =>
    clear present
    induction entities with
    | nil => rfl
    | cons first rest ih =>
      rw [List.map_cons, List.find?_cons, List.find?_cons, ih]
      by_cases here : first.name = entity.name <;> simp [here, apart]

theorem find?_insert (model : Model) (entity : Entity) (name : String) :
    (model.insert entity).entities.find? (·.name = name) =
      if entity.name = name then some entity else model.entities.find? (·.name = name) := by
  rw [Model.insert]
  split
  next present => exact find?_replaced (by simpa using present) name
  next absent =>
    rw [List.find?_append]
    split
    next same =>
      have nothing : model.entities.find? (·.name = name) = none := by simpa [← same] using absent
      simp [nothing, same]
    next apart => simp [apart]

theorem entity_insert (model : Model) (entity : Entity) (name : String) :
    (model.insert entity).entity name =
      if entity.name = name then .ok entity else model.entity name := by
  rw [Model.entity, find?_insert]
  by_cases same : entity.name = name <;> simp only [same, if_true, if_false, Model.entity]

def Lists (model : Model) (name : String) (relation : Relation) : Prop :=
  ∃ entity, model.entity name = .ok entity ∧ relation ∈ entity.relations

theorem lists_addRelation (ran : model.addRelation name added = .ok after) :
    after.Lists name added := by
  obtain ⟨entity, known, ran⟩ := Except.bind_eq_ok.mp ran
  cases ran
  refine ⟨entity.addRelation added, ?_, by simp [Entity.addRelation]⟩
  have named : entity.name = name := entity_name known
  rw [entity_insert, if_pos (show (entity.addRelation added).name = name from named)]

theorem Lists.addRelation (lists : model.Lists other relation)
    (ran : model.addRelation name added = .ok after) : after.Lists other relation := by
  obtain ⟨entity, known, ran⟩ := Except.bind_eq_ok.mp ran
  cases ran
  obtain ⟨held, looked, listed⟩ := lists
  unfold Lists
  rw [entity_insert]
  split
  next same =>
    -- The entity that is put back is the one that was there, with one relation more.
    have also : entity.name = name := entity_name known
    rw [← also, show entity.name = other from same, looked] at known
    cases known
    exact ⟨_, rfl, List.mem_append_left _ listed⟩
  next => exact ⟨held, looked, listed⟩

theorem Lists.found (lists : model.Lists name relation)
    (distinct : ∀ entity ∈ model.entities, (entity.relations.map (·.name)).Nodup) :
    ∃ entity, model.entity name = .ok entity ∧ entity.relation relation.name = .ok relation := by
  obtain ⟨entity, known, listed⟩ := lists
  refine ⟨entity, known, ?_⟩
  rw [Entity.relation, find?_key (distinct entity (entity_mem known)) listed]

theorem hop_of_parent {target : Entity} (found : entity.relation name = .ok relation)
    (stands : relation.parent = entity.name) (known : model.entity relation.child = .ok target) :
    model.hop entity name = .ok ⟨relation.parentKey, relation.childKey, target⟩ := by
  refine Except.bind_eq_ok.mpr ⟨relation, found, ?_⟩
  rw [if_pos stands]
  exact Except.bind_eq_ok.mpr ⟨target, known, rfl⟩

theorem hop_of_child {target : Entity} (found : entity.relation name = .ok relation)
    (apart : relation.parent ≠ entity.name) (known : model.entity relation.parent = .ok target) :
    model.hop entity name = .ok ⟨relation.childKey, relation.parentKey, target⟩ := by
  refine Except.bind_eq_ok.mpr ⟨relation, found, ?_⟩
  rw [if_neg apart]
  exact Except.bind_eq_ok.mpr ⟨target, known, rfl⟩

end Model

namespace Mapping

variable {model after : Model} {entry : RelationEntry}

def Entered (model : Model) (entry : RelationEntry) : Prop :=
  ∃ relation, entry.relation = .ok relation ∧ model.Lists relation.parent relation ∧
    ∀ inverse ∈ entry.inverse, model.Lists relation.child (relation.renamed inverse)

theorem addEntry_eq_ok (ran : addEntry model entry = .ok after) :
    ∃ relation between, entry.relation = .ok relation ∧
      addInverse model relation entry.inverse = .ok between ∧
      between.addRelation relation.parent relation = .ok after := by
  obtain ⟨relation, joined, ran⟩ := Except.bind_eq_ok.mp ran
  obtain ⟨between, inverted, ran⟩ := Except.bind_eq_ok.mp ran
  exact ⟨relation, between, joined, inverted, ran⟩

theorem addEntry_entered (ran : addEntry model entry = .ok after) : Entered after entry := by
  obtain ⟨relation, between, joined, inverted, ran⟩ := addEntry_eq_ok ran
  refine ⟨relation, joined, Model.lists_addRelation ran, fun inverse named => ?_⟩
  rw [named] at inverted
  exact (Model.lists_addRelation inverted).addRelation ran

theorem lists_addEntry {name : String} {relation : Relation} (lists : model.Lists name relation)
    (ran : addEntry model entry = .ok after) : after.Lists name relation := by
  obtain ⟨added, between, -, inverted, ran⟩ := addEntry_eq_ok ran
  refine Model.Lists.addRelation ?_ ran
  cases inverse : entry.inverse with
  | none =>
    rw [inverse] at inverted
    cases inverted
    exact lists
  | some name =>
    rw [inverse] at inverted
    exact lists.addRelation inverted

theorem Entered.still {other : RelationEntry} (entered : Entered model other)
    (ran : addEntry model entry = .ok after) : Entered after other := by
  obtain ⟨relation, joined, lists, inverses⟩ := entered
  exact ⟨relation, joined, lists_addEntry lists ran,
    fun inverse named => lists_addEntry (inverses inverse named) ran⟩

theorem Entered.throughout {entries : List RelationEntry} (entered : Entered model entry)
    (ran : entries.foldlM addEntry model = .ok after) : Entered after entry := by
  induction entries generalizing model with
  | nil =>
    cases ran
    exact entered
  | cons first rest ih =>
    obtain ⟨between, here, ran⟩ := Except.bind_eq_ok.mp ran
    exact ih (entered.still here) ran

theorem addEntries_entered {entries : List RelationEntry}
    (ran : entries.foldlM addEntry model = .ok after) : ∀ entry ∈ entries, Entered after entry := by
  induction entries generalizing model with
  | nil => simp
  | cons first rest ih =>
    obtain ⟨between, here, ran⟩ := Except.bind_eq_ok.mp ran
    exact List.forall_mem_cons.mpr ⟨(addEntry_entered here).throughout ran, ih ran⟩

theorem model_entered {mapping : Mapping} (built : mapping.model = .ok model) :
    model.validate = .ok () ∧ ∀ entry ∈ mapping.relations, Entered model entry := by
  obtain ⟨entered, ran, built⟩ := Except.bind_eq_ok.mp built
  obtain ⟨⟨⟩, valid, built⟩ := Except.bind_eq_ok.mp built
  cases built
  exact ⟨valid, addEntries_entered ran⟩

theorem relation_eq_ok {relation : Relation} (joined : entry.relation = .ok relation) :
    ∃ parentKey childKey, entry.parentKey.names = [parentKey] ∧ entry.childKey.names = [childKey] ∧
      relation = ⟨entry.name, entry.parent, entry.child, parentKey, childKey⟩ := by
  unfold RelationEntry.relation Relation.ofKeys at joined
  split at joined
  next parentKey childKey parentKeys childKeys =>
    cases joined
    exact ⟨parentKey, childKey, parentKeys, childKeys, rfl⟩
  next => cases joined

end Mapping

namespace Sql

def written (model : Model) (entity : Entity) (bound : Nat) (qualifier : Qualifier) :
    Except Fault (List Piece) :=
  (resolve model entity qualifier).map fun condition => (condition.number bound).pieces

def subquery (key targetKey table : String) (inner : List Piece) : List Piece :=
  [.identifier key, .text " IN (SELECT ", .identifier targetKey, .text " FROM ", .identifier table,
    .text " WHERE "] ++ inner ++ [.text ")"]

theorem written_path {model : Model} {entity : Entity} {name : String} {hop : Hop}
    (hopped : model.hop entity name = .ok hop) (bound : Nat) (terminal : Qualifier) :
    written model entity bound (.path [name] terminal) =
      (written model hop.target bound terminal).map
        (subquery hop.localKey hop.targetKey hop.target.table) := by
  have resolved : resolve model entity (.path [name] terminal) =
      (resolve model hop.target terminal).map
        (.within hop.localKey hop.targetKey hop.target.table ·) := by
    rw [resolve, along, hopped]
    change (resolve model hop.target terminal >>= fun inner => _) = _
    cases resolve model hop.target terminal <;> rfl
  rw [written, resolved, written]
  cases resolve model hop.target terminal <;> rfl

-- A command has its qualifier behind WHERE, as it is written before anything is bound.
theorem count_written {model : Model} {entity : Entity} {fetch : Fetch} {qualifier : Qualifier}
    (known : model.entity fetch.entity = .ok entity) (asked : fetch.qualifier = some qualifier) :
    (countStatement model fetch).map (·.number.pieces) =
      (written model entity 0 qualifier).map
        ([.text "SELECT COUNT(*)", .text " FROM ", .identifier entity.table, .text " WHERE "] ++ ·) := by
  rw [countStatement, known, asked, written]
  change Except.map _ (resolveCondition model entity (some qualifier) >>= _) = _
  rw [resolveCondition]
  cases resolve model entity qualifier <;> rfl

end Sql

namespace Mapping

variable {mapping : Mapping} {model : Model}

/-- Followed from the parent, a relation is a subquery over the child; followed from the child, its
inverse is one over the parent, unless parent and child are the same: then it is the relation again. -/
theorem inverse_is_converse_unless_reflexive (built : mapping.model = .ok model)
    (distinct : ∀ entity ∈ model.entities, (entity.relations.map (·.name)).Nodup)
    {entry : RelationEntry} (listed : entry ∈ mapping.relations) {inverse : String}
    (named : entry.inverse = some inverse) :
    ∃ parent child parentKey childKey, model.entity entry.parent = .ok parent ∧
      model.entity entry.child = .ok child ∧ entry.parentKey.names = [parentKey] ∧
      entry.childKey.names = [childKey] ∧ ∀ bound terminal,
        Sql.written model parent bound (.path [entry.name] terminal) =
            (Sql.written model child bound terminal).map
              (Sql.subquery parentKey childKey child.table) ∧
          Sql.written model child bound (.path [inverse] terminal) =
            if entry.parent = entry.child then
              (Sql.written model child bound terminal).map
                (Sql.subquery parentKey childKey child.table)
            else
              (Sql.written model parent bound terminal).map
                (Sql.subquery childKey parentKey parent.table) := by
  obtain ⟨relation, joined, stands, inverses⟩ := (model_entered built).2 entry listed
  obtain ⟨parentKey, childKey, parentKeys, childKeys, rfl⟩ := relation_eq_ok joined
  obtain ⟨parent, parentKnown, found⟩ := stands.found distinct
  obtain ⟨child, childKnown, inverseFound⟩ := (inverses inverse named).found distinct
  have parentName : parent.name = entry.parent := Model.entity_name parentKnown
  have childName : child.name = entry.child := Model.entity_name childKnown
  refine ⟨parent, child, parentKey, childKey, parentKnown, childKnown, parentKeys, childKeys,
    fun bound terminal => ⟨?_, ?_⟩⟩
  · exact Sql.written_path (Model.hop_of_parent found parentName.symm childKnown) bound terminal
  · split
    next same =>
      have stands : entry.parent = child.name := same.trans childName.symm
      exact Sql.written_path (Model.hop_of_parent inverseFound stands childKnown) bound terminal
    next apart =>
      have away : entry.parent ≠ child.name := fun same => apart (same.trans childName)
      exact Sql.written_path (Model.hop_of_child inverseFound away parentKnown) bound terminal

-- Employees, each of whom may have a manager.
def staff : Mapping :=
  ⟨[⟨"Employee", some "Employees", [⟨"Id", none, true, false, none⟩,
      ⟨"ManagerId", none, false, false, none⟩]⟩],
    [⟨"reports", "Employee", "Employee", .one "Id", .one "ManagerId", some "manager"⟩]⟩

-- Who has a manager that ... is counted as who has a report that ...
theorem manager_leads_to_reports :
    ∃ model employee, staff.model = .ok model ∧
      (∀ entity ∈ model.entities, (entity.relations.map (·.name)).Nodup) ∧
      model.entity "Employee" = .ok employee ∧ ∀ terminal,
        (Sql.countStatement model { Fetch.all "Employee" with
            qualifier := some (.path ["manager"] terminal) }).map (·.number.pieces) =
          ((Sql.written model employee 0 terminal).map (Sql.subquery "Id" "ManagerId" "Employees")).map
            ([.text "SELECT COUNT(*)", .text " FROM ", .identifier "Employees", .text " WHERE "] ++ ·) := by
  obtain ⟨model, built⟩ : ∃ model, staff.model = .ok model := ⟨_, rfl⟩
  have distinct : ∀ entity ∈ model.entities, (entity.relations.map (·.name)).Nodup := by
    cases built
    decide
  obtain ⟨parent, employee, parentKey, childKey, -, known, parentKeys, childKeys, paths⟩ :=
    inverse_is_converse_unless_reflexive built distinct (.head _) rfl
  have table : employee.table = "Employees" := by
    cases built
    cases known
    rfl
  cases parentKeys
  cases childKeys
  refine ⟨model, employee, built, distinct, known, fun terminal => ?_⟩
  rw [Sql.count_written known rfl, (paths 0 terminal).2, if_pos rfl, table]

end Mapping

end RelationalMapper
