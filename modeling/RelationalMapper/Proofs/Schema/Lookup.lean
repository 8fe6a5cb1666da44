import Mathlib.Data.List.Nodup
import RelationalMapper.Schema.Model

set_option autoImplicit false

namespace RelationalMapper

theorem Except.bind_eq_ok {ε α β : Type} {first : Except ε α} {rest : α → Except ε β} {answer : β} :
    first >>= rest = .ok answer ↔ ∃ between, first = .ok between ∧ rest between = .ok answer := by
  cases first with
  | error fault => exact ⟨fun ran => (nomatch ran), fun ⟨_, ran, _⟩ => (nomatch ran)⟩
  | ok between => exact ⟨fun ran => ⟨between, rfl, ran⟩, fun ⟨_, same, ran⟩ => by cases same; exact ran⟩

theorem Except.map_bind {ε α β γ : Type} (change : β → γ) (first : Except ε α) (rest : α → Except ε β) :
    (first >>= rest).map change = first >>= fun between => (rest between).map change := by
  cases first <;> rfl

theorem Except.bind_ne_error {ε α β : Type} {first : Except ε α} {rest : α → Except ε β} {fault : ε}
    (here : first ≠ .error fault) (later : ∀ between, first = .ok between → rest between ≠ .error fault) :
    first >>= rest ≠ .error fault := by
  cases first with
  | error other => exact fun failed => here (by cases failed; rfl)
  | ok between => exact later between rfl

theorem Except.pure_ne_error {ε α : Type} {answer : α} {fault : ε} :
    (pure answer : Except ε α) ≠ .error fault :=
  fun failed => nomatch failed

theorem Except.bind_pure_ne_error {ε α β : Type} {first : Except ε α} {finish : α → β} {fault : ε}
    (here : first ≠ .error fault) : (first >>= fun between => pure (finish between)) ≠ .error fault :=
  Except.bind_ne_error here fun _ _ => Except.pure_ne_error

theorem Except.mapM_eq_ok {ε α β : Type} {step : α → Except ε β} {items : List α} {answers : List β} :
    items.mapM step = .ok answers ↔ List.Forall₂ (fun item answer => step item = .ok answer) items answers := by
  induction items generalizing answers with
  | nil =>
    rw [List.mapM_nil, List.forall₂_nil_left_iff]
    exact ⟨fun ran => by cases ran; rfl, fun same => by rw [same]; rfl⟩
  | cons first rest ih =>
    rw [List.mapM_cons, Except.bind_eq_ok, List.forall₂_cons_left_iff]
    constructor
    · rintro ⟨answer, here, ran⟩
      obtain ⟨others, later, same⟩ := Except.bind_eq_ok.mp ran
      cases same
      exact ⟨answer, others, here, ih.mp later, rfl⟩
    · rintro ⟨answer, others, here, later, rfl⟩
      exact ⟨answer, here, Except.bind_eq_ok.mpr ⟨others, ih.mpr later, rfl⟩⟩

theorem Except.exists_of_mem_mapM {ε α β : Type} {step : α → Except ε β} {items : List α}
    {answers : List β} (ran : items.mapM step = .ok answers) {answer : β} (member : answer ∈ answers) :
    ∃ item ∈ items, step item = .ok answer := by
  have each := Except.mapM_eq_ok.mp ran
  clear ran
  induction each with
  | nil => cases member
  | cons here _ ih =>
    rcases List.mem_cons.mp member with rfl | later
    · exact ⟨_, List.mem_cons_self, here⟩
    · obtain ⟨item, listed, there⟩ := ih later
      exact ⟨item, .tail _ listed, there⟩

theorem Except.mapM_ne_error {ε α β : Type} {step : α → Except ε β} {fault : ε} {items : List α}
    (each : ∀ item ∈ items, step item ≠ .error fault) : items.mapM step ≠ .error fault := by
  induction items with
  | nil => exact Except.pure_ne_error
  | cons first rest ih =>
    obtain ⟨here, later⟩ := List.forall_mem_cons.mp each
    rw [List.mapM_cons]
    exact Except.bind_ne_error here fun _ _ => Except.bind_pure_ne_error (ih later)

theorem Except.forM_eq_ok {ε α : Type} {check : α → Except ε Unit} {items : List α} :
    items.forM check = .ok () ↔ ∀ item ∈ items, check item = .ok () := by
  induction items with
  | nil => simp [List.forM, Pure.pure, Except.pure]
  | cons first rest ih =>
    change check first >>= (fun _ => rest.forM check) = _ ↔ _
    rw [Except.bind_eq_ok, List.forall_mem_cons, ← ih]
    constructor
    · rintro ⟨answer, here, later⟩
      exact ⟨here, later⟩
    · rintro ⟨here, later⟩
      exact ⟨(), here, later⟩

theorem find?_key {α : Type} {key : α → String} {items : List α} {item : α}
    (distinct : (items.map key).Nodup) (member : item ∈ items) :
    items.find? (key · = key item) = some item := by
  cases found : items.find? (key · = key item) with
  | none =>
    have missing := List.find?_eq_none.mp found item member
    simp at missing
  | some held =>
    have same : key held = key item := by simpa using List.find?_some found
    rw [List.inj_on_of_nodup_map distinct (List.mem_of_find?_eq_some found) member same]

namespace Entity

variable {entity : Entity} {name : String}

theorem column_eq_ok {column : Column} (found : entity.column name = .ok column) :
    column ∈ entity.columns ∧ column.name = name := by
  unfold Entity.column at found
  split at found
  next held =>
    cases found
    exact ⟨List.mem_of_find?_eq_some held, by simpa using List.find?_some held⟩
  next => cases found

theorem columnOf_eq_ok {column : Column} (found : entity.columnOf name = .ok column) :
    column ∈ entity.columns := by
  unfold columnOf at found
  split at found
  next held =>
    cases found
    exact List.mem_of_find?_eq_some held
  next => cases found

theorem relation_eq_ok {relation : Relation} (found : entity.relation name = .ok relation) :
    relation ∈ entity.relations := by
  unfold Entity.relation at found
  split at found
  next held =>
    cases found
    exact List.mem_of_find?_eq_some held
  next => cases found

end Entity

namespace Model

variable {model : Model} {entity : Entity} {name : String}

theorem entity_name (found : model.entity name = .ok entity) : entity.name = name := by
  unfold Model.entity at found
  split at found
  next held =>
    cases found
    simpa using List.find?_some held
  next => cases found

theorem entity_self (found : model.entity name = .ok entity) :
    model.entity entity.name = .ok entity := by
  rwa [entity_name found]

theorem entity_mem (found : model.entity name = .ok entity) : entity ∈ model.entities := by
  unfold Model.entity at found
  split at found
  next held =>
    cases found
    exact List.mem_of_find?_eq_some held
  next => cases found

theorem entity_eq_ok (named : (model.entities.map (·.name)).Nodup)
    (member : entity ∈ model.entities) : model.entity entity.name = .ok entity := by
  rw [Model.entity, find?_key named member]

theorem entityForTable_eq_ok {table : String} (found : model.entityForTable table = .ok entity) :
    entity ∈ model.entities ∧ entity.table = table := by
  unfold entityForTable at found
  split at found
  next held =>
    cases found
    exact ⟨List.mem_of_find?_eq_some held, by simpa using List.find?_some held⟩
  next => cases found

theorem joins (valid : model.validate = .ok ()) (member : entity ∈ model.entities)
    {relation : Relation} (listed : relation ∈ entity.relations) :
    ∃ parent child parentColumn childColumn, model.entity relation.parent = .ok parent ∧
      model.entity relation.child = .ok child ∧
      parent.column relation.parentKey = .ok parentColumn ∧
      child.column relation.childKey = .ok childColumn ∧
      (entity.name = parent.name ∨ entity.name = child.name) := by
  have checked := Except.forM_eq_ok.mp (Except.forM_eq_ok.mp valid entity member) relation listed
  obtain ⟨parent, parentKnown, checked⟩ := Except.bind_eq_ok.mp checked
  obtain ⟨child, childKnown, checked⟩ := Except.bind_eq_ok.mp checked
  obtain ⟨parentColumn, parentHas, checked⟩ := Except.bind_eq_ok.mp checked
  obtain ⟨childColumn, childHas, checked⟩ := Except.bind_eq_ok.mp checked
  refine ⟨parent, child, parentColumn, childColumn, parentKnown, childKnown, parentHas, childHas, ?_⟩
  split at checked
  · cases checked
  next involved => exact Decidable.or_iff_not_not_and_not.mpr involved

end Model

end RelationalMapper
