import RelationalMapper.Proofs.Schema.Lookup

set_option autoImplicit false

namespace RelationalMapper

namespace Entity

variable {entity : Entity} {name : String} {index : Nat}

theorem columnIndex_of_column {column : Column} (found : entity.column name = .ok column) :
    ∃ index, entity.columnIndex name = .ok index ∧ entity.columns[index]? = some column := by
  unfold Entity.column at found
  split at found
  next held =>
    cases found
    rw [List.find?_eq_bind_findIdx?_getElem?, Option.bind_eq_some_iff] at held
    obtain ⟨index, place, here⟩ := held
    exact ⟨index, by rw [columnIndex, place], here⟩
  next => cases found

theorem column_of_columnIndex (placed : entity.columnIndex name = .ok index) :
    ∃ column, entity.columns[index]? = some column ∧ column.name = name := by
  unfold columnIndex at placed
  split at placed
  next found =>
    cases placed
    obtain ⟨within, named, -⟩ := List.findIdx?_eq_some_iff_getElem.mp found
    exact ⟨entity.columns[index], List.getElem?_eq_getElem within, by simpa using named⟩
  next => cases placed

theorem column_ok (placed : entity.columnIndex name = .ok index) :
    ∃ column, entity.column name = .ok column := by
  unfold columnIndex at placed
  split at placed
  next place found =>
    obtain ⟨within, -⟩ := List.findIdx?_eq_some_iff_getElem.mp found
    refine ⟨entity.columns[place], ?_⟩
    rw [Entity.column, List.find?_eq_bind_findIdx?_getElem?, found, Option.bind_some,
      List.getElem?_eq_getElem within]
  next => cases placed

theorem columnIndex_of_mem {column : Column} (named : (entity.columns.map (·.name)).Nodup)
    (member : column ∈ entity.columns) :
    ∃ index, entity.columnIndex column.name = .ok index ∧ entity.columns[index]? = some column := by
  refine columnIndex_of_column ?_
  rw [Entity.column, find?_key named member]

theorem columnIndex_of_getElem? {column : Column} (named : (entity.columns.map (·.name)).Nodup)
    (held : entity.columns[index]? = some column) : entity.columnIndex column.name = .ok index := by
  obtain ⟨place, placed, here⟩ := columnIndex_of_mem named (List.mem_of_getElem? held)
  obtain ⟨within, -⟩ := List.getElem?_eq_some_iff.mp here
  have same : place = index := by
    refine (List.getElem?_inj (by simpa using within) named).mp ?_
    rw [List.getElem?_map, List.getElem?_map, here, held]
  rw [placed, same]

theorem columnIndex_ne {other : String} {otherIndex : Nat}
    (placed : entity.columnIndex name = .ok index)
    (otherPlaced : entity.columnIndex other = .ok otherIndex) (apart : name ≠ other) :
    index ≠ otherIndex := by
  intro same
  obtain ⟨column, here, named⟩ := column_of_columnIndex placed
  obtain ⟨otherColumn, there, otherNamed⟩ := column_of_columnIndex otherPlaced
  rw [← same, here] at there
  cases there
  exact apart (named.symm.trans otherNamed)

def keyPlace (entity : Entity) (index : Nat) : Nat :=
  (entity.columns.take index).countP (·.primaryKey)

theorem getElem?_keyOf {values : List Value} {column : Column}
    (held : entity.columns[index]? = some column) (key : column.primaryKey = true)
    (width : values.length = entity.columns.length) :
    (entity.keyOf values)[entity.keyPlace index]? = values[index]? := by
  obtain ⟨name, table, columns, relations⟩ := entity
  simp only [keyOf, keyPlace] at *
  induction columns generalizing values index with
  | nil => simp at held
  | cons first rest ih =>
    cases values with
    | nil => simp at width
    | cons value values =>
      cases index with
      | zero =>
        cases Option.some.inj held
        simp [key]
      | succ index =>
        have later := ih (by simpa using held) (Nat.succ.inj width)
        by_cases first : first.primaryKey <;> simpa [first] using later

end Entity

structure Model.WellMapped (model : Model) : Prop where
  valid : model.validate = .ok ()
  named : (model.entities.map (·.name)).Nodup
  mapped : (model.entities.map (·.table)).Nodup

/-- Entities are told apart by their names and by their tables, columns by their names; and every
relation is in order. -/
structure Model.Regular (model : Model) : Prop where
  valid : model.validate = .ok ()
  named : (model.entities.map (·.name)).Nodup
  mapped : (model.entities.map (·.table)).Nodup
  columns : ∀ entity ∈ model.entities, (entity.columns.map (·.name)).Nodup

theorem Model.Regular.wellMapped {model : Model} (regular : model.Regular) : model.WellMapped :=
  ⟨regular.valid, regular.named, regular.mapped⟩

end RelationalMapper
