import RelationalMapper.Proofs.View.Attuned
import RelationalMapper.Proofs.View.Refusal

set_option autoImplicit false

namespace RelationalMapper.Cache

variable {σ : Type}

namespace UnitOfWork

/-- What a row is given for a column: the last value that comes with the column's name. -/
def given (values : List (String × Value)) (column : String) : Value :=
  values.foldl (fun held entry => if entry.1 = column then entry.2 else held) .null

theorem given_concat (values : List (String × Value)) (name column : String) (value : Value) :
    given (values ++ [(name, value)]) column = if name = column then value else given values column := by
  rw [given, List.foldl_concat]
  rfl

section

variable {entity : Entity} {values : List (String × Value)} {arranged : List Value} {name : String}
  {value : Value}

theorem getElem?_arrange (placed : arrange entity values = .ok arranged) {place : Nat}
    (here : entity.columnIndex name = .ok place) : arranged[place]? = some (given values name) := by
  have within : place < entity.columns.length := by
    obtain ⟨column, listed, -⟩ := Entity.column_of_columnIndex here
    exact (List.getElem?_eq_some_iff.mp listed).1
  have held : arranged.length = entity.columns.length ∧ arranged[place]? = some (given values name) := by
    refine arrange_induction (motive := fun values arranged => arranged.length = entity.columns.length ∧
      arranged[place]? = some (given values name)) ?_ ?_ placed
    · simp [within, given]
    · intro values arranged other value index ⟨width, held⟩ there
      refine ⟨by rw [List.length_set, width], ?_⟩
      rw [given_concat]
      by_cases same : other = name
      · subst same
        cases there.symm.trans here
        rw [if_pos rfl, List.getElem?_set_self (by rw [width]; exact within)]
      · rw [if_neg same, List.getElem?_set_ne (Entity.columnIndex_ne there here same)]
        exact held
  exact held.2

theorem mem_pendingValues_iff (placed : arrange entity values = .ok arranged) {column : Column}
    (known : entity.column name = .ok column) (outside : column.primaryKey = false)
    (present : value ≠ .null) :
    (name, value) ∈ pendingValues entity arranged ↔ given values name = value := by
  have some_value : value.isNull = false := by
    rw [← Bool.not_eq_true, Value.isNull_iff]
    exact present
  constructor
  · intro pending
    obtain ⟨⟨other, _⟩, among, same⟩ := List.mem_map.mp pending
    obtain ⟨rfl, rfl⟩ := Prod.mk.inj same
    obtain ⟨place, here⟩ := List.getElem?_of_mem (List.mem_filter.mp among).1
    obtain ⟨found, -⟩ := columnIndex_of_zip placed here present
    have held := (List.getElem?_zip_eq_some.mp here).2
    rw [getElem?_arrange placed found] at held
    exact Option.some.inj held
  · rintro rfl
    obtain ⟨place, found, listed⟩ := Entity.columnIndex_of_column known
    have held := getElem?_arrange placed found
    obtain ⟨other, there, named⟩ := Entity.column_of_columnIndex found
    cases listed.symm.trans there
    have here : (entity.columns.zip arranged)[place]? = some (column, given values name) :=
      List.getElem?_zip_eq_some.mpr ⟨listed, held⟩
    have among := List.mem_of_getElem? here
    refine List.mem_map.mpr ⟨_, List.mem_filter.mpr ⟨among, ?_⟩, congrArg (·, _) named⟩
    simp [outside, some_value]

end

variable {unit after : UnitOfWork} {model : Model} {calls : Callbacks σ} {row : RowId} {id : ViewId}
  {view : RelationView} {members : List ObjectIdentity} {memory kept : σ}

theorem Alone.written (alone : unit.Alone) {values : List (String × Value)}
    (ran : writeColumns calls row values unit memory = some ⟨.ok (), after, kept⟩) :
    Written row values unit after := by
  induction values generalizing unit memory with
  | nil =>
    cases ran
    exact .nil _
  | cons entry rest ih =>
    obtain ⟨column, value⟩ := entry
    rcases Action.bind_eq_some.mp ran with ⟨_, between, halfway, wrote, ran⟩ | ⟨_, _, _, _, same⟩
    · cases found : unit.changeOf row column value with
      | error fault =>
        unfold writeColumn at wrote
        rw [Action.ask_bind_of_error found] at wrote
        cases wrote
      | ok answer =>
        obtain ⟨change, place⟩ := answer
        obtain ⟨result, outcome, last, wrote', ends⟩ := writeColumn_quiet found
          (fun key member => absurd (alone _ _ _ member) (by simp)) memory
        cases wrote.symm.trans wrote'
        rcases ends with ⟨-, rfl⟩ | ⟨fault, impossible, -⟩
        · exact .cons found (ih alone ran)
        · cases impossible
    · cases same

theorem enters_iff_given {entity : Entity} {values : List (String × Value)} {arranged : List Value}
    (placed : arrange entity values = .ok arranged) {column : Column}
    (known : entity.column view.relation.childKey = .ok column) (outside : column.primaryKey = false)
    {key : Value} (owned : unit.ownerKey view = .ok (some key)) (identity : ObjectIdentity) :
    Enters view (unit.ownerKey view) identity (pendingValues entity arranged) ↔
      given values view.relation.childKey = key ∧ identity.key ≠ [key] := by
  have written := mem_pendingValues_iff placed known outside (ownerKey_present owned)
  rw [← written, owned]
  constructor
  · rintro ⟨_, same, listed, apart⟩
    cases same
    exact ⟨listed, apart⟩
  · rintro ⟨listed, apart⟩
    exact ⟨key, rfl, listed, apart⟩

theorem Alone.inserted (alone : unit.Alone) (formed : unit.store.WellFormed model)
    (found : unit.views.get? id = some view) (loaded : view.members? = some members)
    (live : (unit.store.live.get? view.owner).isSome) {key : Value}
    (owned : unit.ownerKey view = .ok (some key)) {name : String} {child : Entity} {column : Column}
    (childKnown : unit.model.entity name = .ok child)
    (childKey : child.column view.relation.childKey = .ok column) (outside : column.primaryKey = false)
    (told : .view id ∈ unit.channels.subscribers .columnChanging child.table)
    {values : List (String × Value)}
    (ran : insertRow calls name values unit memory = some ⟨.ok row, after, kept⟩) :
    ∃ identity others, after.identityOf row = .ok identity ∧ after.members? id = some others ∧
      TakenIn members identity (given values view.relation.childKey = key ∧ identity.key ≠ [key])
        others := by
  obtain ⟨_, _, impossible, -⟩ | ⟨insert, ⟨wrote, same, rfl⟩ | ⟨_, _, _, _, impossible, -⟩⟩ :=
    insertRow_eq_some ran
  · cases impossible
  · cases same
    obtain ⟨entity, identity, underway, -, once, channels, known, arranged, placed, pending⟩ :=
      Underway.of_beginInsert formed insert.begun found loaded live
    cases childKnown.symm.trans known
    have written : Written insert.row insert.pending insert.started insert.between := by
      have still : insert.started.Alone := by
        unfold Alone
        rw [channels]
        exact alone
      exact still.written (wrote ▸ insert.wrote)
    obtain ⟨others, taken, arrived, -⟩ := underway.onward written once fun _ _ among => nomatch among
    rw [pending, channels] at taken
    have taken := taken.congr
      ((and_iff_left told).trans (enters_iff_given placed childKey outside owned identity))
    obtain ⟨record, held, ready⟩ := arrived.held
    obtain ⟨_, older⟩ := Option.isSome_iff_exists.mp arrived.loaded
    refine ⟨identity, others, identityOf_eq_ok.mpr ⟨record, held, ready.identified⟩, ?_, taken⟩
    exact members?_of_found arrived.found (RelationView.members?_of_loaded older others)
  · cases impossible

end UnitOfWork

open UnitOfWork

/-- A row inserted with the owner's key as its foreign key joins the owner's view, unless the same value
alone is the row's own primary key. -/
theorem inserted_child_joins_unless_key_is_its_own {model : Model}
    (named : (model.entities.map (·.name)).Nodup) (mapped : (model.entities.map (·.table)).Nodup)
    {unit after : UnitOfWork} (undisturbed : unit.Undisturbed model) (alone : unit.Alone) {id : ViewId}
    {view : RelationView} {members : List ObjectIdentity} (found : unit.views.get? id = some view)
    (loaded : view.members? = some members) (live : (unit.store.live.get? view.owner).isSome)
    {parent child : Entity} {parentColumn childColumn : Column}
    (parentKnown : model.entity view.relation.parent = .ok parent)
    (parentKey : parent.column view.relation.parentKey = .ok parentColumn)
    (primary : parentColumn.primaryKey = true)
    (childKnown : model.entity view.relation.child = .ok child)
    (childKey : child.column view.relation.childKey = .ok childColumn)
    (foreign : childColumn.primaryKey = false) {calls : Callbacks σ}
    {values : List (String × Value)} {row : RowId} {memory kept : σ}
    (inserted : perform calls (.insert view.relation.child values) unit memory =
      some ⟨.ok row, after, kept⟩) :
    ∃ key identity members', unit.ownerKey view = .ok (some key) ∧
      after.identityOf row = .ok identity ∧ after.members? id = some members' ∧
      members' = (if given values view.relation.childKey = key ∧ identity.key ≠ [key] then
        joined members identity else members) ∧
      (identity ∈ members' ↔ identity ∈ members ∨
        given values view.relation.childKey = key ∧ identity.key ≠ [key]) := by
  have attuned := undisturbed.attuned
  have formed := undisturbed.wellFormed
  obtain ⟨parentIndex, parentPlaced, parentListed⟩ := Entity.columnIndex_of_column parentKey
  obtain ⟨childIndex, childPlaced, -⟩ := Entity.columnIndex_of_column childKey
  have ends := (attuned.placed id view found).ends named parentKnown parentPlaced childKnown childPlaced
  have owned := ownerKey_of_primary mapped attuned.modelled formed ends parentListed primary live
  have told := attuned.told found loaded
  rw [ends.childTable] at told
  obtain ⟨identity, members', own, listed, taken⟩ := alone.inserted formed found loaded live owned
    (attuned.modelled ▸ childKnown) childKey foreign told inserted
  exact ⟨_, identity, members', owned, own, listed, taken.eq_ite, taken.mem_iff⟩

-- An order whose lines are loaded; there are none yet.
def linesLoaded : Program Unit Unit :=
  .perform (.attach "Order" [.integer 1]) fun _ =>
  .perform (.openView ⟨"orders", [.integer 1]⟩ "lines") fun _ =>
  .perform (.load ⟨0⟩) fun _ =>
  .done ()

def noLines : RelationView where
  owner := ⟨"orders", [.integer 1]⟩
  relation := ⟨"lines", "Order", "Line", "id", "order"⟩
  childEntity := "Line"
  childTable := "lines"
  state := .loaded [] ⟨0⟩ ⟨1⟩

-- Line 1 of order 1 is not listed, since it has the number of its order.
theorem line_numbered_as_its_order_stays_out : ∃ unit after,
    unit.Undisturbed orders ∧ unit.Alone ∧ unit.views.get? ⟨0⟩ = some noLines ∧
      perform ((answering (.ok ())).callbacks 1)
          (.insert "Line" [("id", .integer 1), ("order", .integer 1)]) unit () =
        some ⟨.ok ⟨1⟩, after, ()⟩ ∧
      unit.ownerKey noLines = .ok (some (.integer 1)) ∧
      after.identityOf ⟨1⟩ = .ok ⟨"lines", [.integer 1]⟩ ∧ after.members? ⟨0⟩ = some [] := by
  have evaluated : (linesLoaded.runUnless ((answering (.ok ())).guarded (fun _ => cutsOff) 1 []) cutsOff
      (.new orders .standard) ()).any (fun started =>
        (insertRow ((answering (.ok ())).callbacks 1) "Line" [("id", .integer 1), ("order", .integer 1)]
          started.unit ()).any fun ended =>
            decide (ended.result = .ok ⟨1⟩ ∧ started.unit.views.get? ⟨0⟩ = some noLines ∧
              started.unit.channels = ⟨2, ⟨[("lines", [⟨⟨0⟩, .view ⟨0⟩⟩])]⟩,
                ⟨[("lines", [⟨⟨1⟩, .view ⟨0⟩⟩])]⟩⟩ ∧
              started.unit.ownerKey noLines = .ok (some (.integer 1)) ∧
              (started.unit.store.live.get? ⟨"orders", [.integer 1]⟩).isSome ∧
              ended.unit.identityOf ⟨1⟩ = .ok ⟨"lines", [.integer 1]⟩)) = true := by
    decide +kernel
  simp only [Option.any_eq_true, decide_eq_true_eq] at evaluated
  obtain ⟨⟨_, unit, _⟩, ran, ⟨_, after, _⟩, wrote, rfl, found, heard, owned, live, own⟩ := evaluated
  have undisturbed : unit.Undisturbed orders :=
    ⟨Unit, Unit, answering (.ok ()), 1, linesLoaded, .standard, (), (), _, ran⟩
  have alone : unit.Alone := by
    intro channel table subscriber member
    rw [heard] at member
    refine ⟨⟨0⟩, ?_⟩
    by_cases here : "lines" = table
    · cases channel <;>
        simpa [Channels.subscribers, Channels.on, Assoc.get?, Assoc.lookup, here] using member
    · cases channel <;>
        simp [Channels.subscribers, Channels.on, Assoc.get?, Assoc.lookup, here] at member
  obtain ⟨_, _, _, owned', own', listed, same, -⟩ := inserted_child_joins_unless_key_is_its_own
    (by decide) (by decide) undisturbed alone found rfl live rfl rfl rfl rfl rfl rfl wrote
  cases owned.symm.trans owned'
  cases own.symm.trans own'
  rw [if_neg (fun joins => joins.2 rfl)] at same
  exact ⟨unit, after, undisturbed, alone, found, wrote, owned, own, same ▸ listed⟩

end RelationalMapper.Cache
