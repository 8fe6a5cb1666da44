import RelationalMapper.Proofs.Config.Building
import RelationalMapper.Proofs.Sql.Meaning

set_option autoImplicit false

namespace RelationalMapper

def Predicate.Meaningful (predicate : Predicate) : Prop :=
  predicate.value ≠ .null ∨ predicate.comparison = .equals ∨ predicate.comparison = .notEqual

instance (predicate : Predicate) : Decidable predicate.Meaningful :=
  inferInstanceAs (Decidable (_ ∨ _))

def Relation.across (relation : Relation) (entity : Entity) : String :=
  if relation.parent = entity.name then relation.child else relation.parent

inductive Model.Leads (model : Model) : Entity → List String → Entity → Prop
  | here (entity : Entity) : model.Leads entity [] entity
  | hop {entity next target : Entity} {relation : Relation} {name : String} {rest : List String}
      (found : entity.relation name = .ok relation)
      (known : model.entity (relation.across entity) = .ok next)
      (onward : model.Leads next rest target) : model.Leads entity (name :: rest) target

namespace Qualifier

mutual

def WellFormed (model : Model) (entity : Entity) : Qualifier → Prop
  | .column name predicate => name ∈ entity.columns.map (·.name) ∧ predicate.Meaningful
  | .property name predicate => name ∈ entity.columns.map (·.property) ∧ predicate.Meaningful
  | .all children | .any children => AllWellFormed model entity children
  | .path relations terminal =>
    ∃ target, model.Leads entity relations target ∧ WellFormed model target terminal

def AllWellFormed (model : Model) (entity : Entity) : List Qualifier → Prop
  | [] => True
  | child :: rest => WellFormed model entity child ∧ AllWellFormed model entity rest

end

end Qualifier

def Predicate.faults (predicate : Predicate) (column : String) : List Fault :=
  if predicate.Meaningful then [] else [.nullComparison predicate.comparison column]

def Entity.propertyFaults (entity : Entity) (name : String) : List Fault :=
  if name ∈ entity.columns.map (·.property) then [] else [.noProperty entity.name name]

def Model.pathFaults (model : Model) (finish : Entity → List Fault) : Entity → List String → List Fault
  | entity, [] => finish entity
  | entity, name :: rest =>
    match entity.relation name with
    | .error _ => [.noRelation entity.name name]
    | .ok relation =>
      match model.entity (relation.across entity) with
      | .error _ => [.unknownEntity (relation.across entity)]
      | .ok next => pathFaults model finish next rest

namespace Qualifier

mutual

def faults (model : Model) (entity : Entity) : Qualifier → List Fault
  | .column name predicate =>
    if name ∈ entity.columns.map (·.name) then predicate.faults name
    else [.noColumn entity.name name]
  | .property name predicate =>
    match entity.columnOf name with
    | .error _ => [.noProperty entity.name name]
    | .ok found => predicate.faults found.name
  | .all children | .any children => faultsOfAll model entity children
  | .path relations terminal =>
    -- What is asked at the end of a path is judged by the entity there.
    model.pathFaults (fun target => faults model target terminal) entity relations

def faultsOfAll (model : Model) (entity : Entity) : List Qualifier → List Fault
  | [] => []
  | child :: rest => faults model entity child ++ faultsOfAll model entity rest

end

end Qualifier

namespace Fetch

def countFaults (fetch : Fetch) (model : Model) : List Fault :=
  match model.entity fetch.entity with
  | .error _ => [.unknownEntity fetch.entity]
  | .ok entity => fetch.qualifier.elim [] (·.faults model entity)

def orderingFaults (fetch : Fetch) (model : Model) : List Fault :=
  match model.entity fetch.entity with
  | .error _ => []
  | .ok entity => fetch.orderings.flatMap (entity.propertyFaults ·.property)

def limitFaults (fetch : Fetch) (writer : Sql.Writer) : List Fault :=
  if writer.writesLimit then [] else fetch.limit.toList.map (.unsupportedLimit · writer.kind)

def selectFaults (fetch : Fetch) (model : Model) (writer : Sql.Writer) : List Fault :=
  fetch.countFaults model ++ fetch.orderingFaults model ++ fetch.limitFaults writer

end Fetch

namespace Fault

def IsUnknownName : Fault → Prop
  | unknownEntity _ | noColumn .. | noProperty .. | noRelation .. => True
  | _ => False

def IsUnsupported : Fault → Prop
  | nullComparison .. | unsupportedLimit .. => True
  | _ => False

def OfFetch (fault : Fault) : Prop :=
  fault.IsUnknownName ∧ fault.category = .mapping ∨
    fault.IsUnsupported ∧ fault.category = .unsupportedFeature

end Fault

theorem Predicate.faults_eq_nil {predicate : Predicate} {column : String} :
    predicate.faults column = [] ↔ predicate.Meaningful := by
  unfold Predicate.faults
  split <;> simp_all

theorem Entity.columnOf_eq_error {entity : Entity} {name : String} {fault : Fault}
    (failed : entity.columnOf name = .error fault) : fault = .noProperty entity.name name := by
  unfold columnOf at failed
  split at failed <;> cases failed
  rfl

theorem Entity.relation_eq_error {entity : Entity} {name : String} {fault : Fault}
    (failed : entity.relation name = .error fault) : fault = .noRelation entity.name name := by
  unfold Entity.relation at failed
  split at failed <;> cases failed
  rfl

theorem Entity.columnOf_isOk_iff {entity : Entity} {name : String} :
    (∃ column, entity.columnOf name = .ok column) ↔ name ∈ entity.columns.map (·.property) := by
  unfold columnOf
  cases found : entity.columns.find? (·.property = name) with
  | none =>
    have missing := List.find?_eq_none.mp found
    simpa using missing
  | some column =>
    have named : column.property = name := by simpa using List.find?_some found
    have listed := List.mem_of_find?_eq_some found
    exact iff_of_true ⟨column, rfl⟩ (List.mem_map.mpr ⟨column, listed, named⟩)

theorem Model.pathFaults_eq_nil {model : Model} {finish : Entity → List Fault} {relations : List String}
    {entity : Entity} : model.pathFaults finish entity relations = [] ↔
      ∃ target, model.Leads entity relations target ∧ finish target = [] := by
  induction relations generalizing entity with
  | nil =>
    constructor
    · exact fun none => ⟨entity, .here entity, none⟩
    · rintro ⟨target, leads, none⟩
      cases leads
      exact none
  | cons name rest ih =>
    rw [Model.pathFaults]
    constructor
    · intro none
      split at none
      · cases none
      next relation found =>
        split at none
        · cases none
        next next known =>
          obtain ⟨target, onward, finished⟩ := ih.mp none
          exact ⟨target, .hop found known onward, finished⟩
    · rintro ⟨target, leads, none⟩
      cases leads with
      | hop found known onward =>
        simp only [found, known]
        exact ih.mpr ⟨target, onward, none⟩

namespace Qualifier

variable {model : Model}

mutual

theorem faults_eq_nil : ∀ (qualifier : Qualifier) {entity : Entity},
    qualifier.faults model entity = [] ↔ qualifier.WellFormed model entity
  | .column name predicate, entity => by
    rw [faults, WellFormed]
    split
    next found => simp [found, Predicate.faults_eq_nil]
    next missing => simp [missing]
  | .property name predicate, entity => by
    rw [faults, WellFormed, ← Entity.columnOf_isOk_iff]
    split
    next missing => simp [missing]
    next found here => simp [here, Predicate.faults_eq_nil]
  | .all children, entity => by
    rw [faults, WellFormed]
    exact faultsOfAll_eq_nil children
  | .any children, entity => by
    rw [faults, WellFormed]
    exact faultsOfAll_eq_nil children
  | .path relations terminal, entity => by
    rw [faults, WellFormed, Model.pathFaults_eq_nil]
    exact exists_congr fun target => and_congr_right fun _ => faults_eq_nil terminal

theorem faultsOfAll_eq_nil : ∀ (children : List Qualifier) {entity : Entity},
    faultsOfAll model entity children = [] ↔ AllWellFormed model entity children
  | [], entity => by simp [faultsOfAll, AllWellFormed]
  | child :: rest, entity => by
    rw [faultsOfAll, AllWellFormed, List.append_eq_nil_iff]
    exact and_congr (faults_eq_nil child) (faultsOfAll_eq_nil rest)

end

end Qualifier

namespace Fetch

variable {fetch : Fetch} {model : Model} {writer : Sql.Writer}

end Fetch

namespace Sql

variable {α β : Type} {model : Model} {entity : Entity}

/-- Of these faults the first is reported, and there is a result if there are none. -/
def Reports (faults : List Fault) : Except Fault α → Prop
  | .ok _ => faults = []
  | .error fault => faults.head? = some fault

namespace Reports

variable {faults others : List Fault} {result : Except Fault α}

theorem error_iff (reports : Reports faults result) (fault : Fault) :
    result = .error fault ↔ faults.head? = some fault := by
  cases result with
  | error other =>
    have reported : faults.head? = some other := reports
    simp [reported]
  | ok answer =>
    have none : faults = [] := reports
    simp [none]

-- What comes later is reported only if nothing was wrong before.
theorem bind {rest : α → Except Fault β} (here : Reports faults result)
    (later : ∀ answer, result = .ok answer → Reports others (rest answer)) :
    Reports (faults ++ others) (result >>= rest) := by
  cases result with
  | error fault =>
    have reported : faults.head? = some fault := here
    change (faults ++ others).head? = some fault
    rw [List.head?_append, reported, Option.some_or]
  | ok answer =>
    have none : faults = [] := here
    rw [none, List.nil_append]
    exact later answer rfl

theorem bind_pure (reports : Reports faults result) (finish : α → β) :
    Reports faults (result >>= fun answer => pure (finish answer)) := by
  rw [← List.append_nil faults]
  exact reports.bind fun _ _ => rfl

theorem mapM {step : α → Except Fault β} {faultsOf : α → List Fault}
    (each : ∀ item, Reports (faultsOf item) (step item)) (items : List α) :
    Reports (items.flatMap faultsOf) (items.mapM step) := by
  induction items with
  | nil => rfl
  | cons first rest ih =>
    rw [List.mapM_cons, List.flatMap_cons]
    exact (each first).bind fun _ _ => ih.bind_pure _

end Reports

theorem comparison_reports (column : Column) (predicate : Predicate) :
    Reports (predicate.faults column.name) (comparison column predicate) := by
  unfold comparison
  split
  next absent =>
    have null := (Value.isNull_iff _).mp absent
    cases kind : predicate.comparison <;>
      simp [Comparison.nullTest?, Reports, Predicate.faults, Predicate.Meaningful, null, kind]
  next present =>
    have there := mt (Value.isNull_iff _).mpr present
    simp [Reports, Predicate.faults, Predicate.Meaningful, there]

theorem columnComparison_reports (entity : Entity) (name : String) (predicate : Predicate) :
    Reports (if name ∈ entity.columns.map (·.name) then predicate.faults name
      else [.noColumn entity.name name]) (columnComparison entity name predicate) := by
  unfold columnComparison
  cases found : entity.column name with
  | error fault =>
    have missing : name ∉ entity.columns.map (·.name) := by
      rw [← Entity.column_isOk_iff, found]
      simp
    rw [if_neg missing, Entity.column_eq_error found]
    rfl
  | ok column =>
    rw [if_pos (Entity.column_isOk_iff.mp ⟨column, found⟩), ← (Entity.column_eq_ok found).2]
    exact comparison_reports column predicate

theorem columnOf_reports (entity : Entity) (name : String) :
    Reports (entity.propertyFaults name) (entity.columnOf name) := by
  cases found : entity.columnOf name with
  | error fault =>
    have missing : name ∉ entity.columns.map (·.property) := by
      rw [← Entity.columnOf_isOk_iff, found]
      simp
    rw [Entity.propertyFaults, if_neg missing, Entity.columnOf_eq_error found]
    rfl
  | ok column =>
    rw [Entity.propertyFaults, if_pos (Entity.columnOf_isOk_iff.mp ⟨column, found⟩)]
    rfl

theorem pathFaults_cons (finish : Entity → List Fault) (entity : Entity) (name : String)
    (rest : List String) : model.pathFaults finish entity (name :: rest) =
      match model.hop entity name with
      | .error fault => [fault]
      | .ok hop => model.pathFaults finish hop.target rest := by
  rw [Model.pathFaults, Model.hop]
  cases found : entity.relation name with
  | error fault =>
    rw [Entity.relation_eq_error found]
    rfl
  | ok relation =>
    by_cases stands : relation.parent = entity.name
    · have far : relation.across entity = relation.child := if_pos stands
      cases known : model.entity relation.child with
      | error fault => simp [far, stands, known, Model.entity_eq_error known, Bind.bind, Except.bind]
      | ok next => simp [far, stands, known, Bind.bind, Except.bind, Pure.pure, Except.pure]
    · have far : relation.across entity = relation.parent := if_neg stands
      cases known : model.entity relation.parent with
      | error fault => simp [far, stands, known, Model.entity_eq_error known, Bind.bind, Except.bind]
      | ok next => simp [far, stands, known, Bind.bind, Except.bind, Pure.pure, Except.pure]

theorem along_reports {finish : Entity → Except Fault (Condition Operand)}
    {faultsAt : Entity → List Fault} (each : ∀ target, Reports (faultsAt target) (finish target))
    (relations : List String) (entity : Entity) :
    Reports (model.pathFaults faultsAt entity relations) (along model finish entity relations) := by
  induction relations generalizing entity with
  | nil => exact each entity
  | cons name rest ih =>
    rw [pathFaults_cons, along]
    cases model.hop entity name with
    | error fault => rfl
    | ok hop => exact (ih hop.target).bind_pure _

mutual

theorem resolve_reports : ∀ (qualifier : Qualifier) (entity : Entity),
    Reports (qualifier.faults model entity) (resolve model entity qualifier)
  | .column name predicate, entity => by
    rw [Qualifier.faults, resolve]
    exact columnComparison_reports entity name predicate
  | .property name predicate, entity => by
    rw [Qualifier.faults, resolve]
    cases found : entity.columnOf name with
    | error fault =>
      rw [Entity.columnOf_eq_error found]
      rfl
    | ok column =>
      -- The name of the column that was found is looked up once more.
      have listed : column.name ∈ entity.columns.map (·.name) :=
        List.mem_map.mpr ⟨column, Entity.columnOf_eq_ok found, rfl⟩
      have reports := columnComparison_reports entity column.name predicate
      rwa [if_pos listed] at reports
  | .all children, entity => by
    rw [Qualifier.faults, resolve]
    exact (resolveAll_reports children entity).bind_pure _
  | .any children, entity => by
    rw [Qualifier.faults, resolve]
    exact (resolveAll_reports children entity).bind_pure _
  | .path relations terminal, entity => by
    rw [Qualifier.faults, resolve]
    exact along_reports (fun target => resolve_reports terminal target) relations entity

theorem resolveAll_reports : ∀ (children : List Qualifier) (entity : Entity),
    Reports (Qualifier.faultsOfAll model entity children) (resolveAll model entity children)
  | [], entity => by
    rw [Qualifier.faultsOfAll, resolveAll]
    rfl
  | child :: rest, entity => by
    rw [Qualifier.faultsOfAll, resolveAll]
    exact (resolve_reports child entity).bind fun _ _ => (resolveAll_reports rest entity).bind_pure _

end

theorem resolveCondition_reports (qualifier : Option Qualifier) (entity : Entity) :
    Reports (qualifier.elim [] (·.faults model entity)) (resolveCondition model entity qualifier) := by
  cases qualifier with
  | none => rfl
  | some qualifier => exact (resolve_reports qualifier entity).bind_pure _

theorem countStatement_reports (model : Model) (fetch : Fetch) :
    Reports (fetch.countFaults model) (countStatement model fetch) := by
  unfold Fetch.countFaults countStatement
  cases known : model.entity fetch.entity with
  | error fault =>
    rw [Model.entity_eq_error known]
    rfl
  | ok entity => exact (resolveCondition_reports fetch.qualifier entity).bind_pure _

theorem orderings_reports (entity : Entity) (orderings : List SortOrdering) :
    Reports (orderings.flatMap (entity.propertyFaults ·.property)) (orderings.mapM fun ordering => do
      return ((← entity.columnOf ordering.property).name, ordering.direction)) :=
  Reports.mapM (fun ordering => (columnOf_reports entity ordering.property).bind_pure _) orderings

theorem checkLimit_reports (writer : Writer) (limit : Nat) :
    Reports (if writer.writesLimit then [] else [.unsupportedLimit limit writer.kind])
      (writer.checkLimit limit) := by
  unfold Writer.checkLimit
  split <;> rfl

theorem selectStatement_reports (model : Model) (writer : Writer) (fetch : Fetch) :
    Reports (fetch.selectFaults model writer) (selectStatement model writer fetch) := by
  unfold Fetch.selectFaults Fetch.countFaults Fetch.orderingFaults selectStatement
  cases known : model.entity fetch.entity with
  | error fault =>
    rw [Model.entity_eq_error known]
    rfl
  | ok entity =>
    rw [List.append_assoc]
    refine (resolveCondition_reports fetch.qualifier entity).bind fun condition _ => ?_
    refine (orderings_reports entity fetch.orderings).bind fun orderings _ => ?_
    unfold Fetch.limitFaults
    cases fetch.limit with
    | none => simp [Reports, Pure.pure, Except.pure]
    | some limit => exact (checkLimit_reports writer limit).bind_pure _

theorem Reports.finish {faults : List Fault} {statement : Except Fault (Statement Operand)}
    (reports : Reports faults statement) (compiler : Compiler) :
    Reports faults (compiler.finish statement) := by
  cases statement <;> exact reports

end Sql

theorem Predicate.faults_ofFetch {predicate : Predicate} {column : String} {fault : Fault}
    (wrong : fault ∈ predicate.faults column) : fault.OfFetch := by
  unfold Predicate.faults at wrong
  split at wrong
  · cases wrong
  · cases List.mem_singleton.mp wrong
    exact .inr ⟨trivial, rfl⟩

theorem Model.pathFaults_ofFetch {model : Model} {finish : Entity → List Fault} {fault : Fault}
    (each : ∀ target, fault ∈ finish target → fault.OfFetch) (relations : List String) {entity : Entity}
    (wrong : fault ∈ model.pathFaults finish entity relations) : fault.OfFetch := by
  induction relations generalizing entity with
  | nil => exact each entity wrong
  | cons name rest ih =>
    rw [Model.pathFaults] at wrong
    split at wrong
    · cases List.mem_singleton.mp wrong
      exact .inl ⟨trivial, rfl⟩
    · split at wrong
      · cases List.mem_singleton.mp wrong
        exact .inl ⟨trivial, rfl⟩
      · exact ih wrong

mutual

theorem Qualifier.faults_ofFetch {model : Model} {fault : Fault} : ∀ (qualifier : Qualifier)
    {entity : Entity}, fault ∈ qualifier.faults model entity → fault.OfFetch
  | .column name predicate, entity, wrong => by
    rw [Qualifier.faults] at wrong
    split at wrong
    · exact Predicate.faults_ofFetch wrong
    · cases List.mem_singleton.mp wrong
      exact .inl ⟨trivial, rfl⟩
  | .property name predicate, entity, wrong => by
    rw [Qualifier.faults] at wrong
    split at wrong
    · cases List.mem_singleton.mp wrong
      exact .inl ⟨trivial, rfl⟩
    · exact Predicate.faults_ofFetch wrong
  | .all children, entity, wrong => by
    rw [Qualifier.faults] at wrong
    exact Qualifier.faultsOfAll_ofFetch children wrong
  | .any children, entity, wrong => by
    rw [Qualifier.faults] at wrong
    exact Qualifier.faultsOfAll_ofFetch children wrong
  | .path relations terminal, entity, wrong => by
    rw [Qualifier.faults] at wrong
    exact Model.pathFaults_ofFetch (fun _ there => Qualifier.faults_ofFetch terminal there) relations wrong

theorem Qualifier.faultsOfAll_ofFetch {model : Model} {fault : Fault} : ∀ (children : List Qualifier)
    {entity : Entity}, fault ∈ Qualifier.faultsOfAll model entity children → fault.OfFetch
  | [], entity, wrong => nomatch wrong
  | child :: rest, entity, wrong => by
    rw [Qualifier.faultsOfAll, List.mem_append] at wrong
    rcases wrong with here | later
    · exact Qualifier.faults_ofFetch child here
    · exact Qualifier.faultsOfAll_ofFetch rest later

end

namespace Sql

end Sql

end RelationalMapper
