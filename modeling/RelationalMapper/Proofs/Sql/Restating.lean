import Mathlib.Logic.Relation
import RelationalMapper.Proofs.Sql.Placeholder

set_option autoImplicit false

namespace RelationalMapper

def Model.scopeBeyond (model : Model) (scope : Option Entity) (relations : List String) :
    Option Entity :=
  scope.bind fun entity => (model.reach entity relations).toOption

/-- One part of the qualifier is put differently, in the scope of the entity that is reached there. -/
inductive Qualifier.Restated (model : Model) : Option Entity → Qualifier → Qualifier → Prop
  | split {scope : Option Entity} (first second : List String) (terminal : Qualifier) :
    Restated model scope (.path (first ++ second) terminal) (.path first (.path second terminal))
  | named {entity : Entity} {name : String} {column : Column} (predicate : Predicate)
      (found : entity.columnOf name = .ok column) :
    Restated model (some entity) (.property name predicate) (.column column.name predicate)
  | all {scope : Option Entity} {part other : Qualifier} (before after : List Qualifier)
      (within : Restated model scope part other) :
    Restated model scope (.all (before ++ part :: after)) (.all (before ++ other :: after))
  | any {scope : Option Entity} {part other : Qualifier} (before after : List Qualifier)
      (within : Restated model scope part other) :
    Restated model scope (.any (before ++ part :: after)) (.any (before ++ other :: after))
  | path {scope : Option Entity} {terminal other : Qualifier} (relations : List String)
      (within : Restated model (model.scopeBeyond scope relations) terminal other) :
    Restated model scope (.path relations terminal) (.path relations other)

namespace Sql

section

variable {model : Model} {entity : Entity}

theorem along_append (finish : Entity → Except Fault (Condition Operand)) (first second : List String) :
    along model finish entity (first ++ second) =
      along model (fun target => along model finish target second) entity first := by
  induction first generalizing entity with
  | nil => rfl
  | cons name rest ih => simp only [List.cons_append, along, ih]

theorem along_congr {finish other : Entity → Except Fault (Condition Operand)} {relations : List String}
    (same : ∀ target, model.reach entity relations = .ok target → finish target = other target) :
    along model finish entity relations = along model other entity relations := by
  induction relations generalizing entity with
  | nil => exact same entity rfl
  | cons name rest ih =>
    rw [along, along]
    cases hopped : model.hop entity name with
    | error fault => rfl
    | ok hop =>
      have onward : along model finish hop.target rest = along model other hop.target rest := by
        refine ih fun target reached => same target ?_
        rw [Model.reach, hopped]
        exact reached
      change (along model finish hop.target rest >>= _) = (along model other hop.target rest >>= _)
      rw [onward]

theorem resolveAll_congr {part other : Qualifier} (before after : List Qualifier)
    (same : resolve model entity part = resolve model entity other) :
    resolveAll model entity (before ++ part :: after) =
      resolveAll model entity (before ++ other :: after) := by
  induction before with
  | nil => rw [List.nil_append, List.nil_append, resolveAll, resolveAll, same]
  | cons first rest ih => rw [List.cons_append, List.cons_append, resolveAll, resolveAll, ih]

-- One part: by induction on where it stands, with the entity that is reached there.
theorem resolve_restated {scope : Option Entity} {first second : Qualifier}
    (restated : first.Restated model scope second) (inScope : entity ∈ scope) :
    resolve model entity first = resolve model entity second := by
  induction restated generalizing entity with
  | split first second terminal =>
    rw [resolve, resolve, along_append]
    exact along_congr fun target _ => by rw [resolve]
  | named predicate found =>
    cases inScope
    rw [resolve, resolve, found]
    rfl
  | all before after _ ih => rw [resolve, resolve, resolveAll_congr before after (ih inScope)]
  | any before after _ ih => rw [resolve, resolve, resolveAll_congr before after (ih inScope)]
  | path relations _ ih =>
    cases inScope
    rw [resolve, resolve]
    refine along_congr fun target reached => ih ?_
    rw [Model.scopeBeyond, Option.bind_some, reached]
    rfl

-- Any number of parts, one after the other.
theorem resolve_restatedOften {scope : Option Entity} {first second : Qualifier}
    (restated : Relation.EqvGen (Qualifier.Restated model scope) first second)
    (inScope : entity ∈ scope) : resolve model entity first = resolve model entity second := by
  induction restated with
  | rel first second once => exact resolve_restated once inScope
  | refl qualifier => rfl
  | symm first second _ ih => exact ih.symm
  | trans first second third _ _ before after => exact before.trans after

end

section

variable (model : Model) (fetch : Fetch) {first second : Qualifier}

theorem resolveCondition_restated (restated : Relation.EqvGen
      (Qualifier.Restated model (model.entity fetch.entity).toOption) first second) {entity : Entity}
    (known : model.entity fetch.entity = .ok entity) :
    resolveCondition model entity (some first) = resolveCondition model entity (some second) := by
  have inScope : entity ∈ (model.entity fetch.entity).toOption := by rw [known]; rfl
  rw [resolveCondition, resolveCondition, resolve_restatedOften restated inScope]

theorem selectStatement_restated (writer : Writer) (restated : Relation.EqvGen
      (Qualifier.Restated model (model.entity fetch.entity).toOption) first second) :
    selectStatement model writer { fetch with qualifier := some first } =
      selectStatement model writer { fetch with qualifier := some second } := by
  unfold selectStatement
  cases known : model.entity fetch.entity with
  | error fault => rfl
  | ok entity =>
    change (resolveCondition model entity (some first) >>= _) =
      (resolveCondition model entity (some second) >>= _)
    rw [resolveCondition_restated model fetch restated known]

theorem countStatement_restated (restated : Relation.EqvGen
      (Qualifier.Restated model (model.entity fetch.entity).toOption) first second) :
    countStatement model { fetch with qualifier := some first } =
      countStatement model { fetch with qualifier := some second } := by
  unfold countStatement
  cases known : model.entity fetch.entity with
  | error fault => rfl
  | ok entity =>
    change (resolveCondition model entity (some first) >>= _) =
      (resolveCondition model entity (some second) >>= _)
    rw [resolveCondition_restated model fetch restated known]

end

/-- However many parts of a qualifier are put differently, the command of its select and that of its count
are what they were, text and parameters, and so is the fault if there is none. -/
theorem restated_compiled_alike (compiler : Compiler) (fetch : Fetch) {first second : Qualifier}
    (restated : Relation.EqvGen (Qualifier.Restated compiler.model
      (compiler.model.entity fetch.entity).toOption) first second) :
    compiler.select { fetch with qualifier := some first } =
        compiler.select { fetch with qualifier := some second } ∧
      compiler.count { fetch with qualifier := some first } =
        compiler.count { fetch with qualifier := some second } := by
  constructor
  · exact congrArg compiler.finish
      (selectStatement_restated compiler.model fetch compiler.writer restated)
  · exact congrArg compiler.finish (countStatement_restated compiler.model fetch restated)

def lineEntity : Entity :=
  ⟨"Line", "lines", [⟨"id", "id", true, false, none⟩, .named "order",
    ⟨"qty", "quantity", false, false, none⟩], []⟩

-- Customers with their orders, and these with their lines.
def customerOrders : Model :=
  ⟨[⟨"Customer", "customers", [⟨"id", "id", true, false, none⟩,
        ⟨"full_name", "name", false, false, none⟩],
      [⟨"orders", "Customer", "Order", "id", "customer"⟩]⟩,
    ⟨"Order", "orders", [⟨"id", "id", true, false, none⟩, .named "customer"],
      [⟨"lines", "Order", "Line", "id", "order"⟩]⟩,
    lineEntity]⟩

-- Customers by their names, or with more than ten of something on one line.
def bulkBuyers : Fetch :=
  ⟨"Customer", some (.any [.column "full_name" ⟨.like, .text "A%"⟩,
    .path ["orders", "lines"] (.property "quantity" ⟨.greaterThan, .integer 10⟩)]),
    [⟨"name", .ascending⟩], some 5⟩

-- The path is split, and behind both of its parts the property has become a column.
def bulkBuyersBySteps : Fetch :=
  { bulkBuyers with
    qualifier := some (.any [.column "full_name" ⟨.like, .text "A%"⟩,
      .path ["orders"] (.path ["lines"] (.column "qty" ⟨.greaterThan, .integer 10⟩))]) }

theorem bulk_buyers_compiled_alike :
    bulkBuyers ≠ bulkBuyersBySteps ∧
      (∃ first second, bulkBuyers.qualifier = some first ∧ bulkBuyersBySteps.qualifier = some second ∧
        Relation.EqvGen (Qualifier.Restated customerOrders
          (customerOrders.entity "Customer").toOption) first second) ∧
      ∃ command,
        (⟨customerOrders, Dialect.sqlite.writer, true⟩ : Compiler).select bulkBuyers = .ok command ∧
        (⟨customerOrders, Dialect.sqlite.writer, true⟩ : Compiler).select bulkBuyersBySteps =
          .ok command ∧
        command.parameters.map (·.value) = [.text "A%", .integer 10] := by
  obtain ⟨first, second, here, there, restated⟩ : ∃ first second,
      bulkBuyers.qualifier = some first ∧ bulkBuyersBySteps.qualifier = some second ∧
        Relation.EqvGen (Qualifier.Restated customerOrders
          (customerOrders.entity "Customer").toOption) first second := by
    refine ⟨_, _, rfl, rfl, .trans _ _ _ (.rel _ _ (.any [_] [] (.split ["orders"] ["lines"] _)))
      (.rel _ _ (.any [_] [] (.path _ (.path _ ?_))))⟩
    have found : lineEntity.columnOf "quantity" = .ok ⟨"qty", "quantity", false, false, none⟩ := rfl
    exact .named _ found
  have same := (restated_compiled_alike ⟨customerOrders, Dialect.sqlite.writer, true⟩
    bulkBuyers restated).1
  rw [← here, ← there] at same
  obtain ⟨command, compiled⟩ : ∃ command,
      (⟨customerOrders, Dialect.sqlite.writer, true⟩ : Compiler).select bulkBuyers = .ok command :=
    ⟨_, rfl⟩
  refine ⟨by decide, ⟨first, second, here, there, restated⟩, command, compiled,
    same.symm.trans compiled, ?_⟩
  cases compiled
  decide

end Sql

end RelationalMapper
