import RelationalMapper.Cache.UnitOfWork

/-!
Actions on a unit of work. An action may fail, but what it did before it failed stays done. While it
runs it may call out to listeners and row sources, which have a memory of type `σ` and may act on the
unit of work themselves; an action has no outcome when these calls nest deeper than they are given
room for.
-/

set_option autoImplicit false

namespace RelationalMapper.Cache

structure Outcome (σ α : Type) where
  result : Except Fault α
  unit : UnitOfWork
  memory : σ

def Action (σ α : Type) : Type :=
  UnitOfWork → σ → Option (Outcome σ α)

namespace Action

variable {σ α β : Type}

def succeed (answer : α) : Action σ α :=
  fun unit memory => some ⟨.ok answer, unit, memory⟩

def fail (fault : Fault) : Action σ α :=
  fun unit memory => some ⟨.error fault, unit, memory⟩

def next (first : Action σ α) (rest : α → Action σ β) : Action σ β :=
  fun unit memory =>
    match first unit memory with
    | none => none
    | some ⟨.ok answer, unit, memory⟩ => rest answer unit memory
    | some ⟨.error fault, unit, memory⟩ => some ⟨.error fault, unit, memory⟩

instance : Monad (Action σ) where
  pure := succeed
  bind := next

def attempt (action : Action σ α) : Action σ (Except Fault α) :=
  fun unit memory =>
    match action unit memory with
    | none => none
    | some ⟨result, unit, memory⟩ => some ⟨.ok result, unit, memory⟩

def given (result : Except Fault α) : Action σ α :=
  fun unit memory => some ⟨result, unit, memory⟩

def look : Action σ UnitOfWork :=
  fun unit memory => some ⟨.ok unit, unit, memory⟩

def ask (question : UnitOfWork → Except Fault α) : Action σ α :=
  fun unit memory => some ⟨question unit, unit, memory⟩

def change (update : UnitOfWork → UnitOfWork) : Action σ Unit :=
  fun unit memory => some ⟨.ok (), update unit, memory⟩

def step (update : UnitOfWork → α × UnitOfWork) : Action σ α :=
  fun unit memory => some ⟨.ok (update unit).1, (update unit).2, memory⟩

end Action

/-- The code outside the unit of work that it calls. -/
structure Callbacks (σ : Type) where
  columnChanging : ListenerKey → ColumnChange → Action σ Unit
  rowDeleting : ListenerKey → RowDeletion → Action σ Unit
  fetch : ViewId → Sql.Command → Fetch → Action σ (List (List Value))

end RelationalMapper.Cache
