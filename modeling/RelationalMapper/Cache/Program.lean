import RelationalMapper.Cache.ViewActions

/-!
Programs for listeners and row sources: finite trees that look at the unit of work, keep a memory, and
perform operations whose listeners run programs in turn. How deep this nests is bounded from outside,
and what finishes within one bound finishes in the same way within any larger one.
-/

set_option autoImplicit false

namespace RelationalMapper.Cache

inductive Operation where
  | attach (entity : String) (values : List Value)
  | insert (entity : String) (values : List (String × Value))
  | write (row : RowId) (column : String) (value : Value)
  | delete (row : RowId)
  | accept
  | subscribe (channel : Channel) (table : String) (listener : ListenerKey)
  | unsubscribe (subscription : SubscriptionId)
  | openView (owner : ObjectIdentity) (relation : String)
  | load (view : ViewId)
  | members (view : ViewId)
  | add (view : ViewId) (row : RowId)
  | remove (view : ViewId) (row : RowId)
  | invalidate (view : ViewId)
  | close (view : ViewId)

def Operation.Answer : Operation → Type
  | attach .. | insert .. => RowId
  | subscribe .. => SubscriptionId
  | unsubscribe _ => Bool
  | openView .. => ViewId
  | members _ => List ObjectIdentity
  | add .. => Nat
  | write .. | delete _ | accept | load _ | remove .. | invalidate _ | close _ => Unit

inductive Program (σ α : Type) where
  | done (answer : α)
  | look (next : UnitOfWork → σ → Program σ α)
  | keep (memory : σ) (next : Program σ α)
  | perform (operation : Operation) (next : Except Fault operation.Answer → Program σ α)

namespace Program

variable {σ α β : Type}

def andThen : Program σ α → (α → Program σ β) → Program σ β
  | .done answer, rest => rest answer
  | .look next, rest => .look fun unit memory => (next unit memory).andThen rest
  | .keep memory next, rest => .keep memory (next.andThen rest)
  | .perform operation next, rest => .perform operation fun result => (next result).andThen rest

instance : Monad (Program σ) where
  pure := done
  bind := andThen

end Program

/-- The programs that answer the calls of a unit of work. -/
structure Environment (σ : Type) where
  columnChanging : ListenerKey → ColumnChange → Program σ (Except Fault Unit)
  rowDeleting : ListenerKey → RowDeletion → Program σ (Except Fault Unit)
  fetch : ViewId → Sql.Command → Fetch → Program σ (Except Fault (List (List Value)))

variable {σ α : Type}

def perform (calls : Callbacks σ) : (operation : Operation) → Action σ operation.Answer
  | .attach entity values => attachRow entity values
  | .insert entity values => insertRow calls entity values
  | .write row column value => writeColumn calls row column value
  | .delete row => deleteRow calls row
  | .accept => acceptChanges
  | .subscribe channel table listener =>
    Action.step fun unit =>
      let (id, channels) := unit.channels.subscribe channel table (.listener listener)
      (id, { unit with channels })
  | .unsubscribe subscription =>
    Action.step fun unit =>
      let (found, channels) := unit.channels.unsubscribe subscription
      (found, { unit with channels })
  | .openView owner relation => openView owner relation
  | .load view => loadView calls view
  | .members view => viewMembers calls view
  | .add view row => addMember calls view row
  | .remove view row => removeMember calls view row
  | .invalidate view => Action.change (·.invalidate view)
  | .close view => Action.change (·.closeView view)

def Program.run (calls : Callbacks σ) : Program σ α → Action σ α
  | .done answer => pure answer
  | .look next => fun unit memory => (next unit memory).run calls unit memory
  | .keep memory next => fun unit _ => next.run calls unit memory
  | .perform operation next => fun unit memory =>
    match RelationalMapper.Cache.perform calls operation unit memory with
    | none => none
    | some ⟨result, unit, memory⟩ => (next result).run calls unit memory

def Program.reply (calls : Callbacks σ) (program : Program σ (Except Fault α)) : Action σ α := do
  Action.given (← program.run calls)

def Callbacks.unanswered : Callbacks σ where
  columnChanging _ _ := fun _ _ => none
  rowDeleting _ _ := fun _ _ => none
  fetch _ _ _ := fun _ _ => none

/-- Callbacks that run the environment's programs, with calls nested at most `depth` deep. -/
def Environment.callbacks (environment : Environment σ) : Nat → Callbacks σ
  | 0 => .unanswered
  | depth + 1 =>
    { columnChanging := fun key change =>
        (environment.columnChanging key change).reply (environment.callbacks depth)
      rowDeleting := fun key deletion =>
        (environment.rowDeleting key deletion).reply (environment.callbacks depth)
      fetch := fun view command fetch =>
        (environment.fetch view command fetch).reply (environment.callbacks depth) }

end RelationalMapper.Cache
