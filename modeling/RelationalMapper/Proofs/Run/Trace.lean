import RelationalMapper.Proofs.Run.Mirror
import RelationalMapper.Proofs.Run.Watch

set_option autoImplicit false

namespace RelationalMapper.Cache

variable {σ α β : Type}

inductive Moment where
  | outside
  | told
  | asked (view : ViewId)
  | answered (view : ViewId) (result : Except Fault (List (List Value)))
  | before (operation : Operation)
  | after (operation : Operation) (result : Except Fault operation.Answer)

structure Point where
  moment : Moment
  unit : UnitOfWork

/-- A memory, and the points that were passed, the latest last. -/
structure Trace (σ : Type) where
  memory : σ
  points : List Point

namespace Trace

def note (trace : Trace σ) (moment : Moment) (unit : UnitOfWork) : Trace σ :=
  { trace with points := trace.points ++ [⟨moment, unit⟩] }

def moment (trace : Trace σ) : Moment :=
  (trace.points.getLast?.map (·.moment)).getD .outside

@[simp] theorem moment_note (trace : Trace σ) (moment : Moment) (unit : UnitOfWork) :
    (trace.note moment unit).moment = moment := by
  simp [Trace.moment, note]

@[simp] theorem points_note (trace : Trace σ) (moment : Moment) (unit : UnitOfWork) :
    (trace.note moment unit).points = trace.points ++ [⟨moment, unit⟩] := rfl

def Begun (operation : Operation) (unit : UnitOfWork) (trace : Trace σ) : Prop :=
  trace.points.getLast? = some ⟨.before operation, unit⟩

theorem Begun.moment {operation : Operation} {unit : UnitOfWork} {trace : Trace σ}
    (begun : Begun operation unit trace) : trace.moment = .before operation := by
  simp only [Begun] at begun
  simp [Trace.moment, begun]

def Brings (view : ViewId) (fetched : List (List Value)) (trace : Trace σ) : Prop :=
  trace.moment = .answered view (.ok fetched)

def chart (good : UnitOfWork → Trace σ → Prop)
    (path ends : UnitOfWork → Trace σ → UnitOfWork → Trace σ → Prop)
    (awaited : ViewId → UnitOfWork → Trace σ → Prop) : Chart (Trace σ) :=
  { good, path, ends, awaited, begun := Begun, brings := Brings }

end Trace

namespace Program

def noted (moment : Moment) (next : Program (Trace σ) α) : Program (Trace σ) α :=
  .look fun unit trace => .keep (trace.note moment unit) next

def traced : Program σ α → Program (Trace σ) α
  | .done answer => .done answer
  | .look next => .look fun unit trace => (next unit trace.memory).traced
  | .keep memory next => .look fun _ trace => .keep { trace with memory } next.traced
  | .perform operation next =>
    noted (.before operation)
      (.perform operation fun result => noted (.after operation result) (next result).traced)

theorem run_traced_perform (calls : Callbacks (Trace σ)) (operation : Operation)
    (next : Except Fault operation.Answer → Program σ α) (unit : UnitOfWork) (trace : Trace σ) :
    (Program.perform operation next).traced.run calls unit trace =
      ((RelationalMapper.Cache.perform calls operation).attempt >>= fun result =>
        (noted (.after operation result) (next result).traced).run calls) unit
          (trace.note (.before operation) unit) := by
  rw [← run_perform]
  rfl

-- A program hears of every fault, so it always has an answer of its own.
theorem run_ok {calls : Callbacks σ} {program : Program σ α} {unit : UnitOfWork} {memory : σ}
    {outcome : Outcome σ α} (ran : program.run calls unit memory = some outcome) :
    ∃ answer, outcome.result = .ok answer := by
  induction program generalizing unit memory with
  | done answer =>
    cases ran
    exact ⟨answer, rfl⟩
  | look next ih => exact ih unit memory ran
  | keep memory next ih => exact ih ran
  | perform operation next ih =>
    rw [run_perform] at ran
    obtain ⟨result, after, kept, -, ran⟩ := Action.attempt_bind_eq_some ran
    exact ih result ran

theorem run_andThen (calls : Callbacks σ) (program : Program σ α) (rest : α → Program σ β) :
    (program.andThen rest).run calls = program.run calls >>= fun answer => (rest answer).run calls := by
  induction program with
  | done answer => rfl
  | look next ih =>
    funext unit memory
    exact congrFun (congrFun (ih unit memory) unit) memory
  | keep memory next ih =>
    funext unit _
    exact congrFun (congrFun ih unit) memory
  | perform operation next ih =>
    rw [andThen, run_perform, run_perform, Action.bind_bind]
    exact congrArg _ (funext ih)

end Program

def Program.toldOf (program : Program σ (Except Fault α)) : Program (Trace σ) (Except Fault α) :=
  noted .told program.traced

def Program.askedOf (view : ViewId) (program : Program σ (Except Fault (List (List Value)))) :
    Program (Trace σ) (Except Fault (List (List Value))) :=
  noted (.asked view) (program.traced.andThen fun result =>
    noted (.answered view result) (.done result))

def Callbacks.refused (fault : Fault) : Callbacks (Trace σ) where
  columnChanging _ _ := fun unit trace => some ⟨.error fault, unit, trace.note .told unit⟩
  rowDeleting _ _ := fun unit trace => some ⟨.error fault, unit, trace.note .told unit⟩
  fetch view _ _ := fun unit trace =>
    some ⟨.error fault, unit, (trace.note (.asked view) unit).note (.answered view (.error fault)) unit⟩

def Environment.traced (environment : Environment σ) : Nat → Callbacks (Trace σ)
  | 0 => .refused (.refused .invalidOperation "calls are nested too deep")
  | depth + 1 =>
    { columnChanging := fun key change =>
        (environment.columnChanging key change).toldOf.reply (environment.traced depth)
      rowDeleting := fun key deletion =>
        (environment.rowDeleting key deletion).toldOf.reply (environment.traced depth)
      fetch := fun view command fetch =>
        ((environment.fetch view command fetch).askedOf view).reply (environment.traced depth) }

structure Tracing (good : UnitOfWork → Trace σ → Prop)
    (path ends : UnitOfWork → Trace σ → UnitOfWork → Trace σ → Prop)
    (awaited : ViewId → UnitOfWork → Trace σ → Prop) : Prop where
  charted : Charted (Trace.chart good path ends awaited)
  keep : ∀ {unit trace} memory, good unit trace → path unit trace unit { trace with memory }
  told : ∀ {unit trace}, good unit trace → path unit trace unit (trace.note .told unit)
  before : ∀ {unit trace operation}, good unit trace → operation.callsOut = true →
    path unit trace unit (trace.note (.before operation) unit)
  after : ∀ {unit trace operation after kept} result, operation.callsOut = true →
    ends unit trace after kept → path unit trace after (kept.note (.after operation result) after)
  alone : ∀ {unit after trace operation} {result : Except Fault operation.Answer}, good unit trace →
    operation.Yields unit result after →
    path unit trace after ((trace.note (.before operation) unit).note (.after operation result) after)
  asked : ∀ {unit trace id}, good unit trace → awaited id unit trace →
    good unit (trace.note (.asked id) unit)
  answered : ∀ {unit trace id after kept} result, good unit trace → awaited id unit trace →
    path unit (trace.note (.asked id) unit) after kept →
    path unit trace after (kept.note (.answered id result) after) ∧
      awaited id after (kept.note (.answered id result) after)

section

variable {good : UnitOfWork → Trace σ → Prop}
  {path ends : UnitOfWork → Trace σ → UnitOfWork → Trace σ → Prop}
  {awaited : ViewId → UnitOfWork → Trace σ → Prop} (tracing : Tracing good path ends awaited)
  {calls : Callbacks (Trace σ)} {plain : Callbacks σ} {unit : UnitOfWork} {trace : Trace σ}

abbrev Callbacks.Traces (good : UnitOfWork → Trace σ → Prop)
    (path ends : UnitOfWork → Trace σ → UnitOfWork → Trace σ → Prop)
    (awaited : ViewId → UnitOfWork → Trace σ → Prop) (calls : Callbacks (Trace σ))
    (plain : Callbacks σ) : Prop :=
  calls.Mirrors Trace.memory (Trace.chart good path ends awaited) plain

include tracing

theorem Tracing.run (pair : calls.Traces good path ends awaited plain) (program : Program σ α)
    (sound : good unit trace) :
    (program.traced.run calls).Mirrors Trace.memory (program.run plain) unit trace
      fun _ => path unit trace := by
  have charted := tracing.charted
  induction program generalizing unit trace with
  | done answer => exact .stay charted sound (.ok answer)
  | look next ih => exact ih unit trace.memory sound
  | keep memory next ih =>
    have led := tracing.keep memory sound
    exact (ih (charted.arrives led)).imp fun _ _ _ later => charted.trans led later
  | perform operation next ih =>
    cases calling : operation.callsOut with
    | true =>
      have led := tracing.before sound calling
      have sound := charted.arrives led
      have begun : Trace.Begun operation unit (trace.note (.before operation) unit) := by
        simp [Trace.Begun]
      have performed := mirrors_perform charted sound pair calling begun
      refine .congr (Program.run_traced_perform ..) (by rw [Program.run_perform]; rfl)
        (performed.attempt.bind (by rintro _ _ _ ⟨_, impossible, _⟩; cases impossible) ?_)
      rintro result after kept ⟨_, -, way⟩
      have led := charted.trans led (tracing.after result calling way)
      exact (ih result (charted.arrives led)).imp fun _ _ _ later => charted.trans led later
    | false =>
      obtain ⟨result, after, yields⟩ := Operation.exists_yields calling unit
      have performed := @yields.performed
      have led := tracing.alone sound yields
      obtain ⟨answer, last, kept, ran, same, ended⟩ := ih result (charted.arrives led)
      refine ⟨answer, last, kept, ?_, ?_, charted.trans led ended⟩
      · rw [Program.run_traced_perform, Action.bind_of_ok (Action.attempt_of_some (performed ..))]
        exact ran
      · intro ended done
        rw [Program.run_of_performed (performed ..)] at done
        exact same ended done

theorem Tracing.toldOf (pair : calls.Traces good path ends awaited plain)
    (program : Program σ (Except Fault Unit)) (sound : good unit trace) :
    (program.toldOf.reply calls).Mirrors Trace.memory (program.reply plain) unit trace
      fun _ => path unit trace := by
  have charted := tracing.charted
  have led := tracing.told sound
  have ran : (program.toldOf.run calls).Mirrors Trace.memory (program.run plain) unit trace
      fun _ => path unit trace :=
    (tracing.run pair program (charted.arrives led)).imp fun _ _ _ later => charted.trans led later
  exact .bind_path charted ran fun result _ _ sound _ => .stay charted sound result

theorem Tracing.askedOf (pair : calls.Traces good path ends awaited plain) (id : ViewId)
    (program : Program σ (Except Fault (List (List Value)))) (sound : good unit trace)
    (awaiting : awaited id unit trace) :
    ((program.askedOf id).reply calls).Mirrors Trace.memory (program.reply plain) unit trace
      fun result after kept => path unit trace after kept ∧ awaited id after kept ∧
        ∀ fetched, result = .ok fetched → Trace.Brings id fetched kept := by
  obtain ⟨_, after, kept, ran, same, led⟩ := tracing.run pair program (tracing.asked sound awaiting)
  obtain ⟨answer, rfl⟩ := Program.run_ok ran
  obtain ⟨way, waits⟩ := tracing.answered answer sound awaiting led
  have answered : (program.askedOf id).run calls unit trace =
      some ⟨.ok answer, after, kept.note (.answered id answer) after⟩ := by
    change (program.traced.andThen _).run calls unit (trace.note (.asked id) unit) = _
    rw [Program.run_andThen, Action.bind_of_ok ran]
    rfl
  refine ⟨answer, after, _, Action.bind_of_ok answered _, ?_, way, waits, ?_⟩
  · intro ended done
    rcases Action.bind_eq_some.mp done with ⟨_, _, _, plainRan, done⟩ | ⟨_, _, _, plainRan, _⟩
    · cases same _ plainRan
      cases done
      rfl
    · cases same _ plainRan
  · rintro fetched rfl
    exact Trace.moment_note ..

theorem Tracing.refused (fault : Fault) :
    Callbacks.Traces good path ends awaited (.refused fault) .unanswered where
  columnChanging _ _ sound := ⟨_, _, _, rfl, by rintro _ ⟨⟩, tracing.told sound⟩
  rowDeleting _ _ sound := ⟨_, _, _, rfl, by rintro _ ⟨⟩, tracing.told sound⟩
  fetch _ _ sound awaiting := by
    obtain ⟨way, waits⟩ := tracing.answered (.error fault) sound awaiting
      (tracing.charted.refl (tracing.asked sound awaiting))
    exact ⟨_, _, _, rfl, by rintro _ ⟨⟩, way, waits, by rintro _ ⟨⟩⟩

theorem Tracing.environment (environment : Environment σ) (depth : Nat) :
    (environment.traced depth).Traces good path ends awaited (environment.callbacks depth) := by
  induction depth with
  | zero => exact tracing.refused _
  | succ depth ih =>
    exact ⟨fun key change sound => tracing.toldOf ih _ sound,
      fun key deletion sound => tracing.toldOf ih _ sound,
      fun command fetch sound awaiting => tracing.askedOf ih _ _ sound awaiting⟩

end

def Outcome.untraced (outcome : Outcome (Trace σ) α) : Outcome σ α :=
  ⟨outcome.result, outcome.unit, outcome.memory.memory⟩

end RelationalMapper.Cache
