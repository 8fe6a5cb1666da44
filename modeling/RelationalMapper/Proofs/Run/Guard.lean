import RelationalMapper.Cache.Program
import RelationalMapper.Proofs.Run.Lead

set_option autoImplicit false

namespace RelationalMapper.Cache

variable {σ α β : Type}

def Action.Below (first second : Action σ α) : Prop :=
  ∀ unit memory outcome, first unit memory = some outcome → second unit memory = some outcome

namespace Action.Below

theorem refl (action : Action σ α) : action.Below action :=
  fun _ _ _ ran => ran

theorem of_none {second : Action σ α} : Action.Below (fun _ _ => none) second := by
  intro unit memory outcome ran
  cases ran

theorem bind {first second : Action σ α} {rest later : α → Action σ β} (below : first.Below second)
    (onward : ∀ answer, (rest answer).Below (later answer)) :
    (first >>= rest).Below (second >>= later) := by
  intro unit memory outcome ran
  rw [Action.bind_eq_some] at ran ⊢
  rcases ran with ⟨answer, after, kept, came, ran⟩ | ⟨fault, after, kept, came, same⟩
  · exact .inl ⟨answer, after, kept, below _ _ _ came, onward answer _ _ _ ran⟩
  · exact .inr ⟨fault, after, kept, below _ _ _ came, same⟩

theorem bind_left {first second : Action σ α} (below : first.Below second) (rest : α → Action σ β) :
    (first >>= rest).Below (second >>= rest) :=
  below.bind fun answer => .refl (rest answer)

theorem bind_right (first : Action σ α) {rest later : α → Action σ β}
    (onward : ∀ answer, (rest answer).Below (later answer)) :
    (first >>= rest).Below (first >>= later) :=
  (refl first).bind onward

theorem attempt {first second : Action σ α} (below : first.Below second) :
    first.attempt.Below second.attempt := by
  intro unit memory outcome ran
  cases came : first unit memory with
  | none => simp [Action.attempt, came] at ran
  | some ended =>
    rw [Action.attempt_of_some came] at ran
    rw [Action.attempt_of_some (below _ _ _ came)]
    exact ran

end Action.Below

structure Callbacks.Below (first second : Callbacks σ) : Prop where
  columnChanging : ∀ key change, (first.columnChanging key change).Below (second.columnChanging key change)
  rowDeleting : ∀ key deletion, (first.rowDeleting key deletion).Below (second.rowDeleting key deletion)
  fetch : ∀ view command fetch, (first.fetch view command fetch).Below (second.fetch view command fetch)

section

variable {calls others : Callbacks σ} (below : calls.Below others)

include below

theorem tellChange_below (change : ColumnChange) (subscribers : List Subscriber) :
    (tellChange calls change subscribers).Below (tellChange others change subscribers) := by
  induction subscribers with
  | nil => apply Action.Below.refl
  | cons subscriber rest ih =>
    cases subscriber with
    | view id => exact .bind_right _ fun _ => .bind_right _ fun _ => ih
    | listener key => exact (below.columnChanging key change).bind fun _ => ih

theorem tellDeletion_below (deletion : RowDeletion) (subscribers : List Subscriber) :
    (tellDeletion calls deletion subscribers).Below (tellDeletion others deletion subscribers) := by
  induction subscribers with
  | nil => apply Action.Below.refl
  | cons subscriber rest ih =>
    cases subscriber with
    | view id => exact .bind_right _ fun _ => .bind_right _ fun _ => ih
    | listener key => exact (below.rowDeleting key deletion).bind fun _ => ih

theorem announceDeletion_below (deletion : RowDeletion) :
    (announceDeletion calls deletion).Below (announceDeletion others deletion) :=
  .bind_right _ fun _ => tellDeletion_below below deletion _

theorem writeColumn_below (row : RowId) (column : String) (value : Value) :
    (writeColumn calls row column value).Below (writeColumn others row column value) :=
  .bind_right _ fun answer =>
    Action.Below.bind_left (.bind_right _ fun _ => tellChange_below below answer.1 _) _

theorem deleteRow_below (row : RowId) : (deleteRow calls row).Below (deleteRow others row) :=
  .bind_right _ fun deletion => (announceDeletion_below below deletion).bind_left _

theorem writeColumns_below (row : RowId) (values : List (String × Value)) :
    (writeColumns calls row values).Below (writeColumns others row values) := by
  induction values with
  | nil => apply Action.Below.refl
  | cons entry rest ih => exact (writeColumn_below below row entry.1 entry.2).bind fun _ => ih

theorem insertRow_below (entity : String) (values : List (String × Value)) :
    (insertRow calls entity values).Below (insertRow others entity values) := by
  refine .bind_right _ fun unit => .bind_right _ fun answer => .bind_right _ fun _ => ?_
  refine (writeColumns_below below _ _).attempt.bind fun written => .bind_right _ fun _ => ?_
  cases written with
  | ok => apply Action.Below.refl
  | error fault => exact ((announceDeletion_below below _).attempt.bind_left _).bind_left _

theorem queryMembers_below (id : ViewId) (view : RelationView) :
    (queryMembers calls id view).Below (queryMembers others id view) := by
  refine .bind_right _ fun wish => ?_
  cases wish with
  | none => apply Action.Below.refl
  | some key => exact .bind_right _ fun command => (below.fetch id command _).bind_left _

theorem loadView_below (id : ViewId) : (loadView calls id).Below (loadView others id) := by
  refine .bind_right _ fun view => ?_
  cases view.state with
  | loaded => apply Action.Below.refl
  | unloaded => exact (queryMembers_below below id view).bind_left _

theorem viewMembers_below (id : ViewId) : (viewMembers calls id).Below (viewMembers others id) :=
  (loadView_below below id).bind_left _

theorem perform_below (operation : Operation) :
    (perform calls operation).Below (perform others operation) := by
  cases operation with
  | insert entity values => exact insertRow_below below entity values
  | write row column value => exact writeColumn_below below row column value
  | delete row => exact deleteRow_below below row
  | load view => exact loadView_below below view
  | members view => exact viewMembers_below below view
  | add view row =>
    refine (loadView_below below view).bind fun _ => .bind_right _ fun opened => .bind_right _ fun key => ?_
    cases key with
    | none => apply Action.Below.refl
    | some key =>
      refine (writeColumn_below below row _ key).bind fun _ => .bind_right _ fun identity => ?_
      exact (viewMembers_below below view).bind_left _
  | remove view row =>
    refine (loadView_below below view).bind fun _ => .bind_right _ fun opened => ?_
    exact writeColumn_below below row _ .null
  | _ => apply Action.Below.refl

end

inductive Announcement where
  | change (row : RowId) (column : String)
  | deletion (row : RowId)
deriving DecidableEq

def Program.Answers (good : α → Prop) : Program σ α → Prop
  | .done answer => good answer
  | .look next => ∀ unit memory, (next unit memory).Answers good
  | .keep _ next => next.Answers good
  | .perform _ next => ∀ result, (next result).Answers good

def Program.runUnless (calls : Callbacks σ) (forbidden : UnitOfWork → Operation → Bool) :
    Program σ α → Action σ α
  | .done answer => pure answer
  | .look next => fun unit memory => (next unit memory).runUnless calls forbidden unit memory
  | .keep memory next => fun unit _ => next.runUnless calls forbidden unit memory
  | .perform operation next => fun unit memory =>
    if forbidden unit operation then none
    else ((RelationalMapper.Cache.perform calls operation).attempt >>= fun result =>
      (next result).runUnless calls forbidden) unit memory

/-- The callbacks of an environment under a guard, which forbids operations amid announcements. -/
def Environment.guarded (environment : Environment σ)
    (forbids : List Announcement → UnitOfWork → Operation → Bool) :
    Nat → List Announcement → Callbacks σ
  | 0, _ => .unanswered
  | depth + 1, amid =>
    { columnChanging := fun key change =>
        let amid := .change change.row change.column :: amid
        (environment.columnChanging key change).runUnless (environment.guarded forbids depth amid)
          (forbids amid) >>= Action.given
      rowDeleting := fun key deletion =>
        let amid := .deletion deletion.row :: amid
        (environment.rowDeleting key deletion).runUnless (environment.guarded forbids depth amid)
          (forbids amid) >>= Action.given
      fetch := fun view command fetch =>
        (environment.fetch view command fetch).runUnless (environment.guarded forbids depth amid)
          (forbids amid) >>= Action.given }

theorem Program.runUnless_perform {calls : Callbacks σ} {forbidden : UnitOfWork → Operation → Bool}
    {operation : Operation} {next : Except Fault operation.Answer → Program σ α} {unit : UnitOfWork}
    {memory : σ} {outcome : Outcome σ α}
    (ran : (Program.perform operation next).runUnless calls forbidden unit memory = some outcome) :
    forbidden unit operation = false ∧ ∃ result after kept,
      RelationalMapper.Cache.perform calls operation unit memory = some ⟨result, after, kept⟩ ∧
        (next result).runUnless calls forbidden after kept = some outcome := by
  dsimp only [runUnless] at ran
  split at ran
  · cases ran
  next permitted => exact ⟨by simpa using permitted, Action.attempt_bind_eq_some ran⟩

theorem Program.answers_all (program : Program σ α) : program.Answers fun _ => True := by
  induction program with
  | done answer => trivial
  | look next ih => exact ih
  | keep memory next ih => exact ih
  | perform operation next ih => exact ih

theorem Program.runUnless_answers {calls : Callbacks σ} {forbidden : UnitOfWork → Operation → Bool}
    {good : α → Prop} {program : Program σ α} (answers : program.Answers good) {unit after : UnitOfWork}
    {memory kept : σ} {result : Except Fault α}
    (ran : program.runUnless calls forbidden unit memory = some ⟨result, after, kept⟩) :
    ∃ answer, result = .ok answer ∧ good answer := by
  induction program generalizing unit memory with
  | done answer =>
    cases ran
    exact ⟨answer, rfl, answers⟩
  | look next ih => exact ih unit memory (answers unit memory) ran
  | keep memory next ih => exact ih answers ran
  | perform operation next ih =>
    obtain ⟨-, given, between, halfway, -, ran⟩ := Program.runUnless_perform ran
    exact ih given (answers given) ran

theorem Program.runUnless_given {calls : Callbacks σ} {forbidden : UnitOfWork → Operation → Bool}
    {good : Except Fault α → Prop} {program : Program σ (Except Fault α)}
    (answers : program.Answers good) {unit after : UnitOfWork} {memory kept : σ} {result : Except Fault α}
    (ran : (program.runUnless calls forbidden >>= Action.given) unit memory =
      some ⟨result, after, kept⟩) :
    good result ∧ program.runUnless calls forbidden unit memory = some ⟨.ok result, after, kept⟩ := by
  rcases Action.bind_eq_some.mp ran with ⟨answer, between, halfway, came, ran⟩ | ⟨fault, _, _, came, -⟩
  · cases ran
    obtain ⟨_, same, answered⟩ := runUnless_answers answers came
    cases same
    exact ⟨answered, came⟩
  · obtain ⟨_, impossible, -⟩ := runUnless_answers answers came
    cases impossible

structure Onward (good : UnitOfWork → Prop) (leads : UnitOfWork → UnitOfWork → Prop) : Prop where
  refl : ∀ {unit}, good unit → leads unit unit
  trans : ∀ {first second third}, leads first second → leads second third → leads first third
  arrives : ∀ {unit after}, good unit → leads unit after → good after

theorem Onward.runUnless {good : UnitOfWork → Prop} {leads : UnitOfWork → UnitOfWork → Prop}
    (onward : Onward good leads) {calls : Callbacks σ} {forbidden : UnitOfWork → Operation → Bool}
    {allowed : Operation → Bool}
    (steps : ∀ {operation unit memory result after kept}, good unit → allowed operation = true →
      forbidden unit operation = false →
      perform calls operation unit memory = some ⟨result, after, kept⟩ → leads unit after)
    {program : Program σ α} (within : program.Within allowed) {unit after : UnitOfWork} {memory kept : σ}
    {result : Except Fault α} (holds : good unit)
    (ran : program.runUnless calls forbidden unit memory = some ⟨result, after, kept⟩) :
    leads unit after := by
  induction program generalizing unit memory with
  | done answer =>
    cases ran
    exact onward.refl holds
  | look next ih => exact ih unit memory (within unit memory) holds ran
  | keep memory next ih => exact ih within holds ran
  | perform operation next ih =>
    obtain ⟨clear, given, between, halfway, performed, ran⟩ := Program.runUnless_perform ran
    have first := steps holds within.1 clear performed
    exact onward.trans first (ih given (within.2 given) (onward.arrives holds first) ran)

theorem runUnless_below {calls others : Callbacks σ} (below : calls.Below others)
    (forbidden : UnitOfWork → Operation → Bool) (program : Program σ α) :
    (program.runUnless calls forbidden).Below (program.run others) := by
  induction program with
  | done answer => apply Action.Below.refl
  | look next ih => exact fun unit memory => ih unit memory unit memory
  | keep memory next ih => exact fun unit _ => ih unit memory
  | perform operation next ih =>
    intro unit memory outcome ran
    obtain ⟨-, result, after, kept, performed, ran⟩ := Program.runUnless_perform ran
    rw [Program.run_of_performed (perform_below below operation _ _ _ performed)]
    exact ih result after kept outcome ran

theorem Environment.guarded_below (environment : Environment σ)
    (forbids : List Announcement → UnitOfWork → Operation → Bool) (depth : Nat)
    (amid : List Announcement) :
    (environment.guarded forbids depth amid).Below (environment.callbacks depth) := by
  induction depth generalizing amid with
  | zero => exact ⟨fun _ _ => .of_none, fun _ _ => .of_none, fun _ _ _ => .of_none⟩
  | succ depth ih =>
    constructor <;> intros <;> exact (runUnless_below (ih _) _ _).bind_left _

theorem Program.runUnless_never (calls : Callbacks σ) (program : Program σ α) :
    program.runUnless calls (fun _ _ => false) = program.run calls := by
  induction program with
  | done answer => rfl
  | look next ih =>
    funext unit memory
    exact congrFun (congrFun (ih unit memory) unit) memory
  | keep memory next ih =>
    funext unit _
    exact congrFun (congrFun ih unit) memory
  | perform operation next ih =>
    rw [run_perform, ← funext ih]
    rfl

theorem Environment.guarded_never (environment : Environment σ) (depth : Nat)
    (amid : List Announcement) :
    environment.guarded (fun _ _ _ => false) depth amid = environment.callbacks depth := by
  induction depth generalizing amid with
  | zero => rfl
  | succ depth ih =>
    simp only [guarded, callbacks, Program.reply, ih, Program.runUnless_never]

end RelationalMapper.Cache
