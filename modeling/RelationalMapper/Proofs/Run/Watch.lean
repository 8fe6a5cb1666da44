import RelationalMapper.Proofs.Run.Mirror

/-!
Watched runs. A watched program also keeps every unit of work it comes through: where a listener or
a row source is called, and before and after each operation of any program. A watched run always has
an outcome, since calls that nest too deep are noted and refused; where the plain run has one as well,
it is the same. What leads from one unit of work to the next in every step leads along the whole way.
-/

set_option autoImplicit false

namespace RelationalMapper.Cache

variable {σ α β γ : Type}

/-- A memory, and the units of work that were passed, the latest last. -/
structure Watch (σ : Type) where
  memory : σ
  passed : List UnitOfWork

namespace Program

def noting (next : Program (Watch σ) α) : Program (Watch σ) α :=
  .look fun unit watch => .keep { watch with passed := watch.passed ++ [unit] } next

def watched : Program σ α → Program (Watch σ) α
  | .done answer => .done answer
  | .look next => .look fun unit watch => (next unit watch.memory).watched
  | .keep memory next => .look fun _ watch => .keep { watch with memory } next.watched
  | .perform operation next =>
    noting (.perform operation fun result => noting (next result).watched)

end Program

theorem Program.run_perform (calls : Callbacks σ) (operation : Operation)
    (next : Except Fault operation.Answer → Program σ α) :
    (Program.perform operation next).run calls =
      Action.attempt (RelationalMapper.Cache.perform calls operation) >>=
        fun result => (next result).run calls := by
  funext unit memory
  change _ = Action.next _ _ unit memory
  simp only [Program.run, Action.next, Action.attempt]
  cases RelationalMapper.Cache.perform calls operation unit memory <;> rfl

theorem Program.run_of_performed {α : Type} {calls : Callbacks σ} {operation : Operation}
    {next : Except Fault operation.Answer → Program σ α} {unit after : UnitOfWork} {memory kept : σ}
    {result : Except Fault operation.Answer}
    (performed : RelationalMapper.Cache.perform calls operation unit memory = some ⟨result, after, kept⟩) :
    (Program.perform operation next).run calls unit memory = (next result).run calls after kept := by
  simp only [Program.run, performed]

-- Takes note of a call that is nested too deep, and refuses it.
def Callbacks.refusing : Callbacks (Watch σ) where
  columnChanging _ _ := (Program.done (.error refusal)).noting.reply .unanswered
  rowDeleting _ _ := (Program.done (.error refusal)).noting.reply .unanswered
  fetch _ _ _ := (Program.done (.error refusal)).noting.reply .unanswered
where
  refusal : Fault := .refused .invalidOperation "calls are nested too deep"

def Environment.watched (environment : Environment σ) : Nat → Callbacks (Watch σ)
  | 0 => .refusing
  | depth + 1 =>
    { columnChanging := fun key change =>
        (environment.columnChanging key change).watched.noting.reply (environment.watched depth)
      rowDeleting := fun key deletion =>
        (environment.rowDeleting key deletion).watched.noting.reply (environment.watched depth)
      fetch := fun view command fetch =>
        (environment.fetch view command fetch).watched.noting.reply (environment.watched depth) }

def Outcome.unwatched (outcome : Outcome (Watch σ) α) : Outcome σ α :=
  ⟨outcome.result, outcome.unit, outcome.memory.memory⟩

def Watches (leads : UnitOfWork → UnitOfWork → Prop) (unit : UnitOfWork)
    (watched : Action (Watch σ) α) (plain : Action σ α) : Prop :=
  ∀ watch, ∃ outcome, watched unit watch = some outcome ∧
    (∀ ended, plain unit watch.memory = some ended → outcome.unwatched = ended) ∧
    ∃ passed, outcome.memory.passed = watch.passed ++ passed ∧
      (unit :: (passed ++ [outcome.unit])).Pairwise leads

structure Leading (good : UnitOfWork → Prop) (leads : UnitOfWork → UnitOfWork → Prop) : Prop where
  refl : ∀ {unit}, good unit → leads unit unit
  trans : ∀ {first second third}, leads first second → leads second third → leads first third
  arrives : ∀ {unit after}, leads unit after → good after
  attach : ∀ {unit after : UnitOfWork} {entity values row}, good unit →
    unit.attach entity values = .ok (row, after) → leads unit after
  begin : ∀ {unit after : UnitOfWork} {entity values row rest}, good unit →
    unit.beginInsert entity values = .ok ((row, rest), after) → leads unit after
  inserting : ∀ {unit : UnitOfWork} row, good unit → leads unit { unit with inserting := row }
  -- Anything may have happened between the announcement of a change and the change itself.
  write : ∀ {unit between after : UnitOfWork} {row column value change index}, good unit →
    unit.changeOf row column value = .ok (change, index) → leads unit between →
      between.applyChange row index value = .ok after → leads between after
  delete : ∀ {unit between after : UnitOfWork} {row deletion}, good unit →
    unit.deletionOf row = .ok deletion → leads unit between →
      between.applyDeletion row = .ok after → leads between after
  forget : ∀ {unit between after : UnitOfWork} {entity values row rest}, good unit →
    unit.beginInsert entity values = .ok ((row, rest), after) → leads after between →
      leads between (between.forget row)
  accept : ∀ {unit : UnitOfWork}, good unit → leads unit unit.accept
  followChange : ∀ {unit after : UnitOfWork} {id change}, good unit →
    unit.followChange id change = .ok after → leads unit after
  followDeletion : ∀ {unit after : UnitOfWork} {id deletion}, good unit →
    unit.followDeletion id deletion = .ok after → leads unit after
  openView : ∀ {unit after : UnitOfWork} {owner relation id}, good unit →
    unit.openView owner relation = .ok (id, after) → leads unit after
  completeLoad : ∀ {unit : UnitOfWork} {id view} members, good unit →
    unit.view id = .ok view → leads unit (unit.completeLoad id view members)
  invalidate : ∀ {unit : UnitOfWork} id, good unit → leads unit (unit.invalidate id)
  closeView : ∀ {unit : UnitOfWork} id, good unit → leads unit (unit.closeView id)
  subscribe : ∀ {unit : UnitOfWork} channel table listener, good unit →
    leads unit { unit with
      channels := (unit.channels.subscribe channel table (.listener listener)).2 }
  unsubscribe : ∀ {unit : UnitOfWork} id, good unit →
    leads unit { unit with channels := (unit.channels.unsubscribe id).2 }

def Passage (leads : UnitOfWork → UnitOfWork → Prop) (unit : UnitOfWork) (watch : Watch σ)
    (after : UnitOfWork) (kept : Watch σ) : Prop :=
  ∃ passed, kept.passed = watch.passed ++ passed ∧ (unit :: (passed ++ [after])).Pairwise leads

namespace Passage

variable {good : UnitOfWork → Prop} {leads : UnitOfWork → UnitOfWork → Prop}
  {unit between after : UnitOfWork} {watch halfway kept : Watch σ}

theorem led (passage : Passage leads unit watch after kept) : leads unit after := by
  obtain ⟨passed, -, ordered⟩ := passage
  exact List.rel_of_pairwise_cons ordered (by simp)

theorem of_led (led : leads unit after) : Passage leads unit watch after watch :=
  ⟨[], by simp, by simpa using led⟩

theorem trans (leading : Leading good leads) (first : Passage leads unit watch between halfway)
    (second : Passage leads between halfway after kept) : Passage leads unit watch after kept := by
  obtain ⟨passed, added, ordered⟩ := first
  obtain ⟨passed', added', ordered'⟩ := second
  refine ⟨passed ++ passed', by rw [added', added, List.append_assoc], ?_⟩
  -- Whatever comes before the middle leads to it, and the middle to whatever comes after it.
  rw [← List.cons_append, List.pairwise_append] at ordered
  rw [List.append_assoc, ← List.cons_append, List.pairwise_append]
  refine ⟨ordered.1, (List.pairwise_cons.mp ordered').2, ?_⟩
  intro early member late member'
  exact leading.trans (ordered.2.2 early member between (by simp))
    (List.rel_of_pairwise_cons ordered' member')

end Passage

def Watch.chart (good : UnitOfWork → Prop) (leads : UnitOfWork → UnitOfWork → Prop) : Chart (Watch σ) where
  good unit _ := good unit
  path := Passage leads
  ends := Passage leads
  begun _ _ _ := True
  awaited _ _ _ := True
  brings _ _ _ := True

namespace Leading

variable {good : UnitOfWork → Prop} {leads : UnitOfWork → UnitOfWork → Prop}
  (leading : Leading good leads) {unit after : UnitOfWork}

include leading

theorem charted : Charted (Watch.chart good leads : Chart (Watch σ)) where
  refl sound := .of_led (leading.refl sound)
  trans first second := first.trans leading second
  arrives passage := leading.arrives passage.led
  stop passage := passage
  finish first second := first.trans leading second
  begin sound _ begun := .of_led (leading.begin sound begun)
  inserting row sound := .of_led (leading.inserting row sound)
  write sound found passage applied := .of_led (leading.write sound found passage.led applied)
  delete sound found passage applied := .of_led (leading.delete sound found passage.led applied)
  forget sound begun passage := .of_led (leading.forget sound begun passage.led)
  followChange sound followed := .of_led (leading.followChange sound followed)
  followDeletion sound followed := .of_led (leading.followDeletion sound followed)
  awaits _ _ _ := trivial
  awaitsRows _ _ := trivial
  attach sound _ _ attached := .of_led (leading.attach sound attached)
  completeLoad members sound _ _ found := .of_led (leading.completeLoad members sound found)
  completeLast members sound _ _ found := .of_led (leading.completeLoad members sound found)

theorem alone {operation : Operation} {result : Except Fault operation.Answer} (sound : good unit)
    (yields : operation.Yields unit result after) : leads unit after := by
  cases yields with
  | attached attached => exact leading.attach sound attached
  | accepted => exact leading.accept sound
  | subscribed channel table key => exact leading.subscribe channel table key sound
  | unsubscribed id => exact leading.unsubscribe id sound
  | opened opened => exact leading.openView sound opened
  | invalidated id => exact leading.invalidate id sound
  | closed id => exact leading.closeView id sound
  | unattached | unopened => exact leading.refl sound

end Leading

namespace Watches

variable {good : UnitOfWork → Prop} {leads : UnitOfWork → UnitOfWork → Prop} {unit : UnitOfWork}

theorem iff_mirrors {watched : Action (Watch σ) α} {plain : Action σ α} :
    Watches leads unit watched plain ↔
      ∀ watch, watched.Mirrors Watch.memory plain unit watch fun _ => Passage leads unit watch := by
  constructor
  · intro watches watch
    obtain ⟨⟨result, after, kept⟩, ran, same, passage⟩ := watches watch
    exact ⟨result, after, kept, ran, fun ended done => (same ended done).symm, passage⟩
  · intro mirrors watch
    obtain ⟨result, after, kept, ran, same, passage⟩ := mirrors watch
    exact ⟨⟨result, after, kept⟩, ran, fun ended done => (same ended done).symm, passage⟩

theorem at_once (result : Except Fault α) {after : UnitOfWork} (led : leads unit after)
    {watched : Action (Watch σ) α} {plain : Action σ α}
    (watched_answer : ∀ watch, watched unit watch = some ⟨result, after, watch⟩)
    (plain_answer : ∀ memory, plain unit memory = some ⟨result, after, memory⟩) :
    Watches leads unit watched plain :=
  iff_mirrors.mpr fun watch => .at_once (.of_led led) (watched_answer watch) (plain_answer watch.memory)

theorem bind (leading : Leading good leads) {first : Action (Watch σ) α} {plainFirst : Action σ α}
    {rest : α → Action (Watch σ) β} {plainRest : α → Action σ β}
    (watches : Watches leads unit first plainFirst)
    (later : ∀ answer after, good after → leads unit after →
      Watches leads after (rest answer) (plainRest answer)) :
    Watches leads unit (first >>= rest) (plainFirst >>= plainRest) := by
  refine iff_mirrors.mpr fun watch => ?_
  refine (iff_mirrors.mp watches watch).bind (fun _ _ _ passage => passage) ?_
  intro answer after kept passage
  have led := passage.led
  exact (iff_mirrors.mp (later answer after (leading.arrives led) led) kept).imp
    fun _ _ _ later => passage.trans leading later

theorem attempt {action : Action (Watch σ) α} {plain : Action σ α}
    (watches : Watches leads unit action plain) :
    Watches leads unit action.attempt plain.attempt := by
  refine iff_mirrors.mpr fun watch => (iff_mirrors.mp watches watch).attempt.imp ?_
  rintro _ _ _ ⟨_, -, passage⟩
  exact passage

end Watches

structure Callbacks.WatchedBy (good : UnitOfWork → Prop) (leads : UnitOfWork → UnitOfWork → Prop)
    (watched : Callbacks (Watch σ)) (plain : Callbacks σ) : Prop where
  columnChanging : ∀ unit key change, good unit →
    Watches leads unit (watched.columnChanging key change) (plain.columnChanging key change)
  rowDeleting : ∀ unit key deletion, good unit →
    Watches leads unit (watched.rowDeleting key deletion) (plain.rowDeleting key deletion)
  fetch : ∀ unit view command fetch, good unit →
    Watches leads unit (watched.fetch view command fetch) (plain.fetch view command fetch)

theorem Callbacks.WatchedBy.mirrors {good : UnitOfWork → Prop} {leads : UnitOfWork → UnitOfWork → Prop}
    {watched : Callbacks (Watch σ)} {calls : Callbacks σ} (pair : watched.WatchedBy good leads calls) :
    watched.Mirrors Watch.memory (Watch.chart good leads) calls where
  columnChanging {unit watch} key change sound :=
    Watches.iff_mirrors.mp (pair.columnChanging unit key change sound) watch
  rowDeleting {unit watch} key deletion sound :=
    Watches.iff_mirrors.mp (pair.rowDeleting unit key deletion sound) watch
  fetch {unit watch id} command fetch sound _ :=
    (Watches.iff_mirrors.mp (pair.fetch unit id command fetch sound) watch).imp
      fun _ _ _ passage => ⟨passage, trivial, fun _ _ => trivial⟩

section

variable {good : UnitOfWork → Prop} {leads : UnitOfWork → UnitOfWork → Prop}
  (leading : Leading good leads) {watched : Callbacks (Watch σ)} {calls : Callbacks σ}
  (pair : watched.WatchedBy good leads calls) {unit : UnitOfWork} (sound : good unit)

include leading sound pair

theorem watches_perform (operation : Operation) :
    Watches leads unit (perform watched operation) (perform calls operation) := by
  cases calling : operation.callsOut with
  | true =>
    exact Watches.iff_mirrors.mpr fun watch =>
      mirrors_perform leading.charted sound pair.mirrors calling trivial
  | false =>
    obtain ⟨result, after, yields⟩ := Operation.exists_yields calling unit
    exact .at_once result (leading.alone sound yields) (yields.performed watched) (yields.performed calls)

omit pair in
theorem watches_noting {program : Program (Watch σ) α} {plain : Action σ α}
    (watches : Watches leads unit (program.run watched) plain) :
    Watches leads unit (program.noting.run watched) plain := by
  intro watch
  obtain ⟨outcome, ran, same, passed, kept, ordered⟩ :=
    watches { watch with passed := watch.passed ++ [unit] }
  refine ⟨outcome, ran, same, unit :: passed, by rw [kept, List.append_assoc]; rfl, ?_⟩
  refine List.pairwise_cons.mpr ⟨?_, ordered⟩
  intro late member
  rcases List.mem_cons.mp member with here | later
  · rw [here]
    exact leading.refl sound
  · exact List.rel_of_pairwise_cons ordered later

theorem watches_run (program : Program σ α) :
    Watches leads unit (program.watched.run watched) (program.run calls) := by
  induction program generalizing unit with
  | done answer => exact .at_once (.ok answer) (leading.refl sound) (fun _ => rfl) fun _ => rfl
  | look next ih => exact fun watch => ih unit watch.memory sound watch
  | keep memory next ih => exact fun watch => ih sound { watch with memory }
  | perform operation next ih =>
    refine watches_noting leading sound ?_
    rw [Program.run_perform, Program.run_perform]
    exact .bind leading (.attempt (watches_perform leading pair sound operation))
      fun result _ sound _ => watches_noting leading sound (ih result sound)

theorem watches_reply (program : Program σ (Except Fault α)) :
    Watches leads unit (program.watched.noting.reply watched) (program.reply calls) :=
  .bind leading (watches_noting leading sound (watches_run leading pair sound program))
    fun result _ sound _ => .at_once result (leading.refl sound) (fun _ => rfl) fun _ => rfl

end

variable {good : UnitOfWork → Prop} {leads : UnitOfWork → UnitOfWork → Prop}

theorem watches_refusal (leading : Leading good leads) {unit : UnitOfWork} (sound : good unit)
    (fault : Fault) :
    Watches (σ := σ) (α := α) leads unit
      ((Program.done (.error fault)).noting.reply .unanswered) fun _ _ => none :=
  fun watch => ⟨_, rfl, fun _ done => (nomatch done), [unit], rfl, by simpa using leading.refl sound⟩

theorem Environment.watchedBy (leading : Leading good leads) (environment : Environment σ)
    (depth : Nat) : (environment.watched depth).WatchedBy good leads (environment.callbacks depth) := by
  induction depth with
  | zero =>
    exact ⟨fun _ _ _ sound => watches_refusal leading sound _,
      fun _ _ _ sound => watches_refusal leading sound _,
      fun _ _ _ _ sound => watches_refusal leading sound _⟩
  | succ depth ih =>
    exact ⟨fun _ _ _ sound => watches_reply leading ih sound _,
      fun _ _ _ sound => watches_reply leading ih sound _,
      fun _ _ _ _ sound => watches_reply leading ih sound _⟩

theorem Environment.watches (leading : Leading good leads) (environment : Environment σ)
    (depth : Nat) (program : Program σ α) {unit : UnitOfWork} (sound : good unit) :
    Watches leads unit (program.watched.run (environment.watched depth))
      (program.run (environment.callbacks depth)) :=
  watches_run leading (environment.watchedBy leading depth) sound program

section

variable {good : UnitOfWork → Prop} {leads : UnitOfWork → UnitOfWork → Prop}
  (leading : Leading good leads) {environment : Environment σ} {depth : Nat} {unit after : UnitOfWork}
  {memory kept : σ}

include leading

theorem Leading.fetched (sound : good unit) {view : ViewId} {command : Sql.Command} {fetch : Fetch}
    {result : Except Fault (List (List Value))}
    (ran : (environment.callbacks depth).fetch view command fetch unit memory =
      some ⟨result, after, kept⟩) : leads unit after := by
  obtain ⟨outcome, -, same, passage⟩ :=
    (environment.watchedBy leading depth).fetch unit view command fetch sound ⟨memory, []⟩
  cases same _ ran
  exact (show Passage leads unit ⟨memory, []⟩ outcome.unit outcome.memory from passage).led

theorem Leading.performed (sound : good unit) {operation : Operation}
    {result : Except Fault operation.Answer}
    (ran : perform (environment.callbacks depth) operation unit memory = some ⟨result, after, kept⟩) :
    leads unit after := by
  obtain ⟨outcome, -, same, passage⟩ :=
    watches_perform leading (environment.watchedBy leading depth) sound operation ⟨memory, []⟩
  cases same _ ran
  exact (show Passage leads unit ⟨memory, []⟩ outcome.unit outcome.memory from passage).led

end

theorem Environment.throughout (leading : Leading good leads) (environment : Environment σ)
    (depth : Nat) (program : Program σ α) {unit : UnitOfWork} (sound : good unit) (memory : σ) :
    ∃ outcome,
      program.watched.run (environment.watched depth) unit ⟨memory, []⟩ = some outcome ∧
      (∀ ended, program.run (environment.callbacks depth) unit memory = some ended →
        outcome.unwatched = ended) ∧
      ∀ point ∈ outcome.memory.passed ++ [outcome.unit], good point := by
  obtain ⟨outcome, ran, same, passed, kept, ordered⟩ :=
    environment.watches leading depth program sound ⟨memory, []⟩
  refine ⟨outcome, ran, same, ?_⟩
  intro point member
  rw [kept, List.nil_append] at member
  exact leading.arrives (List.rel_of_pairwise_cons ordered member)

end RelationalMapper.Cache
