import Mathlib.Logic.Relation
import RelationalMapper.Proofs.Run.Integrity
import RelationalMapper.Proofs.Run.Trace

set_option autoImplicit false

open Relation (ReflTransGen)

namespace RelationalMapper.Cache

variable {σ α : Type}

/-- Where a row stands. One that is forgotten does not come again, since no number is given twice. -/
inductive Standing where
  | ahead
  | tracked (record : RowRecord)
  | forgotten

def RowStore.standing (store : RowStore) (row : RowId) : Standing :=
  match store.records.get? row with
  | some record => .tracked record
  | none => if row.number < store.nextNumber then .forgotten else .ahead

def Point.standing (point : Point) (row : RowId) : Standing :=
  point.unit.store.standing row

namespace Moment

def brought : Moment → List (List Value)
  | .before (.attach _ values) => [values]
  | .answered _ (.ok fetched) => fetched
  | _ => []

def arriving (moment : Moment) (model : Model) (record : RowRecord) : Option (List Value) :=
  moment.brought.find? fun values =>
    (model.entity record.entity >>= (·.identityOf values)).toOption = some record.identity

def inserts : Moment → Bool
  | .before (.insert ..) => true
  | _ => false

def accepts : Moment → Bool
  | .before .accept => true
  | _ => false

def Quiet (moment : Moment) : Prop :=
  ∀ operation, moment = .before operation → operation.callsOut = true

end Moment

inductive Standing.Turns (model : Model) (moment : Moment) : Standing → Standing → Prop
  | inserted (record : RowRecord) : moment.inserts = true → record.state = .fresh →
    record.original = none → Turns model moment .ahead (.tracked record)
  | attached (record : RowRecord) : moment.arriving model record = some record.current →
    record.state = .unchanged → record.original = some record.current →
    Turns model moment .ahead (.tracked record)
  | written (record : RowRecord) (index : Nat) (value : Value) : record.state.isLive = true →
    Turns model moment (.tracked record) (.tracked (record.write index value))
  | deleted (record : RowRecord) : record.state.isLive = true →
    Turns model moment (.tracked record) (.tracked { record with state := record.deletedState })
  | settled (record : RowRecord) : moment.accepts = true → record.state.isLive = true →
    Turns model moment (.tracked record) (.tracked record.settled)
  | forgotten (record : RowRecord) : Turns model moment (.tracked record) .forgotten

def RowStore.Turns (model : Model) (moment : Moment) (before after : RowStore) : Prop :=
  ∀ row, ReflTransGen (Standing.Turns model moment) (before.standing row) (after.standing row)

namespace RowStore

variable {model : Model} {moment : Moment} {store between after : RowStore} {row : RowId}
  {record : RowRecord}

theorem standing_eq_tracked : store.standing row = .tracked record ↔
    store.records.get? row = some record := by
  unfold standing
  cases store.records.get? row with
  | some held => simp
  | none =>
    simp only [reduceCtorEq, iff_false]
    split <;> simp

theorem standing_eq_ahead : store.standing row = .ahead ↔
    store.records.get? row = none ∧ store.nextNumber ≤ row.number := by
  unfold standing
  cases store.records.get? row with
  | some held => simp
  | none => split <;> simp_all

theorem standing_of_same (records : after.records.get? row = store.records.get? row)
    (numbers : after.nextNumber = store.nextNumber) : after.standing row = store.standing row := by
  unfold standing
  rw [records, numbers]

namespace Turns

theorem refl (store : RowStore) : store.Turns model moment store :=
  fun _ => .refl

theorem trans (first : Turns model moment store between) (second : Turns model moment between after) :
    Turns model moment store after :=
  fun row => (first row).trans (second row)

theorem of_one (row : RowId) (turn : Standing.Turns model moment (store.standing row) (after.standing row))
    (others : ∀ other, row ≠ other → after.standing other = store.standing other) :
    store.Turns model moment after := by
  intro other
  by_cases here : row = other
  · subst here
    exact .single turn
  · rw [others other here]

theorem register (formed : store.WellFormed model)
    (turn : Standing.Turns model moment .ahead (.tracked record)) :
    store.Turns model moment (store.register record).2 := by
  refine of_one ⟨store.nextNumber⟩ ?_ fun other elsewhere => ?_
  · rw [standing_eq_ahead.mpr ⟨formed.next_untracked, Nat.le_refl _⟩,
      standing_eq_tracked.mpr (by rw [records_register, if_pos rfl])]
    exact turn
  · have later : other.number < store.nextNumber + 1 ↔ other.number < store.nextNumber := by
      have : other.number ≠ store.nextNumber := fun same => elsewhere (by rw [← same])
      omega
    change (match (store.register record).2.records.get? other with
      | some record => Standing.tracked record
      | none => if other.number < store.nextNumber + 1 then .forgotten else .ahead) = _
    rw [records_register, if_neg elsewhere, if_congr later rfl rfl]
    rfl

theorem write (index : Nat) (value : Value) (held : store.records.get? row = some record)
    (live : record.state.isLive = true) : store.Turns model moment (store.write row index value) := by
  refine of_one row ?_ fun other elsewhere =>
    standing_of_same (by rw [records_write, if_neg elsewhere]) rfl
  rw [standing_eq_tracked.mpr held,
    standing_eq_tracked.mpr (by rw [records_write, if_pos rfl, held]; rfl)]
  exact .written record index value live

theorem delete (held : store.records.get? row = some record) (live : record.state.isLive = true) :
    store.Turns model moment (store.delete row record) := by
  refine of_one row ?_ fun other elsewhere =>
    standing_of_same (by rw [records_delete, if_neg elsewhere]) (nextNumber_delete ..)
  rw [standing_eq_tracked.mpr held, standing_eq_tracked.mpr (by rw [records_delete, if_pos rfl])]
  exact .deleted record live

theorem forget (formed : store.WellFormed model) (row : RowId) :
    store.Turns model moment (store.forget row) := by
  cases held : store.records.get? row with
  | none =>
    rw [RowStore.forget, held]
    exact refl store
  | some record =>
    refine of_one row ?_ fun other elsewhere =>
      standing_of_same (by rw [records_forget, if_neg elsewhere]) (nextNumber_forget ..)
    have gone : (store.forget row).standing row = .forgotten := by
      rw [standing, records_forget, if_pos rfl, nextNumber_forget]
      exact if_pos (formed.numbered row record held)
    rw [standing_eq_tracked.mpr held, gone]
    exact .forgotten record

theorem accept (formed : store.WellFormed model) (accepts : moment.accepts = true) :
    store.Turns model moment store.accept := by
  have numbers : store.accept.nextNumber = store.nextNumber := nextNumber_accept store
  intro row
  cases held : store.records.get? row with
  | none =>
    rw [standing_of_same (by rw [records_accept, held]; rfl) numbers]
  | some record =>
    rw [standing_eq_tracked.mpr held]
    cases live : record.state.isLive with
    | true =>
      rw [standing_eq_tracked.mpr (by rw [records_accept, held, Option.bind_some, if_pos live])]
      exact .single (.settled record accepts live)
    | false =>
      have gone : store.accept.standing row = .forgotten := by
        rw [standing, records_accept, held, Option.bind_some, live, numbers]
        exact if_pos (formed.numbered row record held)
      rw [gone]
      exact .single (.forgotten record)

end Turns

end RowStore

structure Glides (model : Model) (moment : Moment) (before after : UnitOfWork) : Prop where
  led : after.model = model ∧ after.store.WellFormed model
  turns : before.store.Turns model moment after.store

structure Point.Hops (model : Model) (before after : Point) : Prop extends
    Glides model before.moment before.unit after.unit where
  performed : ∀ operation, before.moment = .before operation → operation.callsOut = false →
    ∃ result, after.moment = .after operation result ∧
      ∀ {σ : Type} (calls : Callbacks σ) (memory : σ),
        perform calls operation before.unit memory = some ⟨result, after.unit, memory⟩

def Along (model : Model) : Point → List Point → UnitOfWork → Prop
  | start, [], after => start.moment.Quiet ∧ Glides model start.moment start.unit after
  | start, next :: rest, after => start.Hops model next ∧ Along model next rest after

section

variable {model : Model} {start next : Point} {between after : UnitOfWork} {first second : List Point}

theorem Glides.trans {moment : Moment} {unit : UnitOfWork} (first : Glides model moment unit between)
    (second : Glides model moment between after) : Glides model moment unit after :=
  ⟨second.led, first.turns.trans second.turns⟩

theorem Glides.hops (glides : Glides model start.moment start.unit next.unit)
    (quiet : start.moment.Quiet) : start.Hops model next := by
  refine ⟨glides, ?_⟩
  intro operation same alone
  rw [quiet operation same] at alone
  cases alone

theorem Along.of_glides (quiet : start.moment.Quiet)
    (glides : Glides model start.moment start.unit between)
    (along : Along model ⟨start.moment, between⟩ second after) : Along model start second after := by
  cases second with
  | nil => exact ⟨quiet, glides.trans along.2⟩
  | cons next rest => exact ⟨(glides.trans along.1.toGlides).hops quiet, along.2⟩

theorem Along.append (along : Along model start first between)
    (later : Along model ⟨(first.getLast?.map (·.moment)).getD start.moment, between⟩ second after) :
    Along model start (first ++ second) after := by
  induction first generalizing start with
  | nil => exact .of_glides along.1 along.2 later
  | cons next rest ih =>
    have last : (((next :: rest).getLast?).map (·.moment)).getD start.moment =
        ((rest.getLast?).map (·.moment)).getD next.moment := by
      rw [List.getLast?_cons]
      cases rest.getLast? <;> rfl
    rw [last] at later
    exact ⟨along.1, ih along.2 later⟩

-- The end of the run is one more point.
theorem Along.hops (along : Along model start first after) :
    (start :: (first ++ [⟨.outside, after⟩])).IsChain (Point.Hops model) := by
  induction first generalizing start with
  | nil => exact List.isChain_cons_cons.mpr ⟨along.2.hops along.1, .singleton _⟩
  | cons next rest ih => exact List.isChain_cons_cons.mpr ⟨along.1, ih along.2⟩

end

structure Trace.Sound (model : Model) (unit : UnitOfWork) (trace : Trace σ) : Prop where
  led : unit.model = model ∧ unit.store.WellFormed model
  quiet : trace.moment.Quiet

structure Trace.Course (model : Model) (unit : UnitOfWork) (trace : Trace σ) (after : UnitOfWork)
    (kept : Trace σ) : Prop where
  sound : Sound model after kept
  succeeds : after.store.Succeeds unit.store
  passed : ∃ points, kept.points = trace.points ++ points ∧
    Along model ⟨trace.moment, unit⟩ points after

namespace Trace

variable {model : Model} {unit between after : UnitOfWork} {trace halfway kept : Trace σ}

theorem moment_append {points : List Point} (appended : kept.points = trace.points ++ points) :
    kept.moment = (points.getLast?.map (·.moment)).getD trace.moment := by
  rw [Trace.moment, appended, List.getLast?_append, Trace.moment]
  cases points.getLast? <;> rfl

namespace Course

theorem trans (first : Course model unit trace between halfway)
    (second : Course model between halfway after kept) : Course model unit trace after kept := by
  refine ⟨second.sound, second.succeeds.trans first.succeeds, ?_⟩
  obtain ⟨points, appended, along⟩ := first.passed
  obtain ⟨later, appended', along'⟩ := second.passed
  rw [moment_append appended] at along'
  exact ⟨points ++ later, by rw [appended', appended, List.append_assoc], along.append along'⟩

theorem of_turns (sound : Sound model unit trace) (same : after.model = unit.model)
    (led : after.store.WellFormed model ∧ after.store.Succeeds unit.store)
    (turns : unit.store.Turns model trace.moment after.store) : Course model unit trace after trace :=
  have led' := ⟨same.trans sound.led.1, led.1⟩
  ⟨⟨led', sound.quiet⟩, led.2, [], by simp, sound.quiet, led', turns⟩

theorem still (sound : Sound model unit trace) (same : after.model = unit.model)
    (store : after.store = unit.store) : Course model unit trace after trace := by
  refine of_turns sound same ?_ ?_
  · rw [store]
    exact ⟨sound.led.2, .refl _⟩
  · rw [store]
    exact .refl _

theorem remember (sound : Sound model unit trace) (memory : σ) :
    Course model unit trace unit { trace with memory } :=
  have passed := (still sound rfl rfl).passed
  ⟨⟨sound.led, sound.quiet⟩, .refl _, passed⟩

theorem note {moment : Moment} (sound : Sound model unit trace) (quiet : moment.Quiet) :
    Course model unit trace unit (trace.note moment unit) := by
  have still : Glides model trace.moment unit unit := ⟨sound.led, .refl _⟩
  exact ⟨⟨sound.led, by rwa [moment_note]⟩, .refl _, [⟨moment, unit⟩], rfl, still.hops sound.quiet,
    quiet, sound.led, .refl _⟩

end Course

-- A row that comes in has the values of the first that were brought under its identity.
theorem arriving_of_attach {name : String} {values : List Value} {row : RowId} {moment : Moment}
    (sound : unit.model = model ∧ unit.store.WellFormed model)
    (earlier later : List (List Value)) (brought : moment.brought = earlier ++ values :: later)
    (admitted : ∀ other ∈ earlier, unit.Admitted name other)
    (attached : unit.attach name values = .ok (row, after)) :
    unit.store.Turns model moment after.store := by
  obtain ⟨rfl, formed⟩ := sound
  obtain ⟨entity, identity, known, -, own, ⟨-, rfl⟩ | ⟨free, -, rfl⟩⟩ :=
    UnitOfWork.attach_eq_ok.mp attached
  · exact .refl _
  refine .register formed (.attached _ ?_ rfl rfl)
  have named := Model.entity_self known
  have passed : ∀ other ∈ earlier, entity.identityOf other ≠ .ok identity := by
    intro other member same
    obtain ⟨entity', identity', known', own', resolved⟩ := admitted other member
    cases known.symm.trans known'
    cases same.symm.trans own'
    simp [free] at resolved
  have skipped : earlier.find? (fun values =>
      (unit.model.entity entity.name >>= (·.identityOf values)).toOption = some identity) = none := by
    rw [List.find?_eq_none]
    intro other member
    have different := passed other member
    rw [named]
    change ¬ decide ((entity.identityOf other).toOption = some identity) = true
    cases found : entity.identityOf other with
    | error fault => simp [Except.toOption]
    | ok identity' =>
      rw [found] at different
      simpa [Except.toOption] using different
  rw [Moment.arriving, brought, List.find?_append, skipped, Option.none_or]
  refine List.find?_cons_of_pos ?_
  rw [named]
  change decide ((entity.identityOf values).toOption = some identity) = true
  rw [own]
  exact decide_eq_true rfl

theorem Course.alone {operation : Operation} {result : Except Fault operation.Answer}
    (sound : Sound model unit trace) (yields : operation.Yields unit result after) :
    Course model unit trace after
      ((trace.note (.before operation) unit).note (.after operation result) after) := by
  obtain ⟨rfl, formed⟩ := sound.led
  have leading := (wellFormed_evolving unit.model).leading
  have same : after.model = unit.model ∧ after.store.WellFormed unit.model :=
    leading.arrives (leading.alone sound.led yields)
  -- Only two of the operations act on the rows.
  obtain ⟨succeeds, turns⟩ : after.store.Succeeds unit.store ∧
      unit.store.Turns unit.model (.before operation) after.store := by
    cases yields with
    | attached attached =>
      exact ⟨(leading.attach sound.led attached).2.2,
        arriving_of_attach sound.led [] [] rfl (by simp) attached⟩
    | accepted => exact ⟨(leading.accept sound.led).2.2, .accept formed rfl⟩
    | opened opened =>
      obtain ⟨-, -, -, -, -, -, -, -, rfl⟩ := UnitOfWork.openView_eq_ok.mp opened
      exact ⟨.refl _, .refl _⟩
    | invalidated id =>
      rw [unit.store_invalidate id]
      exact ⟨.refl _, .refl _⟩
    | closed id =>
      rw [unit.store_closeView id]
      exact ⟨.refl _, .refl _⟩
    | _ => exact ⟨.refl _, .refl _⟩
  have still : Glides unit.model trace.moment unit unit := ⟨sound.led, .refl _⟩
  refine ⟨⟨same, by rw [moment_note]; rintro _ ⟨⟩⟩, succeeds,
    [⟨.before operation, unit⟩, ⟨.after operation result, after⟩], by simp, still.hops sound.quiet,
    ⟨⟨same, turns⟩, ?_⟩, by rintro _ ⟨⟩, same, .refl _⟩
  rintro _ ⟨⟩ -
  exact ⟨result, rfl, yields.performed⟩

end Trace

theorem tracing_course (model : Model) :
    Tracing (σ := σ) (Trace.Sound model) (Trace.Course model) (Trace.Course model)
      fun _ _ _ => True where
  charted := {
    refl := fun sound => .still sound rfl rfl
    trans := .trans
    arrives := (·.sound)
    stop := id
    finish := .trans
    begin := by
      intro unit after trace entity values row rest sound started begun
      obtain ⟨rfl, formed⟩ := sound.led
      obtain ⟨entity, arranged, identity, known, -, own, free, rfl, -, -, same⟩ :=
        UnitOfWork.beginInsert_eq_ok.mp begun
      have led := (wellFormed_evolving unit.model).leading.begin sound.led begun
      refine .of_turns sound led.1 led.2 ?_
      rw [same]
      exact .register formed (.inserted _ (by rw [started.moment]; rfl) rfl rfl)
    inserting := fun _ sound => .still sound rfl rfl
    write := by
      intro unit between after trace halfway row column value change index sound found course applied
      have led := (wellFormed_evolving model).leading.write sound.led found
        ⟨course.sound.led.1, course.sound.led.2, course.succeeds⟩ applied
      obtain ⟨⟨record, held, live⟩, rfl⟩ := UnitOfWork.applyChange_eq_ok.mp applied
      exact .of_turns course.sound rfl led.2 (.write index value held live)
    delete := by
      intro unit between after trace halfway row deletion sound found course applied
      have led := (wellFormed_evolving model).leading.delete sound.led found
        ⟨course.sound.led.1, course.sound.led.2, course.succeeds⟩ applied
      obtain ⟨record, held, rfl⟩ := UnitOfWork.applyDeletion_eq_ok.mp applied
      by_cases live : record.state.isLive = true
      · rw [if_pos live] at led ⊢
        exact .of_turns course.sound rfl led.2 (.delete held live)
      · rw [if_neg live]
        exact .still course.sound rfl rfl
    forget := by
      intro unit between after trace halfway entity values row rest sound begun course
      have led := (wellFormed_evolving model).leading.forget sound.led begun
        ⟨course.sound.led.1, course.sound.led.2, course.succeeds⟩
      exact .of_turns course.sound rfl led.2 (.forget course.sound.led.2 row)
    followChange := by
      intro unit after trace id change sound followed
      obtain ⟨views, rfl⟩ := UnitOfWork.followChange_eq_ok followed
      exact .still sound rfl rfl
    followDeletion := by
      intro unit after trace id deletion sound followed
      obtain ⟨views, rfl⟩ := UnitOfWork.followDeletion_eq_ok followed
      exact .still sound rfl rfl
    awaits := fun _ _ _ => trivial
    awaitsRows := fun _ _ => trivial
    attach := by
      intro unit after trace id name earlier values later row sound brings admitted attached
      obtain ⟨rfl, formed⟩ := sound.led
      have led := (wellFormed_evolving unit.model).leading.attach sound.led attached
      refine .of_turns sound led.1 led.2 ?_
      exact Trace.arriving_of_attach sound.led earlier later (by rw [brings]; rfl) admitted attached
    completeLoad := fun _ sound _ _ _ => .still sound rfl rfl
    completeLast := fun _ sound _ _ _ => .still sound rfl rfl }
  keep memory sound := .remember sound memory
  told sound := .note sound (by rintro _ ⟨⟩)
  before sound calling := .note sound (by rintro _ ⟨⟩; exact calling)
  after _ _ course := course.trans (.note course.sound (by rintro _ ⟨⟩))
  alone sound yields := .alone sound yields
  asked sound _ := (Trace.Course.note sound (by rintro _ ⟨⟩)).sound
  answered result sound _ course :=
    ⟨((Trace.Course.note sound (by rintro _ ⟨⟩)).trans course).trans
      (.note course.sound (by rintro _ ⟨⟩)), trivial⟩

/-- All points of a run, with where it has started and where it has ended. -/
def Outcome.course (start : UnitOfWork) (outcome : Outcome (Trace σ) α) : List Point :=
  ⟨.outside, start⟩ :: (outcome.memory.points ++ [⟨.outside, outcome.unit⟩])

theorem traced_hops (model : Model) (settings : Settings) (environment : Environment σ) (depth : Nat)
    (program : Program σ α) (memory : σ) :
    ∃ outcome,
      program.traced.run (environment.traced depth) (.new model settings) ⟨memory, []⟩ =
        some outcome ∧
      (∀ ended, program.run (environment.callbacks depth) (.new model settings) memory =
        some ended → outcome.untraced = ended) ∧
      (outcome.course (.new model settings)).IsChain (Point.Hops model) := by
  have tracing := tracing_course (σ := σ) model
  have sound : Trace.Sound model (.new model settings) (⟨memory, []⟩ : Trace σ) :=
    ⟨UnitOfWork.new_wellFormed model settings, by rintro _ ⟨⟩⟩
  obtain ⟨result, after, kept, ran, same, course⟩ :=
    tracing.run (tracing.environment environment depth) program sound
  obtain ⟨points, passed, along⟩ := course.passed
  refine ⟨⟨result, after, kept⟩, ran, fun ended done => (same ended done).symm, ?_⟩
  rw [Outcome.course, passed]
  exact along.hops

end RelationalMapper.Cache
