import Mathlib.Data.List.Chain
import Mathlib.Data.List.Induction
import RelationalMapper.Proofs.Run.Turn
import RelationalMapper.Proofs.View.Enrolment
import RelationalMapper.Proofs.View.Refusal

set_option autoImplicit false

namespace RelationalMapper.Cache

variable {σ α : Type}

namespace Moment

def enrol (held : List Enrolment) : Moment → List Enrolment
  | .after (.subscribe channel table _) (.ok id) => held ++ [⟨id, channel, table⟩]
  | .after (.unsubscribe id) _ => held.filter (·.id ≠ id)
  | _ => held

def releases : Moment → Option ViewId
  | .after (.invalidate id) _ | .after (.close id) _ => some id
  | _ => none

def asks : Moment → Bool
  | .asked _ => true
  | _ => false

def Silent (moment : Moment) : Prop :=
  ∀ operation result, moment = .after operation result → operation.callsOut = true

variable {moment : Moment}

theorem enrol_of_silent (silent : moment.Silent) (held : List Enrolment) : moment.enrol held = held := by
  cases moment with
  | after operation result =>
    have calling := silent operation result rfl
    cases operation <;> first | rfl | cases calling
  | _ => rfl

theorem releases_of_silent (silent : moment.Silent) : moment.releases = none := by
  cases moment with
  | after operation result =>
    have calling := silent operation result rfl
    cases operation <;> first | rfl | cases calling
  | _ => rfl

end Moment

/-- The subscriptions that listeners were given at these points, but for those cancelled since. -/
def enrolments (points : List Point) : List Enrolment :=
  points.foldl (fun held point => point.moment.enrol held) []

@[simp] theorem enrolments_concat (points : List Point) (point : Point) :
    enrolments (points ++ [point]) = point.moment.enrol (enrolments points) := by
  simp [enrolments]

/-- A row source has not left loaded the view that it was asked for, and a subscription that is to be
cancelled is not a view's own. -/
def Point.fair (point : Point) : Bool :=
  match point.moment with
  | .answered id _ => (point.unit.members? id).isNone
  | .before operation => !point.unit.cutsOff operation
  | _ => true

def Fair (points : List Point) : Prop :=
  ∀ point ∈ points, point.fair = true

namespace Point

variable {point : Point} {unit after : UnitOfWork} {late : ViewId → Prop} {held : List Enrolment}

structure Leads (point : Point) (unit : UnitOfWork) (late : ViewId → Prop) : Prop where
  sourced : ∀ id, point.unit.members? id = none → unit.members? id ≠ none →
    (∃ fetched, point.moment = .answered id (.ok fetched)) ∨ point.unit.Unasked id ∨ late id
  opened : point.unit.nextView ≤ unit.nextView
  gone : ∀ id : ViewId, id.number < point.unit.nextView → point.unit.views.get? id = none →
    unit.views.get? id = none

namespace Leads

theorem of_subsides (subsides : unit.Subsides point.unit) : point.Leads unit late where
  sourced id unloaded loaded := absurd (subsides.unloaded id unloaded) loaded
  opened := subsides.opened
  gone := subsides.gone

theorem refl (point : Point) : point.Leads point.unit late :=
  of_subsides (.of_views rfl rfl)

theorem subsides (leads : point.Leads unit late) (subsides : after.Subsides unit) :
    point.Leads after late where
  sourced id unloaded loaded := leads.sourced id unloaded (mt (subsides.unloaded id) loaded)
  opened := Nat.le_trans leads.opened subsides.opened
  gone id early absent :=
    subsides.gone id (Nat.lt_of_lt_of_le early leads.opened) (leads.gone id early absent)

theorem weaken {wider : ViewId → Prop} (leads : point.Leads unit late)
    (implied : ∀ id, late id → wider id) : point.Leads unit wider where
  sourced id unloaded loaded := (leads.sourced id unloaded loaded).imp_right (Or.imp_right (implied id))
  opened := leads.opened
  gone := leads.gone

theorem completeLoad {id : ViewId} {view : RelationView} (leads : point.Leads unit late)
    (found : unit.views.get? id = some view) (members : List ObjectIdentity)
    (source : (∃ fetched, point.moment = .answered id (.ok fetched)) ∨ point.unit.Unasked id ∨ late id) :
    point.Leads (unit.completeLoad id view members) late where
  sourced other unloaded loaded := by
    rw [UnitOfWork.members?_completeLoad] at loaded
    split at loaded
    next here => exact here ▸ source
    next => exact leads.sourced other unloaded loaded
  opened := leads.opened
  gone other early absent := by
    have still := leads.gone other early absent
    rw [UnitOfWork.completeLoad, Assoc.get?_insert, if_neg, still]
    rintro rfl
    cases found.symm.trans still

end Leads

structure Settled (held : List Enrolment) (point : Point) : Prop where
  enrols : point.unit.Enrols (point.moment.enrol held)
  cancelled : ∀ id result, point.moment = .after (.unsubscribe id) result →
    result = .ok (decide (id ∈ held.map (·.id)))
  released : ∀ id, point.moment.releases = some id → point.unit.members? id = none
  closed : ∀ id result, point.moment = .after (.close id) result → point.unit.views.get? id = none

theorem Settled.of_enrols {moment : Moment} (enrols : unit.Enrols (moment.enrol held))
    (cancels : ∀ id result, moment ≠ .after (.unsubscribe id) result) (releases : moment.releases = none) :
    Settled held ⟨moment, unit⟩ where
  enrols := enrols
  cancelled id result same := absurd same (cancels id result)
  released id released := by simp [releases] at released
  closed id result same := by simp [show moment = _ from same, Moment.releases] at releases

theorem Settled.of_silent {moment : Moment} (silent : moment.Silent) (enrols : unit.Enrols held) :
    Settled held ⟨moment, unit⟩ := by
  refine .of_enrols ?_ ?_ (Moment.releases_of_silent silent)
  · rwa [Moment.enrol_of_silent silent]
  · intro id result same
    cases silent _ _ same

theorem Settled.alone {operation : Operation} {result : Except Fault operation.Answer}
    (enrols : unit.Enrols held) (kept : unit.cutsOff operation = false)
    (yields : operation.Yields unit result after) :
    Settled held ⟨.after operation result, after⟩ ∧ after.Subsides unit := by
  cases yields with
  | attached attached =>
    have steady : after.Steady unit := by
      obtain ⟨_, _, -, -, -, ⟨-, rfl⟩ | ⟨-, -, rfl⟩⟩ := UnitOfWork.attach_eq_ok.mp attached
      · exact .of_same rfl rfl rfl
      · exact .of_same rfl rfl rfl
    exact ⟨.of_enrols (enrols.steady steady) (by rintro _ _ ⟨⟩) rfl, .of_steady steady⟩
  | unattached | unopened =>
    exact ⟨.of_enrols enrols (by rintro _ _ ⟨⟩) rfl, .of_views rfl rfl⟩
  | accepted =>
    have steady : unit.accept.Steady unit := .of_same rfl rfl rfl
    exact ⟨.of_enrols (enrols.steady steady) (by rintro _ _ ⟨⟩) rfl, .of_steady steady⟩
  | opened opened =>
    exact ⟨.of_enrols (enrols.openView opened) (by rintro _ _ ⟨⟩) rfl, .openView opened⟩
  | subscribed channel table key =>
    exact ⟨.of_enrols (enrols.subscribe channel table key) (by rintro _ _ ⟨⟩) rfl, .of_views rfl rfl⟩
  | unsubscribed id =>
    refine ⟨⟨enrols.unsubscribe kept, ?_, by rintro _ ⟨⟩, by rintro _ _ ⟨⟩⟩, .of_views rfl rfl⟩
    rintro _ _ ⟨⟩
    exact congrArg Except.ok (enrols.cancels kept)
  | invalidated id =>
    obtain ⟨subsides, unloaded⟩ := UnitOfWork.Subsides.invalidate unit id
    refine ⟨⟨enrols.invalidate id, by rintro _ _ ⟨⟩, ?_, by rintro _ _ ⟨⟩⟩, subsides⟩
    rintro _ ⟨⟩
    exact unloaded
  | closed id =>
    obtain ⟨subsides, absent⟩ := UnitOfWork.Subsides.closeView unit id
    refine ⟨⟨enrols.closeView id, by rintro _ _ ⟨⟩, ?_, ?_⟩, subsides⟩
    · rintro _ ⟨⟩
      simp [UnitOfWork.members?, absent]
    · rintro _ _ ⟨⟩
      exact absent

structure Accounted (earlier : List Point) (point : Point) : Prop extends
    point.Settled (enrolments earlier) where
  leads : ∀ before ∈ earlier.getLast?, before.Leads point.unit point.unit.Unasked

end Point

def History (passed : List Point) : Prop :=
  ∀ earlier point later, passed = earlier ++ point :: later → Fair (earlier ++ [point]) →
    point.Accounted earlier

theorem History.of_append {first second : List Point} (history : History (first ++ second)) :
    History first := by
  intro earlier point later split
  exact history earlier point (later ++ second) (by simp [split])

theorem History.concat {passed : List Point} {point : Point} (history : History passed)
    (accounted : Fair (passed ++ [point]) → point.Accounted passed) : History (passed ++ [point]) := by
  intro earlier other later split fair
  rcases List.eq_nil_or_concat later with rfl | ⟨later, last, rfl⟩
  · obtain ⟨rfl, same⟩ := List.append_inj' split rfl
    cases same
    exact accounted fair
  · rw [List.concat_eq_append, ← List.cons_append, ← List.append_assoc] at split
    obtain ⟨rfl, -⟩ := List.append_inj' split rfl
    exact history earlier other later rfl fair

namespace Trace

variable {start unit after : UnitOfWork} {late wider : ViewId → Prop} {trace : Trace σ} {moment : Moment}

def passed (start : UnitOfWork) (trace : Trace σ) : List Point :=
  ⟨.outside, start⟩ :: trace.points

def latest (start : UnitOfWork) (trace : Trace σ) : Point :=
  trace.points.getLast?.getD ⟨.outside, start⟩

theorem passed_note (start unit : UnitOfWork) (trace : Trace σ) (moment : Moment) :
    (trace.note moment unit).passed start = trace.passed start ++ [⟨moment, unit⟩] := rfl

@[simp] theorem latest_note (start unit : UnitOfWork) (trace : Trace σ) (moment : Moment) :
    (trace.note moment unit).latest start = ⟨moment, unit⟩ := by
  simp [latest]

theorem getLast?_passed (start : UnitOfWork) (trace : Trace σ) :
    (trace.passed start).getLast? = some (trace.latest start) :=
  List.getLast?_cons

theorem moment_latest (start : UnitOfWork) (trace : Trace σ) :
    (trace.latest start).moment = trace.moment := by
  rw [latest, Trace.moment]
  cases trace.points.getLast? <;> rfl

theorem Begun.latest {operation : Operation} (begun : Begun operation unit trace) (start : UnitOfWork) :
    trace.latest start = ⟨.before operation, unit⟩ := by
  simp only [Begun] at begun
  simp [Trace.latest, begun]

structure Booked (start unit : UnitOfWork) (late : ViewId → Prop) (trace : Trace σ) : Prop where
  history : History (trace.passed start)
  enrols : Fair (trace.passed start) → unit.Enrols (enrolments (trace.passed start))
  leads : Fair (trace.passed start) → (trace.latest start).Leads unit late

namespace Booked

theorem steady (booked : Booked start unit late trace) (steady : after.Steady unit) :
    Booked start after late trace where
  history := booked.history
  enrols fair := (booked.enrols fair).steady steady
  leads fair := (booked.leads fair).subsides (.of_steady steady)

theorem weaken (booked : Booked start unit late trace) (implied : ∀ id, late id → wider id) :
    Booked start unit wider trace where
  history := booked.history
  enrols := booked.enrols
  leads fair := (booked.leads fair).weaken implied

theorem completeLoad {id : ViewId} {view : RelationView} (booked : Booked start unit late trace)
    (awaiting : Fair (trace.passed start) → unit.members? id = none)
    (found : unit.views.get? id = some view) (members : List ObjectIdentity)
    (source : (∃ fetched, trace.moment = .answered id (.ok fetched)) ∨
      (trace.latest start).unit.Unasked id ∨ late id) :
    Booked start (unit.completeLoad id view members) late trace where
  history := booked.history
  enrols fair := by
    have unloaded := awaiting fair
    rw [UnitOfWork.members?, found, Option.bind_some, RelationView.members?_eq_none] at unloaded
    exact (booked.enrols fair).completeLoad found unloaded members
  leads fair := by
    rw [← moment_latest start] at source
    exact (booked.leads fair).completeLoad found members source

theorem concat (booked : Booked start unit late trace)
    (accounted : Fair (trace.passed start ++ [⟨moment, after⟩]) →
      (⟨moment, after⟩ : Point).Accounted (trace.passed start)) :
    Booked start after (fun _ => False) (trace.note moment after) where
  history := booked.history.concat accounted
  enrols fair := by
    rw [passed_note, enrolments_concat]
    exact (accounted fair).enrols
  leads _ := by
    rw [latest_note]
    exact .refl _

theorem note (booked : Booked start unit unit.Unasked trace) (silent : moment.Silent) :
    Booked start unit (fun _ => False) (trace.note moment unit) := by
  refine booked.concat fun fair => ?_
  have fair : Fair (trace.passed start) := fun point member => fair point (by simp [member])
  refine ⟨.of_silent silent (booked.enrols fair), fun before last => ?_⟩
  rw [getLast?_passed, Option.mem_some_iff] at last
  exact last ▸ booked.leads fair

theorem alone {operation : Operation} {result : Except Fault operation.Answer}
    (booked : Booked start unit (fun _ => False) trace) (yields : operation.Yields unit result after) :
    Booked start after (fun _ => False)
      ((trace.note (.before operation) unit).note (.after operation result) after) := by
  have begun : Booked start unit (fun _ => False) (trace.note (.before operation) unit) :=
    (booked.weaken fun _ => False.elim).note (by rintro _ _ ⟨⟩)
  refine begun.concat fun fair => ?_
  have fair : Fair ((trace.note (.before operation) unit).passed start) := fun point member =>
    fair point (List.mem_append_left _ member)
  have kept : unit.cutsOff operation = false := by
    have here := fair ⟨.before operation, unit⟩ (by simp [passed_note])
    simpa [Point.fair] using here
  obtain ⟨settled, subsides⟩ := Point.Settled.alone (begun.enrols fair) kept yields
  refine ⟨settled, fun before last => ?_⟩
  rw [getLast?_passed, latest_note, Option.mem_some_iff] at last
  subst last
  exact .of_subsides subsides

end Booked

end Trace

theorem tracing_accounts (start : UnitOfWork) :
    Tracing (σ := σ) (fun unit trace => trace.Booked start unit fun _ => False)
      (fun _ _ after kept => kept.Booked start after fun _ => False)
      (fun _ _ after kept => kept.Booked start after after.Unasked)
      (fun id unit trace => Fair (trace.passed start) → unit.members? id = none) where
  charted := {
    refl := id
    trans := fun _ later => later
    arrives := id
    stop := fun led => led.weaken fun _ => False.elim
    finish := fun _ ended => ended
    begin := by
      intro unit after trace entity values row rest booked _ begun
      obtain ⟨_, _, _, -, -, -, -, -, -, -, same⟩ := UnitOfWork.beginInsert_eq_ok.mp begun
      exact booked.steady (same ▸ .of_same rfl rfl rfl)
    inserting := fun _ booked => booked.steady (.of_same rfl rfl rfl)
    write := by
      intro unit between after trace halfway row column value change index _ _ booked applied
      obtain ⟨-, rfl⟩ := UnitOfWork.applyChange_eq_ok.mp applied
      exact booked.steady (.of_same rfl rfl rfl)
    delete := by
      intro unit between after trace halfway row deletion _ _ booked applied
      obtain ⟨_, -, rfl⟩ := UnitOfWork.applyDeletion_eq_ok.mp applied
      split
      · exact booked.steady (.of_same rfl rfl rfl)
      · exact booked
    forget := fun _ _ booked => booked.steady (.of_same rfl rfl rfl)
    followChange := by
      intro unit after trace id change booked followed
      rw [UnitOfWork.followChange_told followed]
      exact booked.steady (.told (unit.afterChange_eq change) _)
    followDeletion := by
      intro unit after trace id deletion booked followed
      rw [UnitOfWork.followDeletion_told followed]
      exact booked.steady (.told (unit.afterDeletion_eq deletion) _)
    awaits := by
      intro unit trace id view _ found unloaded _
      rw [UnitOfWork.members?, UnitOfWork.view_eq_ok.mp found, Option.bind_some, RelationView.members?,
        unloaded]
    awaitsRows := fun _ awaiting => awaiting
    attach := by
      intro unit after trace id name earlier values later row booked _ _ attached
      obtain ⟨_, _, -, -, -, ⟨-, rfl⟩ | ⟨-, -, rfl⟩⟩ := UnitOfWork.attach_eq_ok.mp attached
      · exact booked
      · exact booked.steady (.of_same rfl rfl rfl)
    completeLoad := by
      intro unit trace id view members booked awaiting source found
      have found := UnitOfWork.view_eq_ok.mp found
      refine booked.completeLoad awaiting found members ?_
      rcases source with ⟨⟨operation, begun⟩, unasked⟩ | brought
      · rw [begun.latest start]
        exact .inr (.inl ⟨view, found, unasked⟩)
      · exact .inl brought
    -- The key is null at the end just as it was when the view was loaded.
    completeLast := by
      intro unit trace id view members booked awaiting source found
      have found := UnitOfWork.view_eq_ok.mp found
      have still : trace.Booked start unit (unit.completeLoad id view members).Unasked :=
        Trace.Booked.weaken booked fun _ => False.elim
      refine still.completeLoad awaiting found members ?_
      rcases source with unasked | brought
      · exact .inr (.inr ⟨_, (Assoc.get?_insert ..).trans (if_pos rfl), unasked⟩)
      · exact .inl brought }
  keep _ booked := ⟨booked.history, booked.enrols, booked.leads⟩
  told booked := (booked.weaken fun _ => False.elim).note (by rintro _ _ ⟨⟩)
  before booked _ := (booked.weaken fun _ => False.elim).note (by rintro _ _ ⟨⟩)
  after _ calling ended := ended.note (by rintro _ _ ⟨⟩; exact calling)
  alone booked yields := booked.alone yields
  asked booked _ := (booked.weaken fun _ => False.elim).note (by rintro _ _ ⟨⟩)
  answered := by
    intro unit trace id after kept result _ _ booked
    refine ⟨(booked.weaken fun _ => False.elim).note (by rintro _ _ ⟨⟩), fun fair => ?_⟩
    have here := fair ⟨.answered id result, after⟩ (by simp [Trace.passed_note])
    simpa [Point.fair] using here

/-- From the one point to the next the view comes to be loaded: its row source has just answered, or its
owner has a null for a key. -/
def Point.Loads (before after : Point) (id : ViewId) : Prop :=
  before.unit.members? id = none ∧ after.unit.members? id ≠ none ∧
    ((∃ fetched, before.moment = .answered id (.ok fetched)) ∨ before.unit.Keyless id ∨
      after.unit.Keyless id)

structure Point.Follows (before after : Point) : Prop where
  loads : ∀ id, before.unit.members? id = none → after.unit.members? id ≠ none → before.Loads after id
  opened : before.unit.nextView ≤ after.unit.nextView
  gone : ∀ id : ViewId, id.number < before.unit.nextView → before.unit.views.get? id = none →
    after.unit.views.get? id = none

namespace Point

variable {released point : Point} {between : List Point} {id : ViewId}

theorem loads_of_follows (follow : (released :: between).IsChain Follows)
    (unloaded : released.unit.members? id = none)
    (last : (released :: between).getLast? = some point) (loaded : point.unit.members? id ≠ none) :
    ∃ front before after rest, released :: between = front ++ before :: after :: rest ∧
      before.Loads after id := by
  induction between generalizing released with
  | nil =>
    cases last
    exact absurd unloaded loaded
  | cons next rest ih =>
    obtain ⟨follows, follow⟩ := List.isChain_cons_cons.mp follow
    by_cases still : next.unit.members? id = none
    · rw [List.getLast?_cons_cons] at last
      obtain ⟨front, before, after, rest, split, loads⟩ := ih follow still last
      exact ⟨released :: front, before, after, rest, by rw [split, List.cons_append], loads⟩
    · exact ⟨[], released, next, rest, rfl, follows.loads id unloaded still⟩

theorem gone_of_follows (follow : (released :: between).IsChain Follows)
    (early : id.number < released.unit.nextView) (absent : released.unit.views.get? id = none)
    (last : (released :: between).getLast? = some point) : point.unit.views.get? id = none := by
  induction between generalizing released with
  | nil =>
    cases last
    exact absent
  | cons next rest ih =>
    obtain ⟨follows, follow⟩ := List.isChain_cons_cons.mp follow
    rw [List.getLast?_cons_cons] at last
    exact ih follow (Nat.lt_of_lt_of_le early follows.opened) (follows.gone id early absent) last

end Point

theorem History.follow {model : Model} {passed : List Point} (history : History passed)
    (fair : Fair passed) (formed : ∀ point ∈ passed, point.unit.store.WellFormed model) :
    passed.IsChain Point.Follows := by
  induction passed using List.reverseRecOn with
  | nil => exact .nil
  | append_singleton passed point ih =>
    refine List.isChain_append.mpr ⟨ih history.of_append ?_ ?_, .singleton point, ?_⟩
    · exact fun other member => fair other (List.mem_append_left _ member)
    · exact fun other member => formed other (List.mem_append_left _ member)
    · intro last final _ same
      cases same
      have leads := (history passed point [] rfl fair).leads last final
      refine ⟨fun id unloaded loaded => ⟨unloaded, loaded, ?_⟩, leads.opened, leads.gone⟩
      have member : last ∈ passed ++ [point] := List.mem_append_left _ (List.mem_of_getLast? final)
      rcases leads.sourced id unloaded loaded with answered | here | there
      · exact .inl answered
      · exact .inr (.inl (here.keyless (formed last member)))
      · exact .inr (.inr (there.keyless (formed point (by simp))))

/-- At every point of a run the subscriptions on a table are those that listeners have been given and not
cancelled since, and two for each view that is loaded with that child table. Cancelling succeeds just for
those. A view that has been unloaded stays so until its row source answers once more, or its owner has
no key to ask by; one that has been closed stays away. -/
theorem subscriptions_follow_loaded_views (model : Model) (settings : Settings)
    (environment : Environment σ) (depth : Nat) (program : Program σ α) (memory : σ) :
    ∃ outcome,
      program.traced.run (environment.traced depth) (.new model settings) ⟨memory, []⟩ =
        some outcome ∧
      (∀ ended, program.run (environment.callbacks depth) (.new model settings) memory =
        some ended → outcome.untraced = ended) ∧
      ∀ earlier point later, outcome.course (.new model settings) = earlier ++ point :: later →
        Fair (earlier ++ [point]) →
        (∀ table, point.unit.channels.count table =
          (enrolments (earlier ++ [point])).countP (·.table = table) + 2 * point.unit.loadedOn table) ∧
        (∀ id result, point.moment = .after (.unsubscribe id) result →
          result = .ok (decide (id ∈ (enrolments earlier).map (·.id)))) ∧
        ∀ prior released between id, earlier ++ [point] = prior ++ released :: between →
          released.moment.releases = some id →
          (point.unit.members? id ≠ none → ∃ front before after rest,
            released :: between = front ++ before :: after :: rest ∧ before.Loads after id) ∧
          ∀ result, released.moment = .after (.close id) result → id.number < released.unit.nextView →
            point.unit.views.get? id = none := by
  obtain ⟨outcome, ran, same, hopped⟩ := traced_hops model settings environment depth program memory
  refine ⟨outcome, ran, same, ?_⟩
  have fresh : Trace.Booked (.new model settings) (.new model settings) (fun _ => False)
      (⟨memory, []⟩ : Trace σ) := by
    refine ⟨fun earlier point later split fair => ?_, fun _ => .new model settings, fun _ => .refl _⟩
    obtain ⟨rfl, rest⟩ : earlier = [] ∧ point :: later = [⟨.outside, .new model settings⟩] := by
      cases earlier with
      | nil => exact ⟨rfl, split.symm⟩
      | cons => simp [Trace.passed] at split
    cases rest
    exact ⟨.of_silent (by rintro _ _ ⟨⟩) (.new model settings), by rintro _ ⟨⟩⟩
  have tracing := tracing_accounts (σ := σ) (.new model settings)
  obtain ⟨result, after, kept, ran', -, booked⟩ :=
    tracing.run (tracing.environment environment depth) program fresh
  cases ran.symm.trans ran'
  have history : History (Outcome.course (.new model settings) ⟨result, after, kept⟩) :=
    have ended : kept.Booked (.new model settings) after after.Unasked := booked.weaken fun _ => False.elim
    (ended.note (by rintro _ _ ⟨⟩)).history
  have formed : ∀ point ∈ Outcome.course (.new model settings) ⟨result, after, kept⟩,
      point.unit.store.WellFormed model :=
    hopped.induction _ _ (fun _ _ hops _ => hops.led.2) fun _ => .empty model
  intro earlier point later split fair
  rw [split] at history formed
  have accounted := history earlier point later rfl fair
  rw [List.append_cons] at history formed
  have history := history.of_append
  have follow := history.follow fair fun other member => formed other (List.mem_append_left _ member)
  refine ⟨fun table => ?_, accounted.cancelled, fun prior released between id back releases => ?_⟩
  · rw [enrolments_concat]
    exact accounted.enrols.count table
  have last : (released :: between).getLast? = some point := by
    have ends := congrArg List.getLast? back
    simpa using ends.symm
  rw [back] at history follow fair
  have onward := (List.isChain_append.mp follow).2.1
  rw [List.append_cons] at fair
  have settled := history prior released between rfl fun other member =>
    fair other (List.mem_append_left _ member)
  exact ⟨Point.loads_of_follows onward (settled.released id releases) last, fun result closed early =>
    Point.gone_of_follows onward early (settled.closed id result closed) last⟩

def codeTakenAway : Program Unit Unit :=
  .perform (.attach "Order" [.integer 1, .integer 5]) fun _ =>
  .perform (.openView ⟨"orders", [.integer 1]⟩ "lines") fun _ =>
  .perform (.load ⟨0⟩) fun _ =>
  .perform (.invalidate ⟨0⟩) fun _ =>
  .perform (.write ⟨0⟩ "code" .null) fun _ =>
  .perform (.load ⟨0⟩) fun _ =>
  .done ()

-- The lines of an order that has lost its code are loaded again without asking the row source.
theorem lines_loaded_again_unasked : ∃ outcome,
    codeTakenAway.traced.run ((answering (.ok ())).traced 1) (.new codedOrders .standard) ⟨(), []⟩ =
      some outcome ∧
    Fair (outcome.course (.new codedOrders .standard)) ∧
    ∃ released since, released :: since <:+ outcome.course (.new codedOrders .standard) ∧
      released.moment.releases = some ⟨0⟩ ∧ (∀ point ∈ since, point.moment.asks = false) ∧
      outcome.unit.members? ⟨0⟩ = some [] := by
  let onward (outcome : Outcome (Trace Unit) Unit) :=
    (outcome.course (.new codedOrders .standard)).drop 10
  have evaluated : (codeTakenAway.traced.run ((answering (.ok ())).traced 1)
      (.new codedOrders .standard) ⟨(), []⟩).any (fun outcome =>
        (outcome.course (.new codedOrders .standard)).all Point.fair &&
          (onward outcome).head?.bind (·.moment.releases) == some ⟨0⟩ &&
          (onward outcome).tail.all (!·.moment.asks) && outcome.unit.members? ⟨0⟩ == some []) = true := by
    decide +kernel
  simp only [Option.any_eq_true, Bool.and_eq_true, List.all_eq_true, beq_iff_eq,
    Bool.not_eq_true'] at evaluated
  obtain ⟨outcome, ran, ⟨⟨fair, releases⟩, unasked⟩, loaded⟩ := evaluated
  obtain ⟨released, first, releases⟩ := Option.bind_eq_some_iff.mp releases
  refine ⟨outcome, ran, fair, released, (onward outcome).tail, ?_, releases, unasked, loaded⟩
  rw [List.cons_head?_tail first]
  exact List.drop_suffix 10 _

end RelationalMapper.Cache
