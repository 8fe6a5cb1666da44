import RelationalMapper.Proofs.View.Membership

set_option autoImplicit false

namespace RelationalMapper.Cache

variable {σ : Type} {model : Model} {calls : Callbacks σ} {steps : List Step} {unit : UnitOfWork}
  {memory : σ}

theorem UnitOfWork.Tracked.earlier {after before : UnitOfWork} {row : RowId}
    (succeeds : after.store.Succeeds before.store) (early : row.number < before.store.nextNumber)
    (tracked : after.Tracked row) : before.Tracked row := by
  obtain ⟨record, held⟩ := Option.isSome_iff_exists.mp tracked
  obtain ⟨older, stood, -⟩ := succeeds.origin row record held early
  rw [Tracked, stood]
  rfl

-- From each step to all later ones rows keep their numbers, and only rows are written.
theorem PlainRun.succeeds (wellMapped : model.WellMapped) {settings : Settings}
    (quiet : ∀ view command fetch, (calls.fetch view command fetch).Quiet)
    (run : PlainRun calls (.new model settings) steps unit memory) :
    (steps.Pairwise fun step next => next.after.store.Succeeds step.after.store) ∧
      ∀ step ∈ steps, unit.store.Succeeds step.after.store ∧ step.after.Plain model ∧
        ∀ write ∈ step.writes, write.row.number < step.after.store.nextNumber := by
  induction run with
  | start memory => exact ⟨.nil, by simp⟩
  | @step steps before after memory kept operation result run allowed performed ih =>
    obtain ⟨ordered, each⟩ := ih
    obtain ⟨plain, idle, -⟩ := run.faithful wellMapped quiet
    obtain ⟨result', after', kept', performed', advance⟩ :=
      perform_advance wellMapped plain idle calls quiet operation allowed memory
    cases performed.symm.trans performed'
    have onward (step : Step) (member : step ∈ steps) : after.store.Succeeds step.after.store :=
      advance.succeeds.trans (each step member).1
    constructor
    · refine List.pairwise_append.mpr ⟨ordered, List.pairwise_singleton _ _, ?_⟩
      exact fun step member => List.forall_mem_singleton.mpr (onward step member)
    · refine List.forall_mem_append.mpr ⟨fun step member => ?_, List.forall_mem_singleton.mpr ?_⟩
      · exact ⟨onward step member, (each step member).2⟩
      · exact ⟨.refl _, advance.plain, advance.early⟩

structure LoadedSince (steps : List Step) (id : ViewId) (earlier : List Step) (loading : Step)
    (later : List Step) : Prop where
  split : steps = earlier ++ loading :: later
  unloaded : loading.before.members? id = none
  stays : ∀ step ∈ loading :: later, (step.after.members? id).isSome

namespace LoadedSince

variable {id other : ViewId} {earlier later before after : List Step} {loading reloading : Step}
  (since : LoadedSince steps id earlier loading later)
  (since' : LoadedSince steps other before reloading after) (first : earlier.length ≤ before.length)

include since since' first

theorem between : ∃ between, loading :: later = between ++ reloading :: after := by
  obtain ⟨between, rfl⟩ : earlier <+: before :=
    List.prefix_of_prefix_length_le ⟨_, since.split.symm⟩ ⟨_, since'.split.symm⟩ first
  have rest := since.split.symm.trans since'.split
  rw [List.append_assoc] at rest
  exact ⟨between, List.append_cancel_left rest⟩

theorem later_subset : after ⊆ later := by
  obtain ⟨between, rest⟩ := since.between since' first
  cases between with
  | nil =>
    cases rest
    exact List.Subset.refl _
  | cons head tail =>
    cases rest
    exact fun step member => List.mem_append_right _ (List.mem_cons_of_mem _ member)

theorem knows (ordered : steps.Pairwise fun step next => next.after.store.Succeeds step.after.store)
    (each : ∀ step ∈ steps, unit.store.Succeeds step.after.store ∧ step.after.Plain model ∧
      ∀ write ∈ step.writes, write.row.number < step.after.store.nextNumber)
    {column : String} {key : Value} {row : RowId} (tracked : unit.Tracked row)
    (knows : Knows loading later column key row) : Knows reloading after column key row := by
  obtain ⟨between, rest⟩ := since.between since' first
  have split := since.split
  rw [rest] at split
  have listed {step : Step} (member : step ∈ between ++ [reloading]) : step ∈ steps := by
    rw [split]
    simp only [List.mem_append, List.mem_cons] at member ⊢
    tauto
  -- A row that was numbered before the second load was in the cache then, since it is left.
  have early {step : Step} (member : step ∈ between ++ [reloading])
      (numbered : row.number < step.after.store.nextNumber) : reloading.after.Tracked row := by
    refine tracked.earlier (each reloading (by simp [split])).1 ?_
    rcases List.mem_append.mp member with member | member
    · rw [split, List.pairwise_append, List.pairwise_append] at ordered
      have succeeds := ordered.2.1.2.2 step member reloading List.mem_cons_self
      exact Nat.lt_of_lt_of_le numbered succeeds.numbers
    · rwa [List.mem_singleton.mp member] at numbered
  have either {step : Step} (member : step ∈ loading :: later) :
      step ∈ between ++ [reloading] ∨ step ∈ after := by
    rw [rest] at member
    simpa [or_assoc] using member
  rcases knows with there | ⟨step, member, wrote⟩
  · have loads : loading ∈ between ++ [reloading] := by
      cases between with
      | nil =>
        cases rest
        exact List.mem_singleton_self _
      | cons head tail =>
        cases rest
        exact List.mem_cons_self
    obtain ⟨record, held⟩ := Option.isSome_iff_exists.mp there
    exact .inl (early loads ((each loading (listed loads)).2.1.sound.rows.numbered row record held))
  · rcases either (List.mem_cons_of_mem _ member) with sooner | later
    · exact .inl (early sooner ((each step (listed sooner)).2.2 _ wrote))
    · exact .inr ⟨step, later, wrote⟩

end LoadedSince

/-- The first view was loaded no later than the other. The other has all its members, and those
children besides that were in the cache when it was loaded and that the first does not know. -/
def Trails (steps : List Step) (unit : UnitOfWork) (view : RelationView) (id other : ViewId)
    (members others : List ObjectIdentity) : Prop :=
  ∃ earlier loading later before reloading after,
    LoadedSince steps id earlier loading later ∧ LoadedSince steps other before reloading after ∧
    earlier.length ≤ before.length ∧
    ((∀ step ∈ loading :: later, (step.after.store.live.get? view.owner).isSome) →
      ∃ key, unit.ownerKey view = .ok (some key) ∧ members ⊆ others ∧
        ∀ identity, identity ∈ others ∧ identity ∉ members ↔
          ∃ row, unit.PointsAt view key row identity ∧ reloading.after.Tracked row ∧
            ¬ Knows loading later view.relation.childKey key row)

theorem UnitOfWork.PointsAt.unique {view : RelationView} {key : Value} {row other : RowId}
    {identity : ObjectIdentity} (sound : unit.Sound model) (here : unit.PointsAt view key row identity)
    (there : unit.PointsAt view key other identity) : row = other := by
  obtain ⟨record, held, live, -, own, -⟩ := here
  obtain ⟨record', held', live', -, own', -⟩ := there
  have found := sound.rows.live_of_record held live
  rw [own, ← own', sound.rows.live_of_record held' live'] at found
  exact (Option.some.inj found).symm

theorem UnitOfWork.PointsAt.tracked {view : RelationView} {key : Value} {row : RowId}
    {identity : ObjectIdentity} (points : unit.PointsAt view key row identity) : unit.Tracked row := by
  obtain ⟨record, held, -⟩ := points
  rw [Tracked, held]
  rfl

theorem UnitOfWork.Faithful.mem_iff (wellMapped : model.WellMapped) (sound : unit.Sound model)
    {id : ViewId} {view : RelationView} {index : Nat} {key : Value} {known : RowId → Prop}
    {members : List ObjectIdentity} (keyed : view.Keyed model index key)
    (faithful : unit.Faithful id view index key known) (loaded : view.members? = some members)
    (identity : ObjectIdentity) :
    identity ∈ members ↔ ∃ row, unit.PointsAt view key row identity ∧ known row := by
  obtain ⟨held, same, mirrors⟩ := faithful.mirrors
  cases loaded.symm.trans same
  rw [mirrors.member]
  exact exists_congr fun row =>
    and_congr_left fun _ => UnitOfWork.isChild_iff_pointsAt wellMapped sound keyed row identity

-- Views of one relation have their children in one table.
theorem RelationView.Proper.alike_of_same {view other : RelationView} (proper : view.Proper model)
    (proper' : other.Proper model) (owner : other.owner = view.owner)
    (relation : other.relation = view.relation) : other.Alike view := by
  obtain ⟨parent, child, _, _, ends⟩ := proper
  obtain ⟨parent', child', _, _, ends'⟩ := proper'
  have known := ends'.childKnown
  rw [relation, ends.childKnown] at known
  cases known
  exact ⟨owner, relation, ends'.childEntity.trans ends.childEntity.symm,
    ends'.childTable.trans ends.childTable.symm⟩

theorem PlainRun.trails (wellMapped : model.WellMapped) {settings : Settings}
    (quiet : ∀ view command fetch, (calls.fetch view command fetch).Quiet)
    (run : PlainRun calls (.new model settings) steps unit memory) {id other : ViewId}
    {view view' : RelationView} {members others : List ObjectIdentity} {index : Nat} {key : Value}
    (keyed : view.Keyed model index key) (alike : view'.Alike view)
    (loaded : view.members? = some members) (loaded' : view'.members? = some others)
    {earlier later before after : List Step} {loading reloading : Step}
    (since : LoadedSince steps id earlier loading later)
    (since' : LoadedSince steps other before reloading after) (first : earlier.length ≤ before.length)
    (faithful : (∀ step ∈ loading :: later, (step.after.store.live.get? view.owner).isSome) →
      unit.Faithful id view index key (Knows loading later view.relation.childKey key))
    (faithful' : (∀ step ∈ reloading :: after, (step.after.store.live.get? view'.owner).isSome) →
      unit.Faithful other view' index key (Knows reloading after view'.relation.childKey key)) :
    Trails steps unit view id other members others := by
  refine ⟨earlier, loading, later, before, reloading, after, since, since', first, fun live => ?_⟩
  obtain ⟨plain, -, -⟩ := run.faithful wellMapped quiet
  obtain ⟨ordered, each⟩ := run.succeeds wellMapped quiet
  obtain ⟨between, rest⟩ := since.between since' first
  have within : ∀ step ∈ reloading :: after, step ∈ loading :: later :=
    fun step member => rest ▸ List.mem_append_right _ member
  have now := faithful live
  have now' := faithful' fun step member => alike.owner ▸ live step (within step member)
  have owned := UnitOfWork.ownerKey_of_keyed wellMapped plain.sound keyed now.live
  have listed := now.mem_iff wellMapped plain.sound keyed loaded
  have listed' (identity : ObjectIdentity) : identity ∈ others ↔
      ∃ row, unit.PointsAt view key row identity ∧
        Knows reloading after view.relation.childKey key row := by
    rw [now'.mem_iff wellMapped plain.sound (keyed.alike alike) loaded']
    simp only [UnitOfWork.PointsAt, alike.relation, alike.childTable]
  have reloaded {row : RowId} {identity : ObjectIdentity} (points : unit.PointsAt view key row identity)
      (knows : Knows loading later view.relation.childKey key row) :
      Knows reloading after view.relation.childKey key row :=
    since.knows since' first ordered each points.tracked knows
  refine ⟨key, owned, fun identity member => ?_, fun identity => ⟨?_, ?_⟩⟩
  · obtain ⟨row, points, knows⟩ := (listed identity).mp member
    exact (listed' identity).mpr ⟨row, points, reloaded points knows⟩
  · rintro ⟨member, stranger⟩
    obtain ⟨row, points, knows⟩ := (listed' identity).mp member
    have unknown : ¬ Knows loading later view.relation.childKey key row :=
      fun knows => stranger ((listed identity).mpr ⟨row, points, knows⟩)
    rcases knows with there | ⟨step, wrote⟩
    · exact ⟨row, points, there, unknown⟩
    · exact absurd (.inr ⟨step, since.later_subset since' first wrote.1, wrote.2⟩) unknown
  · rintro ⟨row, points, there, unknown⟩
    refine ⟨(listed' identity).mpr ⟨row, points, .inl there⟩, fun member => ?_⟩
    obtain ⟨row', points', knows⟩ := (listed identity).mp member
    rw [points'.unique plain.sound points] at knows
    exact unknown knows

/-- Of two loaded views of one collection, one trails the other. -/
theorem earlier_loaded_trails (wellMapped : model.WellMapped) {settings : Settings}
    (quiet : ∀ view command fetch, (calls.fetch view command fetch).Quiet)
    (run : PlainRun calls (.new model settings) steps unit memory) {first second : ViewId}
    {view view' : RelationView} {members members' : List ObjectIdentity}
    (found : unit.views.get? first = some view) (found' : unit.views.get? second = some view')
    (owner : view'.owner = view.owner) (relation : view'.relation = view.relation)
    (loaded : view.members? = some members) (loaded' : view'.members? = some members')
    {parent : Entity} {column : Column}
    (parentKnown : model.entity view.relation.parent = .ok parent)
    (parentKey : parent.column view.relation.parentKey = .ok column)
    (primary : column.primaryKey = true) :
    Trails steps unit view first second members members' ∨
      Trails steps unit view' second first members' members := by
  obtain ⟨plain, -, faithful⟩ := run.faithful wellMapped quiet
  have proper := plain.sound.proper first view found
  have alike := proper.alike_of_same (plain.sound.proper second view' found') owner relation
  obtain ⟨_, child, parentIndex, index, ends⟩ := proper
  cases parentKnown.symm.trans ends.parentKnown
  obtain ⟨place, placed, here⟩ := Entity.columnIndex_of_column parentKey
  cases placed.symm.trans ends.parentKey
  have keyed : view.Keyed model index _ := ⟨parent, child, parentIndex, column, ends, here, primary, rfl⟩
  obtain ⟨earlier, loading, later, split, unloaded, stays, faithful₁⟩ :=
    faithful first view index _ found (by rw [loaded]; rfl) keyed
  obtain ⟨before, reloading, after, split', unloaded', stays', faithful₂⟩ :=
    faithful second view' index _ found' (by rw [loaded']; rfl) (keyed.alike alike)
  have since : LoadedSince steps first earlier loading later := ⟨split, unloaded, stays⟩
  have since' : LoadedSince steps second before reloading after := ⟨split', unloaded', stays'⟩
  rcases Nat.le_total earlier.length before.length with sooner | sooner
  · exact .inl (run.trails wellMapped quiet keyed alike loaded loaded' since since' sooner
      faithful₁ faithful₂)
  · exact .inr (run.trails wellMapped quiet (keyed.alike alike) alike.symm loaded' loaded since' since
      sooner faithful₂ faithful₁)

-- Line 7 comes in for order 1 when one view of its lines is loaded and another is not.
theorem line_between_loads : ∃ steps unit view view',
    PlainRun nothingStored (.new orders .standard) steps unit () ∧
      (∀ step ∈ steps, (step.after.store.live.get? ⟨"orders", [.integer 1]⟩).isSome) ∧
      unit.views.get? ⟨0⟩ = some view ∧ unit.views.get? ⟨1⟩ = some view' ∧
      view.owner = ⟨"orders", [.integer 1]⟩ ∧ view'.owner = view.owner ∧
      view.relation = ⟨"lines", "Order", "Line", "id", "order"⟩ ∧ view'.relation = view.relation ∧
      view.members? = some [] ∧ view'.members? = some [⟨"lines", [.integer 7]⟩] := by
  have fresh : PlainRun nothingStored (.new orders .standard) [] (.new orders .standard) () := .start ()
  have attached := PlainRun.step (.attach "Order" [.integer 1]) fresh rfl rfl
  have opened := PlainRun.step (.openView ⟨"orders", [.integer 1]⟩ "lines") attached rfl rfl
  have again := PlainRun.step (.openView ⟨"orders", [.integer 1]⟩ "lines") opened rfl rfl
  have loaded := PlainRun.step (.load ⟨0⟩) again rfl rfl
  have came := PlainRun.step (.attach "Line" [.integer 7, .integer 1]) loaded rfl rfl
  have last := PlainRun.step (.load ⟨1⟩) came rfl rfl
  refine ⟨_, _, _, _, last, ?_, rfl, rfl, rfl, rfl, rfl, rfl, rfl, rfl⟩
  simp only [List.nil_append, List.cons_append, List.forall_mem_cons]
  exact ⟨rfl, rfl, rfl, rfl, rfl, rfl, List.forall_mem_nil _⟩

-- The views have different members, although their owner has been live all the time.
theorem views_of_lines_differ : ¬ ∀ steps unit first second view view' members members',
    PlainRun nothingStored (.new orders .standard) steps unit () →
      (∀ step ∈ steps, (step.after.store.live.get? ⟨"orders", [.integer 1]⟩).isSome) →
      unit.views.get? first = some view → unit.views.get? second = some view' →
      view.owner = ⟨"orders", [.integer 1]⟩ → view'.owner = view.owner → view'.relation = view.relation →
      view.members? = some members → view'.members? = some members' →
      ∀ identity, identity ∈ members ↔ identity ∈ members' := by
  intro agree
  obtain ⟨steps, unit, view, view', run, live, found, found', owner, same, -, related, loaded, loaded'⟩ :=
    line_between_loads
  have member := agree _ _ _ _ _ _ _ _ run live found found' owner same related loaded loaded'
    ⟨"lines", [.integer 7]⟩
  simp at member

theorem view_of_no_lines_trails : ∃ steps unit view,
    PlainRun nothingStored (.new orders .standard) steps unit () ∧
      (Trails steps unit view ⟨0⟩ ⟨1⟩ [] [⟨"lines", [.integer 7]⟩] ∨
        ∃ view', Trails steps unit view' ⟨1⟩ ⟨0⟩ [⟨"lines", [.integer 7]⟩] []) := by
  obtain ⟨steps, unit, view, view', run, -, found, found', -, same, joins, related, loaded, loaded'⟩ :=
    line_between_loads
  refine ⟨steps, unit, view, run, ?_⟩
  have trails := earlier_loaded_trails ⟨rfl, by decide, by decide⟩
    (fun _ _ _ unit memory => ⟨_, _, rfl⟩) run found found' same related loaded loaded'
    (by rw [joins]; rfl) (by rw [joins]; rfl) rfl
  exact trails.imp_right fun trails => ⟨view', trails⟩

end RelationalMapper.Cache
