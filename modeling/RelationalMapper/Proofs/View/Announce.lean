import RelationalMapper.Proofs.View.Follow

set_option autoImplicit false

namespace RelationalMapper

theorem Assoc.insert_self {κ ν : Type} [DecidableEq κ] {map : Assoc κ ν} {key : κ} {value : ν}
    (held : map.get? key = some value) : map.insert key value = map := by
  obtain ⟨entries⟩ := map
  simp only [get?, insert, Assoc.mk.injEq] at *
  induction entries with
  | nil => simp [lookup] at held
  | cons entry rest ih =>
    obtain ⟨first, stored⟩ := entry
    by_cases same : first = key
    · simp [replaceOrAppend, lookup, same] at held ⊢
      rw [held]
    · simp only [replaceOrAppend, lookup, same, if_false] at held ⊢
      rw [ih held]

namespace Cache

variable {σ α : Type}

-- An action that has an answer and leaves the unit of work as it is.
def Action.Quiet (action : Action σ α) : Prop :=
  ∀ unit memory, ∃ result kept, action unit memory = some ⟨result, unit, kept⟩

def tellOne (follow : UnitOfWork → ViewId → Except Fault UnitOfWork)
    (call : ListenerKey → Action σ Unit) : Subscriber → Action σ Unit
  | .view id => do
    let unit ← Action.ask (follow · id)
    Action.change fun _ => unit
  | .listener key => call key

def tell (follow : UnitOfWork → ViewId → Except Fault UnitOfWork)
    (call : ListenerKey → Action σ Unit) : List Subscriber → Action σ Unit
  | [] => pure ()
  | subscriber :: rest => do
    tellOne follow call subscriber
    tell follow call rest

def accepting (follow : UnitOfWork → ViewId → Except Fault UnitOfWork)
    (call : ListenerKey → Action σ Unit) : List Subscriber → UnitOfWork → σ → List Subscriber
  | [], _, _ => []
  | subscriber :: rest, unit, memory =>
    match tellOne follow call subscriber unit memory with
    | some ⟨.ok _, unit, memory⟩ => subscriber :: accepting follow call rest unit memory
    | some ⟨.error _, _, _⟩ | none => []

theorem tellChange_eq (calls : Callbacks σ) (change : ColumnChange) (subscribers : List Subscriber) :
    tellChange calls change subscribers =
      tell (·.followChange · change) (calls.columnChanging · change) subscribers := by
  induction subscribers with
  | nil => rfl
  | cons subscriber rest ih =>
    cases subscriber <;> simp only [tellChange, tell, tellOne, Action.bind_bind, ih]

theorem tellDeletion_eq (calls : Callbacks σ) (deletion : RowDeletion)
    (subscribers : List Subscriber) :
    tellDeletion calls deletion subscribers =
      tell (·.followDeletion · deletion) (calls.rowDeleting · deletion) subscribers := by
  induction subscribers with
  | nil => rfl
  | cons subscriber rest ih =>
    cases subscriber <;> simp only [tellDeletion, tell, tellOne, Action.bind_bind, ih]

def tellViews (patch : RelationView → RelationView) :
    List Subscriber → Assoc ViewId RelationView → Assoc ViewId RelationView
  | [], views => views
  | .view id :: rest, views => tellViews patch rest (views.modify id patch)
  | .listener _ :: rest, views => tellViews patch rest views

theorem get?_tellViews (patch : RelationView → RelationView) (subscribers : List Subscriber)
    (views : Assoc ViewId RelationView) (id : ViewId) :
    (tellViews patch subscribers views).get? id =
      (views.get? id).map patch^[subscribers.count (.view id)] := by
  induction subscribers generalizing views with
  | nil => simp [tellViews]
  | cons subscriber rest ih =>
    cases subscriber with
    | listener key => simp [tellViews, ih]
    | view told =>
      rw [tellViews, ih, Assoc.get?_modify]
      by_cases here : told = id
      · subst here
        cases views.get? told <;> simp
      · rw [if_neg here, List.count_cons_of_ne]
        intro same
        cases same
        exact here rfl

theorem tellViews_append (patch : RelationView → RelationView) (first second : List Subscriber)
    (views : Assoc ViewId RelationView) :
    tellViews patch (first ++ second) views = tellViews patch second (tellViews patch first views) := by
  induction first generalizing views with
  | nil => rfl
  | cons subscriber rest ih => cases subscriber <;> exact ih _

theorem tell_views {follow : UnitOfWork → ViewId → Except Fault UnitOfWork}
    {call : ListenerKey → Action σ Unit} {patch : RelationView → RelationView} {unit : UnitOfWork}
    {subscribers : List Subscriber}
    (follows : ∀ heard, ∀ subscriber ∈ subscribers, ∃ id, subscriber = .view id ∧
      follow { unit with views := tellViews patch heard unit.views } id =
        .ok { unit with views := (tellViews patch heard unit.views).modify id patch })
    (memory : σ) :
    tell follow call subscribers unit memory =
      some ⟨.ok (), { unit with views := tellViews patch subscribers unit.views }, memory⟩ := by
  have onwards (rest heard : List Subscriber) (among : rest ⊆ subscribers) :
      tell follow call rest { unit with views := tellViews patch heard unit.views } memory =
        some ⟨.ok (), { unit with views := tellViews patch (heard ++ rest) unit.views }, memory⟩ := by
    induction rest generalizing heard with
    | nil =>
      rw [List.append_nil]
      rfl
    | cons subscriber rest ih =>
      obtain ⟨here, later⟩ := List.cons_subset.mp among
      obtain ⟨id, rfl, followed⟩ := follows heard subscriber here
      have told : tellOne follow call (.view id) { unit with views := tellViews patch heard unit.views }
          memory = some ⟨.ok (), { unit with
            views := tellViews patch (heard ++ [.view id]) unit.views }, memory⟩ := by
        rw [tellViews_append, tellOne, Action.ask_bind_of_ok followed]
        rfl
      rw [tell, Action.bind_of_ok told, ih _ later, List.append_assoc]
      rfl
  exact onwards subscribers [] (List.Subset.refl _)

section

variable (follow : UnitOfWork → ViewId → Except Fault UnitOfWork)
  (call : ListenerKey → Action σ Unit) (patch : RelationView → RelationView) (unit : UnitOfWork)
  (follows : ∀ views id, follow { unit with views } id =
      .ok { unit with views := views.modify id patch } ∨
    ∃ fault, follow { unit with views } id = .error fault)

include follows

theorem tellOne_quiet (subscriber : Subscriber)
    (quiet : ∀ key, subscriber = .listener key → (call key).Quiet)
    (views : Assoc ViewId RelationView) (memory : σ) :
    ∃ result kept, (result = .ok () ∧ tellOne follow call subscriber { unit with views } memory =
        some ⟨result, { unit with views := tellViews patch [subscriber] views }, kept⟩) ∨
      ∃ fault, result = .error fault ∧ tellOne follow call subscriber { unit with views } memory =
          some ⟨result, { unit with views }, kept⟩ ∧
        ∀ id, subscriber = .view id → follow { unit with views } id = .error fault := by
  cases subscriber with
  | view id =>
    rcases follows views id with followed | ⟨fault, followed⟩
    · refine ⟨.ok (), memory, .inl ⟨rfl, ?_⟩⟩
      rw [tellOne, Action.ask_bind_of_ok followed]
      rfl
    · refine ⟨.error fault, memory, .inr ⟨fault, rfl, ?_, ?_⟩⟩
      · rw [tellOne, Action.ask_bind_of_error followed]
      · intro other same
        cases same
        exact followed
  | listener key =>
    obtain ⟨result, kept, answered⟩ := quiet key rfl { unit with views } memory
    cases result with
    | ok answer => exact ⟨.ok (), kept, .inl ⟨rfl, answered⟩⟩
    | error fault => exact ⟨.error fault, kept, .inr ⟨fault, rfl, answered, fun id same => nomatch same⟩⟩

-- Those who accept are told and have taken it in; the one that refuses has done nothing.
theorem tell_quiet (subscribers : List Subscriber)
    (quiet : ∀ key, .listener key ∈ subscribers → (call key).Quiet)
    (views : Assoc ViewId RelationView) (memory : σ) :
    ∃ result heard rest kept,
      accepting follow call subscribers { unit with views } memory = heard ∧
      subscribers = heard ++ rest ∧
      tell follow call subscribers { unit with views } memory =
        some ⟨result, { unit with views := tellViews patch heard views }, kept⟩ ∧
      (result = .ok () ∧ rest = [] ∨
        ∃ fault failing later, result = .error fault ∧ rest = failing :: later ∧
          ∀ id, failing = .view id →
            follow { unit with views := tellViews patch heard views } id = .error fault) := by
  induction subscribers generalizing views memory with
  | nil => exact ⟨.ok (), [], [], memory, rfl, rfl, rfl, .inl ⟨rfl, rfl⟩⟩
  | cons subscriber rest ih =>
    obtain ⟨result, between, ⟨rfl, told⟩ | ⟨fault, rfl, told, failed⟩⟩ :=
      tellOne_quiet follow call patch unit follows subscriber (fun key same => quiet key (same ▸ List.mem_cons_self ..)) views memory
    · obtain ⟨result, heard, left, kept, accepted, split, ran, ends⟩ :=
        ih (fun key member => quiet key (List.mem_cons_of_mem _ member))
          (tellViews patch [subscriber] views) between
      have onwards : tellViews patch (subscriber :: heard) views =
          tellViews patch heard (tellViews patch [subscriber] views) := by
        cases subscriber <;> rfl
      refine ⟨result, subscriber :: heard, left, kept, ?_, by rw [split]; rfl, ?_, ?_⟩
      · rw [accepting, told, ← accepted]
      · rw [tell, Action.bind_of_ok told, onwards]
        exact ran
      · rw [onwards]
        exact ends
    · refine ⟨.error fault, [], subscriber :: rest, between, ?_, rfl, ?_,
        .inr ⟨fault, subscriber, rest, rfl, rfl, failed⟩⟩
      · rw [accepting, told]
      · rw [tell, Action.bind_of_error told]
        rfl

end

def RelationView.told (view : RelationView) :
    Except Fault (Option (List ObjectIdentity)) → RelationView
  | .ok (some members) => view.withMembers members
  | .ok none | .error _ => view

theorem RelationView.told_eq (view : RelationView)
    (members : Except Fault (Option (List ObjectIdentity))) :
    view.told members = view ∨ ∃ others, view.told members = view.withMembers others := by
  rcases members with fault | ⟨⟩ | others
  · exact .inl rfl
  · exact .inl rfl
  · exact .inr ⟨others, rfl⟩

namespace UnitOfWork

def afterChange (unit : UnitOfWork) (change : ColumnChange) (view : RelationView) : RelationView :=
  view.told (unit.membersAfterChange view change)

def afterDeletion (unit : UnitOfWork) (deletion : RowDeletion) (view : RelationView) : RelationView :=
  view.told (unit.membersAfterDeletion view deletion)

def follow (unit : UnitOfWork)
    (membersAfter : RelationView → Except Fault (Option (List ObjectIdentity))) (id : ViewId) :
    Except Fault UnitOfWork :=
  match unit.views.get? id with
  | none => return unit
  | some view => (membersAfter view).map (unit.setMembers id)

variable {unit : UnitOfWork} {model : Model} {view : RelationView} {id : ViewId}

theorem afterChange_eq (unit : UnitOfWork) (change : ColumnChange) (view : RelationView) :
    unit.afterChange change view = view ∨
      ∃ members, unit.afterChange change view = view.withMembers members :=
  view.told_eq _

theorem afterDeletion_eq (unit : UnitOfWork) (deletion : RowDeletion) (view : RelationView) :
    unit.afterDeletion deletion view = view ∨
      ∃ members, unit.afterDeletion deletion view = view.withMembers members :=
  view.told_eq _

theorem afterChange_of_owned {change : ColumnChange} {record : RowRecord} {key : Value}
    {members : List ObjectIdentity} (owned : unit.ownerKey view = .ok (some key))
    (held : unit.store.records.get? change.row = some record) (loaded : view.members? = some members) :
    unit.afterChange change view = view.withMembers
      (if change.column ≠ view.relation.childKey ∨ unit.SelfReferring change record.identity then members
        else if change.proposed = key then joined members record.identity
        else if change.current = key then members.erase record.identity else members) := by
  rw [afterChange, membersAfterChange_of_owned owned held loaded]
  have still := view.withMembers_self loaded
  by_cases elsewhere : change.column ≠ view.relation.childKey ∨
      unit.SelfReferring change record.identity
  · simp only [elsewhere, if_true, RelationView.told, still]
  · by_cases joins : change.proposed = key
    · simp only [elsewhere, joins, if_true, if_false, RelationView.told]
    · by_cases leaves : change.current = key <;>
        simp only [elsewhere, joins, leaves, if_true, if_false, RelationView.told, still]

theorem afterDeletion_of_owned (wellMapped : model.WellMapped) (sound : unit.Sound model)
    {parent child : Entity} {parentIndex childIndex : Nat}
    (ends : view.Ends model parent child parentIndex childIndex) {deletion : RowDeletion}
    {record : RowRecord} {key : Value} {members : List ObjectIdentity}
    (owned : unit.ownerKey view = .ok (some key))
    (held : unit.store.records.get? deletion.row = some record)
    (here : record.table = view.childTable) (live : record.state.isLive = true)
    (loaded : view.members? = some members) :
    unit.afterDeletion deletion view = view.withMembers
      (if record.BelongsTo childIndex deletion.state key then members.erase record.identity
        else members) := by
  rw [afterDeletion,
    membersAfterDeletion_of_owned wellMapped.mapped sound.formed ends owned held here live loaded]
  have still := view.withMembers_self loaded
  by_cases belongs : record.BelongsTo childIndex deletion.state key <;>
    simp only [belongs, if_true, if_false, RelationView.told, still]

theorem setMembers_eq_modify (found : unit.views.get? id = some view)
    (members : Option (List ObjectIdentity)) :
    unit.setMembers id members = { unit with
      views := unit.views.modify id fun view => members.elim view view.withMembers } := by
  cases members with
  | some members => rfl
  | none => simp [setMembers, Assoc.modify, found, Assoc.insert_self]

section

variable {membersAfter : RelationView → Except Fault (Option (List ObjectIdentity))}

theorem follow_of_ok
    (able : ∀ view, unit.views.get? id = some view → ∃ members, membersAfter view = .ok members) :
    unit.follow membersAfter id = .ok { unit with
      views := unit.views.modify id fun view => view.told (membersAfter view) } := by
  unfold follow
  split
  next absent => simp [Assoc.modify, absent, Pure.pure, Except.pure]
  next view found =>
    obtain ⟨members, told⟩ := able view found
    rw [told, Except.map, setMembers_eq_modify found]
    simp only [Assoc.modify, found, told]
    cases members <;> rfl

theorem follow_or (unit : UnitOfWork) (id : ViewId) :
    unit.follow membersAfter id = .ok { unit with
        views := unit.views.modify id fun view => view.told (membersAfter view) } ∨
      ∃ fault, unit.follow membersAfter id = .error fault := by
  by_cases able : ∀ view, unit.views.get? id = some view → ∃ members, membersAfter view = .ok members
  · exact .inl (follow_of_ok able)
  · push Not at able
    obtain ⟨view, found, fails⟩ := able
    cases told : membersAfter view with
    | ok members => exact absurd told (fails members)
    | error fault =>
      refine .inr ⟨fault, ?_⟩
      rw [follow, found]
      exact congrArg (Except.map _) told

end

end UnitOfWork

def RelationView.Repeopled (after before : RelationView) : Prop :=
  after = before ∨ ∃ members, after = before.withMembers members

namespace RelationView.Repeopled

variable {view before : RelationView} {model : Model} {patch : RelationView → RelationView}

theorem iterate (patches : ∀ view, (patch view).Repeopled view) (count : Nat)
    (view : RelationView) : (patch^[count] view).Repeopled view := by
  induction count with
  | zero => exact .inl rfl
  | succ count ih =>
    rw [Function.iterate_succ_apply']
    rcases ih with same | ⟨members, same⟩
    · rw [same]
      exact patches view
    · rw [same]
      rcases patches (view.withMembers members) with again | ⟨others, again⟩
      · exact .inr ⟨members, again⟩
      · exact .inr ⟨others, by rw [again, view.withMembers_withMembers]⟩

theorem proper (repeopled : view.Repeopled before) (proper : before.Proper model) :
    view.Proper model := by
  rcases repeopled with same | ⟨members, same⟩
  · rwa [same]
  · rw [same]
    exact proper.withMembers members

theorem subscriptions (repeopled : view.Repeopled before) :
    view.subscriptions = before.subscriptions := by
  rcases repeopled with same | ⟨members, same⟩
  · rw [same]
  · rw [same, subscriptions_withMembers]

theorem childTable (repeopled : view.Repeopled before) : view.childTable = before.childTable := by
  rcases repeopled with same | ⟨members, same⟩
  · rw [same]
  · rw [same, childTable_withMembers]

end RelationView.Repeopled

namespace UnitOfWork

def acceptingChange (calls : Callbacks σ) (change : ColumnChange) (unit : UnitOfWork) (memory : σ) :
    List Subscriber :=
  accepting (·.followChange · change) (calls.columnChanging · change)
    (unit.channels.subscribers .columnChanging change.table) unit memory

def acceptingDeletion (calls : Callbacks σ) (deletion : RowDeletion) (unit : UnitOfWork)
    (memory : σ) : List Subscriber :=
  accepting (·.followDeletion · deletion) (calls.rowDeleting · deletion)
    (unit.channels.subscribers .rowDeleting deletion.table) unit memory

def toldOfChange (unit : UnitOfWork) (change : ColumnChange) (heard : List Subscriber) : UnitOfWork :=
  { unit with views := tellViews (unit.afterChange change) heard unit.views }

def toldOfDeletion (unit : UnitOfWork) (deletion : RowDeletion) (heard : List Subscriber) :
    UnitOfWork :=
  { unit with views := tellViews (unit.afterDeletion deletion) heard unit.views }

theorem followChange_told {unit after : UnitOfWork} {id : ViewId} {change : ColumnChange}
    (followed : unit.followChange id change = .ok after) : after = unit.toldOfChange change [.view id] := by
  rcases unit.follow_or id with same | ⟨fault, same⟩
  · exact Except.ok.inj (followed.symm.trans same)
  · cases followed.symm.trans same

theorem followDeletion_told {unit after : UnitOfWork} {id : ViewId} {deletion : RowDeletion}
    (followed : unit.followDeletion id deletion = .ok after) :
    after = unit.toldOfDeletion deletion [.view id] := by
  rcases unit.follow_or id with same | ⟨fault, same⟩
  · exact Except.ok.inj (followed.symm.trans same)
  · cases followed.symm.trans same

theorem announceChange_quiet (unit : UnitOfWork) (calls : Callbacks σ) (change : ColumnChange)
    (quiet : ∀ key, .listener key ∈ unit.channels.subscribers .columnChanging change.table →
      (calls.columnChanging key change).Quiet) (memory : σ) :
    ∃ result heard rest kept, acceptingChange calls change unit memory = heard ∧
      unit.channels.subscribers .columnChanging change.table = heard ++ rest ∧
      announceChange calls change unit memory = some ⟨result, unit.toldOfChange change heard, kept⟩ ∧
      (result = .ok () ∧ rest = [] ∨
        ∃ fault failing later, result = .error fault ∧ rest = failing :: later ∧
          ∀ id, failing = .view id →
            (unit.toldOfChange change heard).followChange id change = .error fault) := by
  have told := tell_quiet (·.followChange · change) (calls.columnChanging · change)
    (unit.afterChange change) unit (fun views id => follow_or { unit with views } id)
    (unit.channels.subscribers .columnChanging change.table) quiet unit.views memory
  rw [← tellChange_eq] at told
  exact told

theorem announceDeletion_quiet (unit : UnitOfWork) (calls : Callbacks σ) (deletion : RowDeletion)
    (quiet : ∀ key, .listener key ∈ unit.channels.subscribers .rowDeleting deletion.table →
      (calls.rowDeleting key deletion).Quiet) (memory : σ) :
    ∃ result heard rest kept, acceptingDeletion calls deletion unit memory = heard ∧
      unit.channels.subscribers .rowDeleting deletion.table = heard ++ rest ∧
      announceDeletion calls deletion unit memory =
        some ⟨result, unit.toldOfDeletion deletion heard, kept⟩ ∧
      (result = .ok () ∧ rest = [] ∨
        ∃ fault failing later, result = .error fault ∧ rest = failing :: later ∧
          ∀ id, failing = .view id →
            (unit.toldOfDeletion deletion heard).followDeletion id deletion = .error fault) := by
  have told := tell_quiet (·.followDeletion · deletion) (calls.rowDeleting · deletion)
    (unit.afterDeletion deletion) unit (fun views id => follow_or { unit with views } id)
    (unit.channels.subscribers .rowDeleting deletion.table) quiet unit.views memory
  rw [← tellDeletion_eq] at told
  exact told

variable {unit : UnitOfWork} {model : Model} {record : RowRecord}

theorem Sound.tellViews (sound : unit.Sound model) {patch : RelationView → RelationView}
    (patches : ∀ view, (patch view).Repeopled view) (heard : List Subscriber) :
    ({ unit with views := tellViews patch heard unit.views } : UnitOfWork).Sound model where
  modelled := sound.modelled
  rows := sound.rows
  proper id view found := by
    change (Cache.tellViews patch heard unit.views).get? id = some view at found
    rw [get?_tellViews, Option.map_eq_some_iff] at found
    obtain ⟨before, stood, rfl⟩ := found
    exact (RelationView.Repeopled.iterate patches _ before).proper (sound.proper id before stood)
  wired := by
    refine sound.wired.of_views rfl rfl fun id => ?_
    change ((Cache.tellViews patch heard unit.views).get? id).map _ = _
    rw [get?_tellViews, Option.map_map]
    congr
    funext view
    exact (RelationView.Repeopled.iterate patches _ view).subscriptions

theorem Sound.childTable (sound : unit.Sound model) {id : ViewId} {view : RelationView}
    {channel : Channel} {table : String} (found : unit.views.get? id = some view)
    (hears : .view id ∈ unit.channels.subscribers channel table) : view.childTable = table := by
  have counted := sound.wired.count_subscribers id channel table
  rw [found] at counted
  have some_held := List.count_pos_iff.mpr hears
  rw [counted] at some_held
  simp only [Option.elim_some, RelationView.subscriptions] at some_held
  cases state : view.state with
  | unloaded => simp [state] at some_held
  | loaded members changing deleting =>
    rw [state] at some_held
    by_contra elsewhere
    simp [elsewhere] at some_held

end UnitOfWork

end Cache

end RelationalMapper
