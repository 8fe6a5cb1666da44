import RelationalMapper.Proofs.Sql.Layout
import RelationalMapper.Proofs.Sql.Restating
import RelationalMapper.Proofs.Sql.Sizing

set_option autoImplicit false

namespace RelationalMapper

namespace Sql

def parentheses (content : String) : List Char :=
  content.toList.filter fun letter => letter = '(' || letter = ')'

/-- A piece of its own, or all that stands between a parenthesis and the one that closes it. The text
that opens it may be more than the parenthesis. -/
inductive Group where
  | single (piece : Piece)
  | enclosed (opening : String) (inside : List Group)

namespace Group

mutual

def pieces : Group → List Piece
  | .single piece => [piece]
  | .enclosed opening inside => .text opening :: piecesOfAll inside ++ [.text ")"]

def piecesOfAll : List Group → List Piece
  | [] => []
  | group :: rest => group.pieces ++ piecesOfAll rest

end

def readFrom (before : List Group) (around : List (String × List Group)) :
    List Piece → Option (List Group)
  | [] => if around.isEmpty then some before else none
  | .identifier name :: rest => readFrom (before ++ [.single (.identifier name)]) around rest
  | .parameter position :: rest => readFrom (before ++ [.single (.parameter position)]) around rest
  | .text content :: rest =>
    match parentheses content with
    | ['('] => readFrom [] ((content, before) :: around) rest
    | [')'] =>
      match around with
      | [] => none
      | (opening, outer) :: around => readFrom (outer ++ [.enclosed opening before]) around rest
    -- What is opened and closed in the same text is no group.
    | [] | ['(', ')'] => readFrom (before ++ [.single (.text content)]) around rest
    | _ => none

/-- The groups, unless a parenthesis is closed that was not opened, one is not closed, or a text has more
of them than can be told apart. -/
def read (pieces : List Piece) : Option (List Group) :=
  readFrom [] [] pieces

def Plain : Piece → Prop
  | .identifier _ | .parameter _ => True
  | .text content => parentheses content = [] ∨ parentheses content = ['(', ')']

mutual

def Proper : Group → Prop
  | .single piece => Plain piece
  | .enclosed opening inside => parentheses opening = ['('] ∧ AllProper inside

def AllProper : List Group → Prop
  | [] => True
  | group :: rest => group.Proper ∧ AllProper rest

end

mutual

def depth : Group → Nat
  | .single _ => 0
  | .enclosed opening inside => depths inside + if opening = " IN (SELECT " then 1 else 0

def depths : List Group → Nat
  | [] => 0
  | group :: rest => max group.depth (depths rest)

end

def separated (separator : String) : List (List Group) → List Group
  | [] => []
  | [part] => part
  | part :: rest => part ++ .single (.text separator) :: separated separator rest

@[simp] theorem piecesOfAll_append (first second : List Group) :
    piecesOfAll (first ++ second) = piecesOfAll first ++ piecesOfAll second := by
  induction first with
  | nil => rfl
  | cons group rest ih => simp [piecesOfAll, ih]

@[simp] theorem allProper_append (first second : List Group) :
    AllProper (first ++ second) ↔ AllProper first ∧ AllProper second := by
  induction first with
  | nil => simp [AllProper]
  | cons group rest ih => simp [AllProper, ih, and_assoc]

@[simp] theorem depths_append (first second : List Group) :
    depths (first ++ second) = max (depths first) (depths second) := by
  induction first with
  | nil => simp [depths]
  | cons group rest ih => simp [depths, ih, Nat.max_assoc]

theorem readFrom_plain {piece : Piece} (plain : Plain piece) (before : List Group)
    (around : List (String × List Group)) (rest : List Piece) :
    readFrom before around (piece :: rest) = readFrom (before ++ [.single piece]) around rest := by
  cases piece with
  | identifier name => rfl
  | parameter position => rfl
  | text content => rcases plain with none | both <;> simp [readFrom, *]

mutual

-- Proper groups are found where their pieces stand, whatever is open around them.
theorem readFrom_pieces : ∀ (group : Group), group.Proper → ∀ (before : List Group)
    (around : List (String × List Group)) (rest : List Piece),
    readFrom before around (group.pieces ++ rest) = readFrom (before ++ [group]) around rest
  | .single piece, plain, before, around, rest => readFrom_plain plain before around rest
  | .enclosed opening inside, ⟨opens, proper⟩, before, around, rest => by
    have closes : parentheses ")" = [')'] := by decide
    have opened : readFrom before around ((Group.enclosed opening inside).pieces ++ rest) =
        readFrom [] ((opening, before) :: around) (piecesOfAll inside ++ .text ")" :: rest) := by
      simp [pieces, readFrom, opens]
    rw [opened, readFrom_piecesOfAll inside proper, List.nil_append, readFrom, closes]
    rfl

theorem readFrom_piecesOfAll : ∀ (groups : List Group), AllProper groups → ∀ (before : List Group)
    (around : List (String × List Group)) (rest : List Piece),
    readFrom before around (piecesOfAll groups ++ rest) = readFrom (before ++ groups) around rest
  | [], _, before, around, rest => by simp [piecesOfAll]
  | group :: groups, ⟨here, later⟩, before, around, rest => by
    rw [piecesOfAll, List.append_assoc, readFrom_pieces group here, readFrom_piecesOfAll groups later,
      List.append_assoc, List.singleton_append]

end

theorem read_piecesOfAll {groups : List Group} (proper : AllProper groups) :
    read (piecesOfAll groups) = some groups := by
  rw [read, ← List.append_nil (piecesOfAll groups), readFrom_piecesOfAll groups proper]
  rfl

theorem piecesOfAll_single (pieces : List Piece) : piecesOfAll (pieces.map .single) = pieces := by
  induction pieces with
  | nil => rfl
  | cons piece rest ih => simp [piecesOfAll, Group.pieces, ih]

theorem allProper_single {pieces : List Piece} (plain : ∀ piece ∈ pieces, Plain piece) :
    AllProper (pieces.map .single) := by
  induction pieces with
  | nil => trivial
  | cons piece rest ih =>
    obtain ⟨here, later⟩ := List.forall_mem_cons.mp plain
    exact ⟨here, ih later⟩

@[simp] theorem depths_single (pieces : List Piece) : depths (pieces.map .single) = 0 := by
  induction pieces with
  | nil => rfl
  | cons piece rest ih => simp [depths, depth, ih]

theorem piecesOfAll_separated (separator : String) (parts : List (List Group)) :
    piecesOfAll (separated separator parts) = Sql.separated separator (parts.map piecesOfAll) := by
  induction parts with
  | nil => rfl
  | cons part rest ih =>
    cases rest with
    | nil => rfl
    | cons next rest => simp [separated, Sql.separated, piecesOfAll, pieces, ih]

def junction (separator empty : String) : List (List Group) → List Group
  | [] => [.single (.text empty)]
  | parts => [.enclosed "(" (separated separator parts)]

def nested : List Hop → List Group → List Group
  | [], inside => inside
  | hop :: rest, inside =>
    [.single (.identifier hop.localKey),
      .enclosed " IN (SELECT " ([.single (.identifier hop.targetKey), .single (.text " FROM "),
        .single (.identifier hop.target.table), .single (.text " WHERE ")] ++ nested rest inside)]

end Group

end Sql

def Model.hops (model : Model) : Entity → List String → Except Fault (List Hop)
  | _, [] => .ok []
  | entity, name :: rest => do
    let hop ← model.hop entity name
    return hop :: (← model.hops hop.target rest)

def Entity.beyond (entity : Entity) (hops : List Hop) : Entity :=
  hops.getLast?.elim entity (·.target)

inductive Predicate.ShownAs (parameters : List Sql.Parameter) (column : Column) :
    Predicate → List Sql.Group → Prop
  | tested {predicate : Predicate} {test : Comparison.NullTest} (missing : predicate.value = .null)
      (meant : predicate.comparison.nullTest? = some test) :
    ShownAs parameters column predicate
      [.single (.identifier column.name), .single (.text (" " ++ test.text))]
  | compared {predicate : Predicate} {index : Nat} {name : String} (present : predicate.value ≠ .null)
      (bound : parameters[index]? = some ⟨column, name, predicate.value⟩) :
    ShownAs parameters column predicate
      [.single (.identifier column.name),
        .single (.text (" " ++ predicate.comparison.operator ++ " ")), .single (.parameter (index + 1))]

namespace Qualifier

mutual

def relationCount : Qualifier → Nat
  | .column .. | .property .. => 0
  | .all children | .any children => relationCounts children
  | .path relations terminal => relations.length + terminal.relationCount

def relationCounts : List Qualifier → Nat
  | [] => 0
  | child :: rest => child.relationCount + relationCounts rest

end

section

variable (model : Model) (parameters : List Sql.Parameter)

mutual

def ShownAs (entity : Entity) : Qualifier → List Sql.Group → Prop
  | .column name predicate, groups =>
    ∃ column, entity.columnAt (.column name) = .ok column ∧ predicate.ShownAs parameters column groups
  | .property name predicate, groups =>
    ∃ column, entity.columnAt (.property name) = .ok column ∧
      predicate.ShownAs parameters column groups
  | .all children, groups =>
    ∃ parts, AllShownAs entity children parts ∧ groups = Sql.Group.junction " AND " "1=1" parts
  | .any children, groups =>
    ∃ parts, AllShownAs entity children parts ∧ groups = Sql.Group.junction " OR " "1=0" parts
  | .path relations terminal, groups =>
    ∃ hops inside, model.hops entity relations = .ok hops ∧
      ShownAs (entity.beyond hops) terminal inside ∧ groups = Sql.Group.nested hops inside

def AllShownAs (entity : Entity) : List Qualifier → List (List Sql.Group) → Prop
  | [], [] => True
  | child :: rest, part :: parts => ShownAs entity child part ∧ AllShownAs entity rest parts
  | [], _ :: _ | _ :: _, [] => False

end

end

end Qualifier

def Fetch.ConditionShownAs (fetch : Fetch) (model : Model) (parameters : List Sql.Parameter)
    (entity : Entity) (groups : List Sql.Group) : Prop :=
  match fetch.qualifier with
  | none => groups = []
  | some qualifier => qualifier.ShownAs model parameters entity groups

namespace Sql

/-- The groups can be read, and this is how deep subqueries are nested in them and how many there are. -/
structure Group.Holds (groups : List Group) (depth count : Nat) : Prop where
  proper : Group.AllProper groups
  nested : Group.depths groups = depth
  subqueries : (Group.piecesOfAll groups).count (.text " IN (SELECT ") = count

namespace Group.Holds

variable {groups others : List Group} {depth depth' count count' : Nat}

theorem plain (pieces : List Piece) (each : ∀ piece ∈ pieces, Plain piece) :
    Group.Holds (pieces.map .single) 0 0 := by
  refine ⟨allProper_single each, depths_single pieces, ?_⟩
  rw [piecesOfAll_single]
  refine List.count_eq_zero.mpr fun member => ?_
  have opens : parentheses " IN (SELECT " = ['('] := by decide
  rcases each _ member with none | both <;> simp_all

theorem append (here : Group.Holds groups depth count) (later : Group.Holds others depth' count') :
    Group.Holds (groups ++ others) (max depth depth') (count + count') where
  proper := (allProper_append ..).mpr ⟨here.proper, later.proper⟩
  nested := by rw [depths_append, here.nested, later.nested]
  subqueries := by rw [piecesOfAll_append, List.count_append, here.subqueries, later.subqueries]

theorem separated_cons {separator : String} (plain : parentheses separator = [])
    {parts : List (List Group)} (here : Group.Holds groups depth count)
    (later : Group.Holds (separated separator parts) depth' count') :
    Group.Holds (separated separator (groups :: parts)) (max depth depth') (count + count') := by
  cases parts with
  | nil =>
    obtain ⟨-, rfl, rfl⟩ := later
    simpa [separated, depths, piecesOfAll] using here
  | cons next rest =>
    have divided : Group.Holds [.single (.text separator)] 0 0 :=
      Holds.plain [.text separator] (by simp [Plain, plain])
    have joined := here.append (divided.append later)
    rwa [Nat.zero_max, Nat.zero_add] at joined

theorem enclosed (inside : Group.Holds groups depth count) :
    Group.Holds [.enclosed "(" groups] depth count where
  proper := ⟨⟨by decide, inside.proper⟩, trivial⟩
  nested := by
    simp [depths, Group.depth, inside.nested]
  subqueries := by
    simp [piecesOfAll, Group.pieces, inside.subqueries]

theorem subquery (hop : Hop) (inside : Group.Holds groups depth count) :
    Group.Holds (Group.nested [hop] groups) (depth + 1) (count + 1) where
  proper := by
    have begun : parentheses " IN (SELECT " = ['('] := by decide
    have source : parentheses " FROM " = [] := by decide
    have filter : parentheses " WHERE " = [] := by decide
    simp [Group.nested, AllProper, Proper, Plain, begun, source, filter, inside.proper]
  nested := by
    simp [Group.nested, depths, Group.depth, inside.nested]
  subqueries := by
    simp [Group.nested, piecesOfAll, Group.pieces, inside.subqueries]

theorem hops (inside : Group.Holds groups depth count) (hops : List Hop) :
    Group.Holds (Group.nested hops groups) (hops.length + depth) (hops.length + count) := by
  induction hops with
  | nil => simpa [Group.nested] using inside
  | cons hop rest ih =>
    have outer := ih.subquery hop
    rwa [Nat.add_right_comm, Nat.add_right_comm rest.length count] at outer

end Group.Holds

section

variable {model : Model} {parameters : List Parameter}

theorem parentheses_operator (comparison : Comparison) :
    parentheses (" " ++ comparison.operator ++ " ") = [] := by
  cases comparison <;> decide

theorem parentheses_test (test : Comparison.NullTest) : parentheses (" " ++ test.text) = [] := by
  cases test <;> decide

theorem length_hops {entity : Entity} {relations : List String} {hops : List Hop}
    (walked : model.hops entity relations = .ok hops) : hops.length = relations.length := by
  induction relations generalizing entity hops with
  | nil =>
    cases walked
    rfl
  | cons name rest ih =>
    obtain ⟨hop, -, walked⟩ := Except.bind_eq_ok.mp walked
    obtain ⟨later, onward, walked⟩ := Except.bind_eq_ok.mp walked
    cases walked
    simp [ih onward]

theorem holds_comparison {column : Column} {predicate : Predicate} {groups : List Group}
    (shown : predicate.ShownAs parameters column groups) : Group.Holds groups 0 0 := by
  cases shown with
  | tested missing meant =>
    exact Group.Holds.plain [_, _] (by simp [Group.Plain, parentheses_test])
  | compared present bound =>
    exact Group.Holds.plain [_, _, _] (by simp [Group.Plain, parentheses_operator])

theorem Group.Holds.junction {separator empty : String} (plain : parentheses empty = [])
    {parts : List (List Group)} {depth count : Nat}
    (inside : Group.Holds (Group.separated separator parts) depth count) :
    Group.Holds (Group.junction separator empty parts) depth count := by
  cases parts with
  | nil =>
    obtain ⟨-, rfl, rfl⟩ := inside
    exact Group.Holds.plain [_] (by simp [Group.Plain, plain])
  | cons part rest => exact inside.enclosed

mutual

-- What a qualifier is shown as nests as deep as the qualifier does, with a subquery for every relation.
theorem holds_shown : ∀ (qualifier : Qualifier) {entity : Entity} {groups : List Group},
    qualifier.ShownAs model parameters entity groups →
    Group.Holds groups qualifier.depth qualifier.relationCount
  | .column name predicate, entity, groups, shown => by
    rw [Qualifier.ShownAs] at shown
    obtain ⟨column, -, shown⟩ := shown
    exact holds_comparison shown
  | .property name predicate, entity, groups, shown => by
    rw [Qualifier.ShownAs] at shown
    obtain ⟨column, -, shown⟩ := shown
    exact holds_comparison shown
  | .all children, entity, groups, shown => by
    rw [Qualifier.ShownAs] at shown
    obtain ⟨parts, each, rfl⟩ := shown
    exact (holds_allShown (by decide) children each).junction (by decide)
  | .any children, entity, groups, shown => by
    rw [Qualifier.ShownAs] at shown
    obtain ⟨parts, each, rfl⟩ := shown
    exact (holds_allShown (by decide) children each).junction (by decide)
  | .path relations terminal, entity, groups, shown => by
    rw [Qualifier.ShownAs] at shown
    obtain ⟨hops, inside, walked, shown, rfl⟩ := shown
    rw [Qualifier.depth, Qualifier.relationCount, ← length_hops walked]
    exact (holds_shown terminal shown).hops hops

theorem holds_allShown {separator : String} (plain : parentheses separator = []) :
    ∀ (children : List Qualifier) {entity : Entity} {parts : List (List Group)},
    Qualifier.AllShownAs model parameters entity children parts →
    Group.Holds (Group.separated separator parts) (Qualifier.depths children)
      (Qualifier.relationCounts children)
  | [], entity, [], _ => .plain [] (by simp)
  | child :: rest, entity, part :: parts, shown => by
    rw [Qualifier.AllShownAs] at shown
    exact .separated_cons plain (holds_shown child shown.1) (holds_allShown plain rest shown.2)

end

def joined (separator empty : String) : List (List Piece) → List Piece
  | [] => [.text empty]
  | parts => .text "(" :: separated separator parts ++ [.text ")"]

theorem pieces_junction (separator empty : String) (parts : List (List Group)) :
    Group.piecesOfAll (Group.junction separator empty parts) =
      joined separator empty (parts.map Group.piecesOfAll) := by
  cases parts with
  | nil => rfl
  | cons part rest =>
    simp [Group.junction, joined, Group.piecesOfAll, Group.pieces, Group.piecesOfAll_separated]

theorem pieces_all (parts : List (Condition Nat)) :
    (Condition.all parts).pieces = joined " AND " "1=1" (Condition.piecesOfAll parts) := by
  cases parts <;> rfl

theorem pieces_any (parts : List (Condition Nat)) :
    (Condition.any parts).pieces = joined " OR " "1=0" (Condition.piecesOfAll parts) := by
  cases parts <;> rfl

def Condition.Shows (condition : Condition Operand) (model : Model) (parameters : List Parameter)
    (entity : Entity) (qualifier : Qualifier) : Prop :=
  ∀ before after, parameters.map (·.operand) = before ++ condition.operands ++ after →
    ∃ groups, qualifier.ShownAs model parameters entity groups ∧
      Group.piecesOfAll groups = (condition.number before.length).pieces

theorem comparison_shown {column : Column} {predicate : Predicate} {condition : Condition Operand}
    (built : comparison column predicate = .ok condition) {before after : List Operand}
    (held : parameters.map (·.operand) = before ++ condition.operands ++ after) :
    ∃ groups, predicate.ShownAs parameters column groups ∧
      Group.piecesOfAll groups = (condition.number before.length).pieces := by
  unfold comparison at built
  split at built
  next absent =>
    split at built
    next test meant =>
      cases built
      exact ⟨_, .tested ((Value.isNull_iff _).mp absent) meant, rfl⟩
    · cases built
  next present =>
    cases built
    have there : (parameters.map (·.operand))[before.length]? = some ⟨column, predicate.value⟩ := by
      rw [held]
      simp [Condition.operands]
    obtain ⟨⟨owner, name, value⟩, bound, same⟩ := Option.map_eq_some_iff.mp
      (List.getElem?_map .. ▸ there)
    cases same
    exact ⟨_, .compared (mt (Value.isNull_iff _).mpr present) bound, rfl⟩

theorem beyond_cons (entity : Entity) (hop : Hop) (hops : List Hop) :
    entity.beyond (hop :: hops) = hop.target.beyond hops := by
  cases hops with
  | nil => rfl
  | cons next rest => simp [Entity.beyond, List.getLast?_cons]

-- By induction on the path: each subquery is closed around what lies beyond its hop.
theorem along_nested {finish : Entity → Except Fault (Condition Operand)} {entity : Entity}
    {relations : List String} {condition : Condition Operand}
    (resolved : along model finish entity relations = .ok condition) :
    ∃ hops inner, model.hops entity relations = .ok hops ∧
      finish (entity.beyond hops) = .ok inner ∧ condition.operands = inner.operands ∧
      ∀ bound groups, Group.piecesOfAll groups = (inner.number bound).pieces →
        Group.piecesOfAll (Group.nested hops groups) = (condition.number bound).pieces := by
  induction relations generalizing entity condition with
  | nil => exact ⟨[], condition, rfl, resolved, rfl, fun _ _ same => same⟩
  | cons name rest ih =>
    obtain ⟨hop, hopped, resolved⟩ := Except.bind_eq_ok.mp resolved
    obtain ⟨between, onward, resolved⟩ := Except.bind_eq_ok.mp resolved
    cases resolved
    obtain ⟨hops, inner, walked, finished, operands, written⟩ := ih onward
    refine ⟨hop :: hops, inner, ?_, by rwa [beyond_cons], operands, fun bound groups same => ?_⟩
    · exact Except.bind_eq_ok.mpr ⟨hop, hopped, Except.bind_eq_ok.mpr ⟨hops, walked, rfl⟩⟩
    · simp [Group.nested, Group.piecesOfAll, Group.pieces, Condition.number, Condition.pieces,
        written bound groups same]

mutual

theorem resolve_shown : ∀ (qualifier : Qualifier) {entity : Entity} {condition : Condition Operand},
    resolve model entity qualifier = .ok condition →
    condition.Shows model parameters entity qualifier
  | .column name predicate, entity, condition, resolved, before, after, held => by
    rw [resolve] at resolved
    obtain ⟨column, found, built⟩ := Except.bind_eq_ok.mp resolved
    obtain ⟨groups, shown, written⟩ := comparison_shown built held
    exact ⟨groups, by rw [Qualifier.ShownAs]; exact ⟨column, found, shown⟩, written⟩
  | .property name predicate, entity, condition, resolved, before, after, held => by
    rw [resolve] at resolved
    obtain ⟨named, property, resolved⟩ := Except.bind_eq_ok.mp resolved
    obtain ⟨column, found, built⟩ := Except.bind_eq_ok.mp resolved
    obtain ⟨groups, shown, written⟩ := comparison_shown built held
    have owned : entity.columnAt (.property name) = .ok column :=
      Except.bind_eq_ok.mpr ⟨named, property, found⟩
    exact ⟨groups, by rw [Qualifier.ShownAs]; exact ⟨column, owned, shown⟩, written⟩
  | .all children, entity, condition, resolved, before, after, held => by
    rw [resolve] at resolved
    obtain ⟨conditions, each, resolved⟩ := Except.bind_eq_ok.mp resolved
    cases resolved
    obtain ⟨parts, shown, written⟩ := resolveAll_shown children each before after held
    refine ⟨_, by rw [Qualifier.ShownAs]; exact ⟨parts, shown, rfl⟩, ?_⟩
    rw [pieces_junction, written, Condition.number, pieces_all]
  | .any children, entity, condition, resolved, before, after, held => by
    rw [resolve] at resolved
    obtain ⟨conditions, each, resolved⟩ := Except.bind_eq_ok.mp resolved
    cases resolved
    obtain ⟨parts, shown, written⟩ := resolveAll_shown children each before after held
    refine ⟨_, by rw [Qualifier.ShownAs]; exact ⟨parts, shown, rfl⟩, ?_⟩
    rw [pieces_junction, written, Condition.number, pieces_any]
  | .path relations terminal, entity, condition, resolved, before, after, held => by
    rw [resolve] at resolved
    obtain ⟨hops, inner, walked, finished, operands, written⟩ := along_nested resolved
    obtain ⟨inside, shown, same⟩ := resolve_shown terminal finished before after (operands ▸ held)
    refine ⟨_, by rw [Qualifier.ShownAs]; exact ⟨hops, inside, walked, shown, rfl⟩, ?_⟩
    exact written _ _ same

theorem resolveAll_shown : ∀ (children : List Qualifier) {entity : Entity}
    {conditions : List (Condition Operand)}, resolveAll model entity children = .ok conditions →
    ∀ before after,
    parameters.map (·.operand) = before ++ Condition.operandsOfAll conditions ++ after →
    ∃ parts, Qualifier.AllShownAs model parameters entity children parts ∧
      parts.map Group.piecesOfAll =
        Condition.piecesOfAll (Condition.numberAll before.length conditions)
  | [], entity, conditions, resolved, before, after, held => by
    cases resolved
    exact ⟨[], by rw [Qualifier.AllShownAs]; trivial, rfl⟩
  | child :: rest, entity, conditions, resolved, before, after, held => by
    rw [resolveAll] at resolved
    obtain ⟨condition, here, resolved⟩ := Except.bind_eq_ok.mp resolved
    obtain ⟨others, later, resolved⟩ := Except.bind_eq_ok.mp resolved
    cases resolved
    rw [Condition.operandsOfAll] at held
    obtain ⟨part, shown, written⟩ := resolve_shown child here before
      (Condition.operandsOfAll others ++ after) (by simpa using held)
    -- The parameters of this part come before those of the next.
    obtain ⟨parts, each, same⟩ := resolveAll_shown rest later (before ++ condition.operands) after
      (by simpa using held)
    refine ⟨part :: parts, by rw [Qualifier.AllShownAs]; exact ⟨shown, each⟩, ?_⟩
    rw [List.map_cons, written, same, List.length_append]
    rfl

end

end

theorem plain_separated {separator : String} (plain : parentheses separator = []) {parts : List (List Piece)}
    (each : ∀ part ∈ parts, ∀ piece ∈ part, Group.Plain piece) :
    ∀ piece ∈ separated separator parts, Group.Plain piece := by
  induction parts with
  | nil => simp [separated]
  | cons part rest ih =>
    obtain ⟨here, later⟩ := List.forall_mem_cons.mp each
    cases rest with
    | nil => exact here
    | cons next rest =>
      exact List.forall_mem_append.mpr ⟨here, List.forall_mem_cons.mpr ⟨.inl plain, ih later⟩⟩

theorem plain_columns (columns : List String) :
    ∀ piece ∈ separated ", " (columns.map fun column => [.identifier column]), Group.Plain piece := by
  refine plain_separated (by decide) (List.forall_mem_map.mpr fun column _ => ?_)
  simp [Group.Plain]

theorem plain_orderPieces (orderings : List (String × SortDirection)) :
    ∀ piece ∈ Statement.orderPieces orderings, Group.Plain piece := by
  have descends : parentheses " DESC" = [] := by decide
  cases orderings with
  | nil => simp [Statement.orderPieces]
  | cons first rest =>
    refine List.forall_mem_cons.mpr ⟨.inl (by decide), plain_separated (by decide) ?_⟩
    refine List.forall_mem_map.mpr fun ordering _ => ?_
    obtain ⟨column, direction⟩ := ordering
    cases direction <;> simp [Group.Plain, descends]

theorem parentheses_limitText (limit : Nat) : parentheses (Writer.limitText limit) = [] := by
  have fixed : parentheses " LIMIT " = [] := by decide
  refine List.filter_eq_nil_iff.mpr fun letter member => ?_
  rw [Writer.limitText, String.toList_append, List.mem_append] at member
  rcases member with written | counted
  · exact List.filter_eq_nil_iff.mp fixed letter written
  · have digit := isDigit_of_mem_toString counted
    rintro parenthesis
    rcases (by simpa using parenthesis : letter = '(' ∨ letter = ')') with rfl | rfl <;> cases digit

section

variable {compiler : Compiler} {request : Request} {fetch : Fetch}

-- Apart from its condition, a statement that reads has no parentheses that it leaves open.
theorem statement_parts (asked : request = .select fetch ∨ request = .count fetch)
    {statement : Statement Operand} (built : compiler.statement request = .ok statement) :
    ∃ entity condition before after, compiler.model.entity fetch.entity = .ok entity ∧
      resolveCondition compiler.model entity fetch.qualifier = .ok condition ∧
      statement.operands = condition.elim [] Condition.operands ∧
      statement.number.pieces =
        before ++ Statement.fromWhere entity.table (condition.map (Condition.number 0)) ++ after ∧
      (∀ piece ∈ before, Group.Plain piece) ∧ ∀ piece ∈ after, Group.Plain piece := by
  rcases asked with rfl | rfl
  · obtain ⟨entity, condition, orderings, known, resolved, rfl⟩ := selectStatement_eq_ok built
    refine ⟨entity, condition, .text "SELECT " :: separated ", "
        ((entity.columns.map (·.name)).map fun column => [.identifier column]),
      Statement.orderPieces orderings ++
        fetch.limit.elim [] fun limit => [.text (Writer.limitText limit)],
      known, resolved, rfl, ?_, ?_, ?_⟩
    · simp [Statement.number, Statement.pieces]
    · exact List.forall_mem_cons.mpr ⟨.inl (by decide), plain_columns _⟩
    · refine List.forall_mem_append.mpr ⟨plain_orderPieces orderings, ?_⟩
      cases fetch.limit <;> simp [Group.Plain, parentheses_limitText]
  · obtain ⟨entity, condition, known, resolved, rfl⟩ := countStatement_eq_ok built
    refine ⟨entity, condition, [.text "SELECT COUNT(*)"], [], known, resolved, rfl, ?_, ?_, ?_⟩
    · simp [Statement.number, Statement.pieces]
    · exact List.forall_mem_singleton.mpr (.inr (by decide))
    · simp

theorem fromWhere_shown {model : Model} {parameters : List Parameter} {entity : Entity}
    {condition : Option (Condition Operand)}
    (resolved : resolveCondition model entity fetch.qualifier = .ok condition)
    (held : parameters.map (·.operand) = condition.elim [] Condition.operands) :
    ∃ source inside, (∀ piece ∈ source, Group.Plain piece) ∧
      fetch.ConditionShownAs model parameters entity inside ∧
      Statement.fromWhere entity.table (condition.map (Condition.number 0)) =
        source ++ Group.piecesOfAll inside ∧
      Group.Holds inside (fetch.qualifier.elim 0 (·.depth))
        (fetch.qualifier.elim 0 (·.relationCount)) := by
  have source : parentheses " FROM " = [] := by decide
  have filter : parentheses " WHERE " = [] := by decide
  unfold Fetch.ConditionShownAs
  cases asked : fetch.qualifier with
  | none =>
    rw [asked] at resolved
    cases resolved
    refine ⟨[.text " FROM ", .identifier entity.table], [], ?_, rfl, rfl, .plain [] ?_⟩
    · simp [Group.Plain, source]
    · simp
  | some qualifier =>
    rw [asked] at resolved
    obtain ⟨built, found, same⟩ := Except.bind_eq_ok.mp resolved
    cases same
    obtain ⟨groups, shown, written⟩ :=
      resolve_shown qualifier found [] [] (held.trans (List.append_nil _).symm)
    refine ⟨[.text " FROM ", .identifier entity.table, .text " WHERE "], groups, ?_, shown, ?_,
      holds_shown qualifier shown⟩
    · simp [Group.Plain, source, filter]
    · simp [Statement.fromWhere, written]

/-- The parentheses of a command that reads are closed in the order in which they were opened, and between
its head and its order stand the groups that show the qualifier, with a subquery for each relation that a
path names, nested as deep as the qualifier. -/
theorem subqueries_follow_relations {command : Command}
    (asked : request = .select fetch ∨ request = .count fetch)
    (compiled : compiler.compile request = .ok command) :
    ∃ statement entity before inside after,
      compiler.statement request = .ok statement ∧
      command.text = compiler.reading command.parameters statement.number.pieces ∧
      compiler.model.entity fetch.entity = .ok entity ∧
      fetch.ConditionShownAs compiler.model command.parameters entity inside ∧
      statement.number.pieces = before ++ Group.piecesOfAll inside ++ after ∧
      Group.read statement.number.pieces =
        some (before.map .single ++ inside ++ after.map .single) ∧
      statement.number.pieces.count (.text " IN (SELECT ") =
        fetch.qualifier.elim 0 (·.relationCount) ∧
      Group.depths (before.map .single ++ inside ++ after.map .single) =
        fetch.qualifier.elim 0 (·.depth) := by
  rw [Compiler.compile_eq_finish] at compiled
  obtain ⟨statement, built, rfl⟩ := finish_eq_ok compiled
  obtain ⟨entity, condition, head, tail, known, resolved, operands, written, plainHead, plainTail⟩ :=
    statement_parts asked built
  have held : (statement.command compiler.writer compiler.quoting).parameters.map (·.operand) =
      statement.operands := Binder.operands_bindAll .empty statement.operands
  obtain ⟨source, inside, plainSource, shown, filtered, holds⟩ :=
    fromWhere_shown resolved (held.trans operands)
  have whole := ((Group.Holds.plain _ (List.forall_mem_append.mpr ⟨plainHead, plainSource⟩)).append
    holds).append (.plain tail plainTail)
  rw [Nat.zero_max, Nat.max_zero, Nat.zero_add, Nat.add_zero] at whole
  have pieces : statement.number.pieces = Group.piecesOfAll
      ((head ++ source).map .single ++ inside ++ tail.map .single) := by
    rw [written, filtered, Group.piecesOfAll_append, Group.piecesOfAll_append,
      Group.piecesOfAll_single, Group.piecesOfAll_single]
    simp only [List.append_assoc]
  refine ⟨statement, entity, head ++ source, inside, tail, built, text_command statement, known, shown,
    ?_, ?_, ?_, whole.nested⟩
  · rw [written, filtered, List.append_assoc head]
    simp only [List.append_assoc]
  · rw [pieces, Group.read_piecesOfAll whole.proper]
  · rw [pieces, whole.subqueries]

end

-- Customers with an order that is kept, and with more than ten of something on one line.
def keptBulkBuyers : Fetch :=
  { bulkBuyers with
    qualifier := some (.all [.path ["orders"] (.any [.column "id" ⟨.equals, .integer 7⟩]),
      .path ["orders", "lines"] (.property "quantity" ⟨.greaterThan, .integer 10⟩)]) }

theorem kept_bulk_buyers_nested :
    ∃ command statement groups,
      (⟨customerOrders, Dialect.sqlite.writer, true⟩ : Compiler).compile (.select keptBulkBuyers) =
        .ok command ∧
      (⟨customerOrders, Dialect.sqlite.writer, true⟩ : Compiler).statement (.select keptBulkBuyers) =
        .ok statement ∧
      Group.read statement.number.pieces = some groups ∧
      statement.number.pieces.count (.text " IN (SELECT ") = 3 ∧ Group.depths groups = 2 := by
  obtain ⟨command, compiled⟩ : ∃ command,
      (⟨customerOrders, Dialect.sqlite.writer, true⟩ : Compiler).compile (.select keptBulkBuyers) =
        .ok command := ⟨_, rfl⟩
  obtain ⟨statement, entity, before, inside, after, built, -, -, -, -, read, subqueries, deep⟩ :=
    subqueries_follow_relations (.inl rfl) compiled
  exact ⟨command, statement, _, compiled, built, read, subqueries.trans (by decide),
    deep.trans (by decide)⟩

end Sql

end RelationalMapper
