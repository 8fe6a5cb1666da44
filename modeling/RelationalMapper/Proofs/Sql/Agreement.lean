import RelationalMapper.Proofs.Sql.Outline

set_option autoImplicit false

namespace RelationalMapper.Sql

inductive Span where
  | fixed (content : String)
  | placeholder (name : String) (position : Nat)

def Span.text (style : PlaceholderStyle) : Span → String
  | .fixed content => content
  | .placeholder name position => style.placeholder name position

def Command.Shows (command : Command) (spans : List Span) : Prop :=
  ∀ name position, .placeholder name position ∈ spans →
    1 ≤ position ∧ (command.parameters[position - 1]?).map (·.name) = some name

/-- Two commands with the same parameters and with texts that differ in the spelling of placeholders. -/
def Command.Agrees (style other : PlaceholderStyle) (first second : Command) : Prop :=
  first.parameters = second.parameters ∧ ∃ spans, first.Shows spans ∧
    first.text = String.join (spans.map (Span.text style)) ∧
    second.text = String.join (spans.map (Span.text other))

namespace Rendering

def span (rendering : Rendering) : Piece → Span
  | .text content => .fixed content
  | .identifier name => .fixed (if rendering.quoting then rendering.writer.delimited name else name)
  | .parameter position => .placeholder (rendering.nameAt position) position

theorem text_span (rendering : Rendering) (piece : Piece) :
    ((rendering.span piece).text rendering.writer.style).toList = rendering.written piece := by
  cases piece <;> rfl

theorem write_eq_spans (rendering : Rendering) (pieces : List Piece) :
    String.ofList (rendering.write .empty pieces) =
      String.join ((pieces.map rendering.span).map (Span.text rendering.writer.style)) := by
  rw [write_eq_flatMap remembers_empty]
  induction pieces with
  | nil => rfl
  | cons piece rest ih =>
    rw [List.map_cons, List.map_cons, String.join_cons, ← ih, List.flatMap_cons, String.ofList_append,
      ← text_span, String.ofList_toList]

-- What is fixed hangs on how a dialect delimits names and not on how it spells placeholders.
theorem span_congr {writer other : Writer} (delimited : writer.delimited = other.delimited)
    (quoting : Bool) (parameters : List Parameter) :
    span ⟨writer, quoting, parameters⟩ = span ⟨other, quoting, parameters⟩ := by
  funext piece
  cases piece with
  | identifier name => rw [span, span, delimited]
  | text | parameter => rfl

end Rendering

theorem Statement.command_agrees (statement : Statement Operand) {writer other : Writer}
    (delimited : writer.delimited = other.delimited) (quoting : Bool) :
    (statement.command writer quoting).Agrees writer.style other.style
      (statement.command other quoting) := by
  refine ⟨rfl, statement.number.pieces.map (Rendering.span ⟨writer, quoting,
    (statement.command writer quoting).parameters⟩), ?_, ?_, ?_⟩
  · intro name position listed
    obtain ⟨piece, member, same⟩ := List.mem_map.mp listed
    cases piece with
    | text | identifier => cases same
    | parameter =>
      cases same
      have referred := mem_references member
      obtain ⟨index, parameter, rfl, held, named⟩ := parameter_of_reference writer quoting referred
      refine ⟨by omega, ?_⟩
      rw [Nat.add_sub_cancel, held, named]
      rfl
  · exact Rendering.write_eq_spans _ _
  · rw [Rendering.span_congr delimited]
    exact Rendering.write_eq_spans _ _

def compileIn (model : Model) (quoting : Bool) (request : Request) (dialect : Dialect) :
    Except Fault Command :=
  (⟨model, dialect.writer, quoting⟩ : Compiler).compile request

section

variable {model : Model} (writer other : Writer)

theorem selectStatement_congr (limits : writer.writesLimit = true) (limits' : other.writesLimit = true)
    (fetch : Fetch) : selectStatement model writer fetch = selectStatement model other fetch := by
  unfold selectStatement Writer.checkLimit
  rw [limits, limits']
  rfl

theorem selectStatement_unlimited {fetch : Fetch} (unlimited : fetch.limit = none) :
    selectStatement model writer fetch = selectStatement model other fetch := by
  unfold selectStatement
  rw [unlimited]

-- The limit is the last thing that is looked at.
theorem selectStatement_limited (limits : writer.writesLimit = true)
    (without : other.writesLimit = false) {fetch : Fetch} {limit : Nat}
    (limited : fetch.limit = some limit) :
    selectStatement model other fetch =
      selectStatement model writer fetch >>= fun _ => .error (.unsupportedLimit limit other.kind) := by
  unfold selectStatement Writer.checkLimit
  rw [limits, without, limited, bind_assoc]
  refine congrArg _ (funext fun entity => ?_)
  rw [bind_assoc]
  refine congrArg _ (funext fun condition => ?_)
  rw [bind_assoc]
  rfl

theorem statement_congr (quoting : Bool) {request : Request}
    (agree : request.limit = none ∨ writer.writesLimit = true ∧ other.writesLimit = true) :
    Compiler.statement ⟨model, writer, quoting⟩ request =
      Compiler.statement ⟨model, other, quoting⟩ request := by
  cases request with
  | count | insert | update | delete => rfl
  | select fetch =>
    rcases agree with unlimited | ⟨limits, limits'⟩
    · exact selectStatement_unlimited writer other unlimited
    · exact selectStatement_congr writer other limits limits' fetch

variable {quoting : Bool} {request : Request}

theorem compileIn_agrees (dialect other : Dialect) (agree : request.limit = none ∨
      dialect.writer.writesLimit = true ∧ other.writer.writesLimit = true) :
    Together (Command.Agrees dialect.writer.style other.writer.style)
      (compileIn model quoting request dialect) (compileIn model quoting request other) := by
  have delimited : dialect.writer.delimited = other.writer.delimited := by
    cases dialect <;> cases other <;> rfl
  unfold compileIn
  rw [Compiler.compile_eq_finish, Compiler.compile_eq_finish, statement_congr _ _ quoting agree]
  cases Compiler.statement ⟨model, other.writer, quoting⟩ request with
  | error fault => exact .failed fault
  | ok statement => exact .answered (statement.command_agrees delimited quoting)

theorem compileIn_ansi {limit : Nat} (limited : request.limit = some limit) :
    compileIn model quoting request .ansi = compileIn model quoting request .sqlite >>= fun _ =>
      .error (.unsupportedLimit limit .ansi) := by
  cases request with
  | count | insert | update | delete => cases limited
  | select fetch =>
    have refused : selectStatement model Dialect.ansi.writer fetch = _ :=
      selectStatement_limited Dialect.sqlite.writer _ rfl rfl limited
    unfold compileIn
    rw [Compiler.compile_eq_finish, Compiler.compile_eq_finish, Compiler.statement, Compiler.statement,
      refused]
    cases selectStatement model Dialect.sqlite.writer fetch <;> rfl

end

/-- The built-in dialects fail alike or agree on every request, except that one of them refuses a select
with a limit, once nothing else is wrong with it. -/
theorem dialects_agree (model : Model) (quoting : Bool) (request : Request) :
    Together (Command.Agrees .colon .numbered) (compileIn model quoting request .sqlite)
        (compileIn model quoting request .postgresql) ∧
      match request.limit with
      | none => Together (Command.Agrees .colon .atSign) (compileIn model quoting request .sqlite)
          (compileIn model quoting request .ansi)
      | some limit => (Fault.unsupportedLimit limit .ansi).category = .unsupportedFeature ∧
          compileIn model quoting request .ansi = compileIn model quoting request .sqlite >>= fun _ =>
            .error (.unsupportedLimit limit .ansi) := by
  constructor
  · exact compileIn_agrees .sqlite .postgresql (.inr ⟨rfl, rfl⟩)
  · cases limited : request.limit with
    | none => exact compileIn_agrees .sqlite .ansi (.inl limited)
    | some limit => exact ⟨rfl, compileIn_ansi limited⟩

end RelationalMapper.Sql
