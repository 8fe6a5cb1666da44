import RelationalMapper.Proofs.Sql.Guarded
import RelationalMapper.Proofs.Sql.OnePass

/-!
Looking delimited names up. A script can be written out by a compiler that keeps the delimited form of
every name it has met, and by one that keeps nothing and works the form out each time. At every stroke
the first has in mind just the names written by then, each in the form that the dialect gives it, so the
two never differ. What is compiled from a whole statement is what they write.
-/

set_option autoImplicit false

namespace RelationalMapper.Sql

structure Naming (μ : Type) where
  start : μ
  form : μ → String → String × μ

structure Draft (μ : Type) where
  text : List Char
  binder : Binder
  memory : μ

namespace Draft

variable {μ : Type} (style : PlaceholderStyle) (naming : Naming μ)

def blank : Draft μ :=
  ⟨[], .empty, naming.start⟩

def refer (draft : Draft μ) : Draft μ :=
  let position := draft.binder.parameters.length
  let name := (draft.binder.parameters[position - 1]?).elim "" (·.name)
  { draft with text := draft.text ++ (style.placeholder name position).toList }

def stroke (draft : Draft μ) : Stroke → Draft μ
  | .text content => { draft with text := draft.text ++ content.toList }
  | .identifier name =>
    let (form, memory) := naming.form draft.memory name
    { draft with text := draft.text ++ form.toList, memory }
  | .bind operand => { draft with binder := draft.binder.bind operand }.refer style
  | .again => draft.refer style

def write (draft : Draft μ) (strokes : List Stroke) : Draft μ :=
  strokes.foldl (stroke style naming) draft

def command (draft : Draft μ) : Command :=
  ⟨String.ofList draft.text, draft.binder.parameters⟩

end Draft

namespace Compiler

variable (compiler : Compiler)

def remembering : Naming DelimitedNames :=
  ⟨.empty, Rendering.identifier ⟨compiler.writer, compiler.quoting, []⟩⟩

def afresh : Naming Unit :=
  ⟨(), fun _ name => (compiler.shown name, ())⟩

def draft {μ : Type} (naming : Naming μ) (strokes : List Stroke) : Draft μ :=
  (Draft.blank naming).write compiler.writer.style naming strokes

-- What was written before a fault is given up.
def writeOut {μ : Type} (naming : Naming μ) (script : Script) : Except Fault Command :=
  match script.fault with
  | none => .ok (compiler.draft naming script.strokes).command
  | some fault => .error fault

end Compiler

theorem Binder.parameters_prefix (binder : Binder) (operands : List Operand) :
    binder.parameters <+: (binder.bindAll operands).parameters := by
  induction operands generalizing binder with
  | nil => exact List.prefix_refl _
  | cons operand rest ih => exact (List.prefix_append _ _).trans (ih (binder.bind operand))

namespace Draft

variable {μ : Type} (style : PlaceholderStyle) (naming : Naming μ)

theorem binder_write (draft : Draft μ) (strokes : List Stroke) :
    (draft.write style naming strokes).binder = draft.binder.bindAll (spell strokes).operands := by
  induction strokes generalizing draft with
  | nil => rfl
  | cons stroke rest ih =>
    have next := ih (draft.stroke style naming stroke)
    cases stroke <;> exact next

theorem parameters_write (draft : Draft μ) (strokes : List Stroke) :
    draft.binder.parameters <+: (draft.write style naming strokes).binder.parameters := by
  rw [binder_write]
  exact draft.binder.parameters_prefix _

end Draft

section

variable {compiler : Compiler}

variable (compiler) in
-- The parameters bound so far are the first of those bound in the end.
theorem text_refer {μ : Type} (draft : Draft μ) {index : Nat} {parameters : List Parameter}
    (last : draft.binder.parameters.length = index + 1)
    (first : draft.binder.parameters <+: parameters) :
    (draft.refer compiler.writer.style).text = draft.text ++
      Rendering.written ⟨compiler.writer, compiler.quoting, parameters⟩ (.parameter (index + 1)) := by
  obtain ⟨later, rfl⟩ := first
  rw [Rendering.written, Rendering.nameAt, Nat.add_sub_cancel, List.getElem?_append_left (by omega),
    Draft.refer, last, Nat.add_sub_cancel]

theorem text_write (draft : Draft DelimitedNames) (strokes : List Stroke)
    {parameters : List Parameter}
    (all : (draft.write compiler.writer.style compiler.remembering strokes).binder.parameters =
      parameters)
    (placed : 0 ∉ references ((spell strokes).pieces draft.binder.parameters.length)) :
    (draft.write compiler.writer.style compiler.remembering strokes).text = draft.text ++
      Rendering.write ⟨compiler.writer, compiler.quoting, parameters⟩ draft.memory
        ((spell strokes).pieces draft.binder.parameters.length) := by
  induction strokes generalizing draft with
  | nil => exact (List.append_nil _).symm
  | cons stroke rest ih =>
    have next := ih (draft.stroke compiler.writer.style compiler.remembering stroke) all
    have first : (draft.stroke compiler.writer.style compiler.remembering stroke).binder.parameters <+:
        parameters := by
      rw [← all]
      exact Draft.parameters_write compiler.writer.style compiler.remembering _ rest
    cases stroke with
    | text content => exact (next placed).trans (List.append_assoc ..)
    | identifier name => exact (next placed).trans (List.append_assoc ..)
    | bind operand =>
      have last : (draft.binder.bind operand).parameters.length =
        draft.binder.parameters.length + 1 := List.length_append
      have shown := text_refer compiler { draft with binder := draft.binder.bind operand } last first
      rw [Draft.stroke, shown, List.append_assoc] at next
      have placed' : 0 ∉ references ((spell rest).pieces (draft.binder.parameters.length + 1)) :=
        fun member => placed (List.mem_cons_of_mem _ member)
      rw [← last] at placed'
      refine (next placed').trans ?_
      change _ = _ ++ Rendering.write _ _ (.parameter _ :: (spell rest).pieces (_ + 1))
      rw [← last]
      rfl
    | again =>
      have present : draft.binder.parameters.length ≠ 0 := fun none => placed (by
        rw [none]
        exact List.mem_cons_self)
      obtain ⟨index, last⟩ := Nat.exists_eq_succ_of_ne_zero present
      rw [Draft.stroke, text_refer compiler draft last first, List.append_assoc] at next
      have placed' : 0 ∉ references ((spell rest).pieces draft.binder.parameters.length) :=
        fun member => placed (List.mem_cons_of_mem _ member)
      refine (next placed').trans ?_
      rw [← Nat.succ_eq_add_one, ← last]
      rfl

theorem command_draft {strokes : List Stroke} {statement : Statement Operand}
    (spelt : (spell strokes).whole = statement.whole) :
    (compiler.draft compiler.remembering strokes).command =
      statement.command compiler.writer compiler.quoting := by
  obtain ⟨pieces, operands⟩ := Prod.mk.inj spelt
  have bound : (compiler.draft compiler.remembering strokes).binder.parameters =
      (Binder.empty.bindAll statement.operands).parameters := by
    rw [Compiler.draft, Draft.binder_write, operands]
    rfl
  have placed : 0 ∉ references ((spell strokes).pieces 0) := by
    rw [pieces, statement.references_pieces]
    intro member
    have := statement.places_within 0 member
    omega
  have written := text_write (Draft.blank compiler.remembering) strokes bound placed
  unfold Draft.command Statement.command
  rw [bound]
  congr 1
  exact congrArg String.ofList (written.trans (congrArg (Rendering.write _ .empty) pieces))

theorem compile_eq_writeOut (compiler : Compiler) (request : Request) :
    compiler.compile request = compiler.writeOut compiler.remembering (compiler.script request) := by
  have spelt := compiler.whole_script request
  rw [Compiler.compile_eq_finish]
  generalize compiler.script request = script, compiler.statement request = statement at spelt ⊢
  obtain ⟨strokes, fault⟩ := script
  cases fault with
  | some fault =>
    cases statement with
    | error other =>
      cases spelt
      rfl
    | ok statement => cases spelt
  | none =>
    cases statement with
    | error fault => cases spelt
    | ok statement => exact congrArg Except.ok (command_draft (Except.ok.inj spelt)).symm

end

/-- What is kept in mind are the names written so far, in the form of the dialect, or nothing at all
where names are not delimited. -/
structure Compiler.Recalls (compiler : Compiler) (strokes : List Stroke) (memory : DelimitedNames) :
    Prop where
  recalled : ∀ name form, memory.get? name = some form ↔
    compiler.quoting = true ∧ .identifier name ∈ strokes ∧ form = compiler.writer.delimited name
  untouched : compiler.quoting = false → memory = .empty

namespace Compiler

variable {compiler : Compiler} {memory : DelimitedNames} {name : String}

theorem form_of_unquoted (quoting : compiler.quoting = false) :
    compiler.remembering.form memory name = (name, memory) := by
  simp [remembering, Rendering.identifier, quoting]

theorem form_of_met (quoting : compiler.quoting = true) {delimited : String}
    (met : memory.get? name = some delimited) :
    compiler.remembering.form memory name = (delimited, memory) := by
  simp [remembering, Rendering.identifier, quoting, met]

theorem form_of_unmet (quoting : compiler.quoting = true) (unmet : memory.get? name = none) :
    compiler.remembering.form memory name =
      (compiler.writer.delimited name, memory.insert name (compiler.writer.delimited name)) := by
  simp [remembering, Rendering.identifier, quoting, unmet]

end Compiler

namespace Compiler.Recalls

variable {compiler : Compiler} {strokes : List Stroke} {memory : DelimitedNames}

theorem nothing : compiler.Recalls [] .empty where
  recalled name form := by simp
  untouched _ := rfl

theorem remembers (recalls : compiler.Recalls strokes memory) :
    Rendering.Remembers ⟨compiler.writer, compiler.quoting, []⟩ memory :=
  fun name form found => ((recalls.recalled name form).mp found).2.2

theorem other (recalls : compiler.Recalls strokes memory) {stroke : Stroke}
    (nameless : ∀ name, stroke ≠ .identifier name) :
    compiler.Recalls (strokes ++ [stroke]) memory where
  recalled name form := by simp [recalls.recalled, (nameless name).symm]
  untouched := recalls.untouched

theorem identifier (recalls : compiler.Recalls strokes memory) (name : String) :
    compiler.Recalls (strokes ++ [.identifier name]) (compiler.remembering.form memory name).2 := by
  cases quoting : compiler.quoting with
  | false =>
    rw [form_of_unquoted quoting]
    exact ⟨by simp [recalls.recalled, quoting], recalls.untouched⟩
  | true =>
    refine ⟨fun other form => ?_, fun off => absurd off (by simp [quoting])⟩
    cases met : memory.get? name with
    | some delimited =>
      have listed := ((recalls.recalled name delimited).mp met).2.1
      rw [form_of_met quoting met, recalls.recalled]
      by_cases here : other = name
      · subst here
        simp [listed]
      · simp [here]
    | none =>
      rw [form_of_unmet quoting met, Assoc.get?_insert]
      by_cases here : name = other
      · subst here
        simp [quoting, eq_comm]
      · simp [here, recalls.recalled, Ne.symm here]

end Compiler.Recalls

structure Draft.Alike (compiler : Compiler) (strokes : List Stroke) (first : Draft DelimitedNames)
    (second : Draft Unit) : Prop where
  text : first.text = second.text
  binder : first.binder = second.binder
  recalls : compiler.Recalls strokes first.memory

namespace Draft.Alike

variable {compiler : Compiler} {strokes : List Stroke} {first : Draft DelimitedNames}
  {second : Draft Unit}

theorem refer (alike : Alike compiler strokes first second) (style : PlaceholderStyle) :
    (first.refer style).text = (second.refer style).text := by
  rw [Draft.refer, Draft.refer, alike.text, alike.binder]

theorem stroke (alike : Alike compiler strokes first second) (style : PlaceholderStyle)
    (stroke : Stroke) : Alike compiler (strokes ++ [stroke])
      (first.stroke style compiler.remembering stroke) (second.stroke style compiler.afresh stroke) := by
  cases stroke with
  | text content =>
    exact ⟨congrArg (· ++ content.toList) alike.text, alike.binder, alike.recalls.other nofun⟩
  | identifier name =>
    have form := (Rendering.identifier_eq alike.recalls.remembers name).1
    refine ⟨?_, alike.binder, alike.recalls.identifier name⟩
    change first.text ++ _ = second.text ++ _
    rw [alike.text]
    exact congrArg (second.text ++ ·.toList) form
  | bind operand =>
    have bound : Alike compiler strokes { first with binder := first.binder.bind operand }
        { second with binder := second.binder.bind operand } :=
      ⟨alike.text, congrArg (·.bind operand) alike.binder, alike.recalls⟩
    exact ⟨bound.refer style, bound.binder, bound.recalls.other nofun⟩
  | again => exact ⟨alike.refer style, alike.binder, alike.recalls.other nofun⟩

theorem write (alike : Alike compiler strokes first second) (style : PlaceholderStyle)
    (later : List Stroke) : Alike compiler (strokes ++ later)
      (first.write style compiler.remembering later) (second.write style compiler.afresh later) := by
  induction later generalizing strokes first second with
  | nil =>
    rw [List.append_nil]
    exact alike
  | cons stroke rest ih =>
    rw [List.append_cons]
    exact ih (alike.stroke style stroke)

end Draft.Alike

theorem draft_alike (compiler : Compiler) (strokes : List Stroke) : Draft.Alike compiler strokes
    (compiler.draft compiler.remembering strokes) (compiler.draft compiler.afresh strokes) := by
  have blank : Draft.Alike compiler [] (.blank compiler.remembering) (.blank compiler.afresh) :=
    ⟨rfl, rfl, .nothing⟩
  exact blank.write compiler.writer.style strokes

theorem writeOut_afresh (compiler : Compiler) (script : Script) :
    compiler.writeOut compiler.remembering script = compiler.writeOut compiler.afresh script := by
  have alike := draft_alike compiler script.strokes
  unfold Compiler.writeOut Draft.command
  rw [alike.text, alike.binder]

/-- A request is compiled to the command, or the fault, of a compiler that writes in one pass and
delimits each name anew wherever it writes it, and so it is by one that looks delimited names up. What
the latter has in mind at any point, whatever it has written, are the names written by then in the forms
of the dialect, and nothing where names are not delimited. -/
theorem delimited_as_if_afresh (compiler : Compiler) :
    (∀ request,
      compiler.compile request = compiler.writeOut compiler.afresh (compiler.script request) ∧
      compiler.compile request = compiler.writeOut compiler.remembering (compiler.script request)) ∧
    ∀ strokes, compiler.Recalls strokes (compiler.draft compiler.remembering strokes).memory := by
  refine ⟨fun request => ?_, fun strokes => (draft_alike compiler strokes).recalls⟩
  have looked := compile_eq_writeOut compiler request
  exact ⟨looked.trans (writeOut_afresh compiler _), looked⟩

-- A name that stands twice is in mind once.
example :
    let compiler : Compiler := ⟨.empty, Dialect.ansi.writer, true⟩
    let draft := compiler.draft compiler.remembering [.identifier "Order", .identifier "Order"]
    draft.text = "\"Order\"\"Order\"".toList ∧ draft.memory.entries = [("Order", "\"Order\"")] := by
  decide

end RelationalMapper.Sql
