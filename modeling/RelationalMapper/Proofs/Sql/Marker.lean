import Mathlib.Data.List.TakeWhile
import RelationalMapper.Proofs.Sql.Quoting

set_option autoImplicit false

namespace RelationalMapper.Sql

def isWord (char : Char) : Bool :=
  char.isAlphanum || char = '_'

def Wordlike (name : String) : Prop :=
  ∀ char ∈ name.toList, isWord char = true

instance (name : String) : Decidable (Wordlike name) :=
  decidable_of_iff (name.toList.all isWord = true) List.all_eq_true

/-- The names that a store finds in a text: what is run on with after each marker outside of quotes. -/
def markedNames (marker : Char) (inside : Bool) : List Char → List String
  | [] => []
  | char :: rest =>
    if char = '"' then markedNames marker (!inside) rest
    else if char = marker ∧ inside = false then
      String.ofList (rest.takeWhile isWord) :: markedNames marker inside rest
    else markedNames marker inside rest

theorem wordlike_boundName {column : String} {number : Nat} :
    Wordlike (boundName column number) ↔ Wordlike column := by
  have digits : ∀ char ∈ (toString number).toList, isWord char = true := by
    intro char counted
    simp [isWord, Char.isAlphanum, isDigit_of_mem_toString counted]
  simp only [Wordlike, boundName, String.toList_append, List.forall_mem_append]
  exact and_iff_left digits

theorem takeWhile_isWord_eq_nil {rest : List Char} (divided : ∀ char ∈ rest.head?, char ∈ dividers) :
    rest.takeWhile isWord = [] := by
  have apart : ∀ char ∈ dividers, isWord char = false := by simp [dividers, isWord]
  cases rest with
  | nil => rfl
  | cons char rest => simp [apart char (divided char rfl)]

theorem takeWhile_isWord_eq_iff {name rest : List Char}
    (divided : ∀ char ∈ rest.head?, char ∈ dividers) :
    (name ++ rest).takeWhile isWord = name ↔ ∀ char ∈ name, isWord char = true := by
  constructor
  · intro run char member
    rw [← run] at member
    exact List.mem_takeWhile_imp member
  · intro wordlike
    rw [List.takeWhile_append_of_pos wordlike, takeWhile_isWord_eq_nil divided, List.append_nil]

section

variable {marker : Char}

theorem markedNames_skip {chars : List Char} (unquoted : '"' ∉ chars) (unmarked : marker ∉ chars)
    (rest : List Char) : markedNames marker false (chars ++ rest) = markedNames marker false rest := by
  induction chars with
  | nil => rfl
  | cons char chars ih =>
    simp only [List.mem_cons, not_or] at unquoted unmarked
    rw [List.cons_append, markedNames, if_neg (Ne.symm unquoted.1),
      if_neg fun same => unmarked.1 same.1.symm, ih unquoted.2 unmarked.2]

theorem markedNames_doubleQuotes (marker : Char) (name rest : List Char) :
    markedNames marker true (doubleQuotes name ++ rest) = markedNames marker true rest := by
  induction name with
  | nil => rfl
  | cons char name ih =>
    by_cases quote : char = '"' <;> simpa [doubleQuotes, quote, markedNames] using ih

theorem markedNames_delimit (name : String) (rest : List Char) :
    markedNames marker false ((delimit name).toList ++ rest) = markedNames marker false rest := by
  have closing := markedNames_doubleQuotes marker name.toList ('"' :: rest)
  simpa [delimit, markedNames] using closing

theorem Wordlike.notMem {name : String} (wordlike : Wordlike name) {char : Char}
    (other : isWord char = false) : char ∉ name.toList := by
  intro member
  rw [wordlike char member] at other
  cases other

theorem markedNames_name {name : String} (wordlike : Wordlike name) (other : isWord marker = false)
    (apart : marker ≠ '"') {rest : List Char} (divided : ∀ char ∈ rest.head?, char ∈ dividers) :
    markedNames marker false (marker :: (name.toList ++ rest)) =
      name :: markedNames marker false rest := by
  rw [markedNames, if_neg apart, if_pos ⟨rfl, rfl⟩, (takeWhile_isWord_eq_iff divided).mpr wordlike,
    String.ofList_toList, markedNames_skip (wordlike.notMem (by decide)) (wordlike.notMem other)]

end

theorem Laid.divided_after {limit : Option Nat} {before after : List Piece} {position : Nat}
    (laid : Laid limit (before ++ .parameter position :: after)) : Divided after := by
  induction before with
  | nil => exact laid.1
  | cons piece rest ih => cases piece <;> exact ih laid.2

namespace PlaceholderStyle

theorem marker_plain (style : PlaceholderStyle) : isWord style.marker = false ∧ style.marker ≠ '"' ∧
    (∀ word ∈ words, style.marker ∉ word.toList) ∧ style.marker ∉ " LIMIT ".toList ∧
    style.marker.isDigit = false := by
  cases style <;> decide

theorem shown_of_named {style : PlaceholderStyle} (named : style ≠ .numbered) (name : String)
    (position : Nat) : style.shown name position = name := by
  cases style with
  | atSign | colon => rfl
  | numbered => contradiction

end PlaceholderStyle

namespace Rendering

variable (rendering : Rendering)

theorem written_of_named (named : rendering.writer.style ≠ .numbered) (position : Nat) :
    rendering.written (.parameter position) =
      rendering.writer.style.marker :: (rendering.nameAt position).toList := by
  rw [written, PlaceholderStyle.toList_placeholder, PlaceholderStyle.shown_of_named named]

theorem markedNames_written (named : rendering.writer.style ≠ .numbered)
    (delimits : rendering.writer.delimited = delimit) (quotes : rendering.quoting = true)
    {limit : Option Nat} {pieces : List Piece} (laid : Laid limit pieces)
    (wordlike : ∀ position ∈ references pieces, Wordlike (rendering.nameAt position)) :
    markedNames rendering.writer.style.marker false (pieces.flatMap rendering.written) =
      (references pieces).map rendering.nameAt := by
  obtain ⟨other, apart, unused, unlimited, plain⟩ := rendering.writer.style.marker_plain
  induction pieces with
  | nil => rfl
  | cons piece rest ih =>
    rw [List.flatMap_cons]
    cases piece with
    | text content =>
      rw [written, markedNames_skip (laid.1.notMem (by decide) (by decide) (by decide))
        (laid.1.notMem unused unlimited plain)]
      exact ih laid.2 wordlike
    | identifier name =>
      rw [written, if_pos quotes, delimits, markedNames_delimit]
      exact ih laid.2 wordlike
    | parameter position =>
      obtain ⟨here, later⟩ := List.forall_mem_cons.mp wordlike
      rw [rendering.written_of_named named, List.cons_append,
        markedNames_name here other apart (laid.1.head rendering), ih laid.2 later]
      rfl

end Rendering

namespace Statement

-- The converse of `places_within`: whatever is bound is referred to.
theorem mem_places {α : Type} (statement : Statement α) {position : Nat} (low : 1 ≤ position)
    (high : position ≤ statement.operands.length) : position ∈ statement.places := by
  cases statement with
  | select | count | insert =>
    simp only [operands, List.length_map] at high
    exact List.mem_range'_1.mpr ⟨low, by omega⟩
  | update table assignments locks =>
    simp only [operands, List.length_append, List.length_map] at high
    by_cases assigned : position ≤ assignments.length
    · exact List.mem_append_left _ (List.mem_range'_1.mpr ⟨low, by omega⟩)
    · refine List.mem_append_right _ (List.mem_flatMap.mpr ⟨position, ?_, by simp⟩)
      exact List.mem_range'_1.mpr ⟨by omega, by omega⟩
  | delete table locks =>
    simp only [operands, List.length_map] at high
    exact List.mem_flatMap.mpr ⟨position, List.mem_range'_1.mpr ⟨low, by omega⟩, by simp⟩

variable {statement : Statement Operand} {writer : Writer} {quoting : Bool} {limit : Option Nat}

theorem follows_placeholder (named : writer.style ≠ .numbered) (laid : Laid limit statement.number.pieces)
    {before after : List Piece} {position : Nat}
    (split : statement.number.pieces = before ++ .parameter position :: after) :
    ∃ index parameter following, position = index + 1 ∧
      (statement.command writer quoting).parameters[index]? = some parameter ∧
      (statement.command writer quoting).text.toList = before.flatMap (Rendering.written
        ⟨writer, quoting, (statement.command writer quoting).parameters⟩) ++
          writer.style.marker :: following ∧
      (following.takeWhile isWord = parameter.name.toList ↔ Wordlike parameter.column.name) := by
  have referred : position ∈ references statement.number.pieces := by simp [split, references]
  obtain ⟨index, parameter, rfl, held, shown⟩ := parameter_of_reference writer quoting referred
  obtain ⟨number, spelt⟩ := parameter_named (List.mem_of_getElem? held)
  have divided := (split ▸ laid).divided_after
  refine ⟨index, parameter, parameter.name.toList ++ after.flatMap (Rendering.written
    ⟨writer, quoting, (statement.command writer quoting).parameters⟩), rfl, held, ?_, ?_⟩
  · rw [toList_text, split, List.flatMap_append, List.flatMap_cons,
      Rendering.written_of_named _ named, shown]
    rfl
  · rw [takeWhile_isWord_eq_iff (divided.head _), ← wordlike_boundName, ← spelt]
    rfl

theorem wordlike_nameAt (wordlike : ∀ parameter ∈ (statement.command writer quoting).parameters,
      Wordlike parameter.column.name) : ∀ position ∈ references statement.number.pieces,
    Wordlike (Rendering.nameAt ⟨writer, quoting, (statement.command writer quoting).parameters⟩
      position) := by
  intro position referred
  obtain ⟨index, parameter, -, held, shown⟩ := parameter_of_reference writer quoting referred
  have bound := List.mem_of_getElem? held
  obtain ⟨number, spelt⟩ := parameter_named bound
  rw [shown, spelt]
  exact wordlike_boundName.mpr (wordlike parameter bound)

theorem mem_names_iff {name : String} : name ∈ (references statement.number.pieces).map
      (Rendering.nameAt ⟨writer, quoting, (statement.command writer quoting).parameters⟩) ↔
    name ∈ (statement.command writer quoting).parameters.map (·.name) := by
  rw [List.mem_map, List.mem_map]
  constructor
  · rintro ⟨position, referred, rfl⟩
    obtain ⟨index, parameter, -, held, shown⟩ := parameter_of_reference writer quoting referred
    exact ⟨parameter, List.mem_of_getElem? held, shown.symm⟩
  · rintro ⟨parameter, bound, rfl⟩
    obtain ⟨index, within, rfl⟩ := List.getElem_of_mem bound
    refine ⟨index + 1, ?_, by simp [Rendering.nameAt, List.getElem?_eq_getElem within]⟩
    rw [length_parameters] at within
    rw [references_pieces]
    exact statement.mem_places (by omega) (by omega)

end Statement

/-- A store reads the bound name off a placeholder just if the name of its column is made of word
characters. If those of all bound columns are, it finds the names of the parameters in the order of the
placeholders, and leaves none of them out. -/
theorem placeholder_read_back_iff {compiler : Compiler} {request : Request} {command : Command}
    (named : compiler.writer.style ≠ .numbered) (compiled : compiler.compile request = .ok command) :
    ∃ statement, compiler.statement request = .ok statement ∧
      (∀ before position after, statement.number.pieces = before ++ .parameter position :: after →
        ∃ index parameter following, position = index + 1 ∧
          command.parameters[index]? = some parameter ∧
          command.text.toList = before.flatMap (Rendering.written
            ⟨compiler.writer, compiler.quoting, command.parameters⟩) ++
              compiler.writer.style.marker :: following ∧
          (following.takeWhile isWord = parameter.name.toList ↔ Wordlike parameter.column.name)) ∧
      (compiler.quoting = true → compiler.writer.delimited = delimit →
        (∀ parameter ∈ command.parameters, Wordlike parameter.column.name) →
        markedNames compiler.writer.style.marker false command.text.toList =
            (references statement.number.pieces).map (Rendering.nameAt
              ⟨compiler.writer, compiler.quoting, command.parameters⟩) ∧
          ∀ name, name ∈ markedNames compiler.writer.style.marker false command.text.toList ↔
            name ∈ command.parameters.map (·.name)) := by
  rw [Compiler.compile_eq_finish] at compiled
  obtain ⟨statement, built, rfl⟩ := finish_eq_ok compiled
  have laid := Compiler.laid built
  refine ⟨statement, built, fun _ _ _ => Statement.follows_placeholder named laid, ?_⟩
  intro quotes delimits wordlike
  rw [Statement.toList_text, Rendering.markedNames_written ⟨compiler.writer, compiler.quoting, _⟩ named
    delimits quotes laid (Statement.wordlike_nameAt wordlike)]
  exact ⟨rfl, fun name => Statement.mem_names_iff⟩

-- One column's name is of two words, and the other's of one.
def people : Model :=
  ⟨[⟨"Person", "People", [⟨"Id", "Id", true, false, none⟩, .named "first name"], []⟩]⟩

def peopleBy (column : String) (value : Value) : Fetch :=
  ⟨"Person", some (.column column ⟨.equals, value⟩), [], none⟩

theorem first_name_cut_short :
    ∃ command other,
      (⟨people, Dialect.ansi.writer, true⟩ : Compiler).compile
          (.count (peopleBy "first name" (.text "Ann"))) = .ok command ∧
        command.parameters.map (·.name) = ["first name1"] ∧
        (∃ before following, command.text.toList = before ++ '@' :: following ∧
          following.takeWhile isWord ≠ "first name1".toList) ∧
        (⟨people, Dialect.sqlite.writer, true⟩ : Compiler).compile
          (.count (peopleBy "Id" (.integer 5))) = .ok other ∧
        markedNames ':' false other.text.toList = ["Id1"] := by
  obtain ⟨command, compiled⟩ : ∃ command, (⟨people, Dialect.ansi.writer, true⟩ : Compiler).compile
      (.count (peopleBy "first name" (.text "Ann"))) = .ok command := ⟨_, rfl⟩
  obtain ⟨other, plainly⟩ : ∃ command, (⟨people, Dialect.sqlite.writer, true⟩ : Compiler).compile
      (.count (peopleBy "Id" (.integer 5))) = .ok command := ⟨_, rfl⟩
  have bound : command.parameters = [⟨.named "first name", "first name1", .text "Ann"⟩] := by
    cases compiled
    cbv
  have plain : other.parameters =
      [⟨⟨"Id", "Id", true, false, none⟩, "Id1", .integer 5⟩] := by
    cases plainly
    cbv
  obtain ⟨statement, built, each, -⟩ := placeholder_read_back_iff (by decide) compiled
  obtain ⟨second, also, -, all⟩ := placeholder_read_back_iff (by decide) plainly
  refine ⟨command, other, compiled, by rw [bound]; rfl, ?_, plainly, ?_⟩
  · cases built
    obtain ⟨index, parameter, following, same, held, reads, back⟩ := each [_, _, _, _, _, _] 1 [] rfl
    cases same
    rw [bound] at held
    cases held
    exact ⟨_, following, reads, mt back.mp (by decide)⟩
  · cases also
    rw [plain] at all
    exact (all rfl rfl (by decide)).1

end RelationalMapper.Sql
