import RelationalMapper.Proofs.Sql.Meaning

set_option autoImplicit false

namespace RelationalMapper.Sql

def EndsInDigit (name : String) : Prop :=
  ∃ last ∈ name.toList.getLast?, last.isDigit = true

instance (name : String) : Decidable (EndsInDigit name) :=
  inferInstanceAs (Decidable (∃ last ∈ name.toList.getLast?, last.isDigit = true))

theorem takeWhile_boundName {column : String} (wordy : ¬EndsInDigit column) (number : Nat) :
    (boundName column number).toList.reverse.takeWhile Char.isDigit =
      (Nat.toDigits 10 number).reverse := by
  have digits : ∀ char ∈ (Nat.toDigits 10 number).reverse, char.isDigit = true := by
    intro char member
    exact Nat.isDigit_of_mem_toDigits (by decide) (by decide) (List.mem_reverse.mp member)
  have nothing : column.toList.reverse.takeWhile Char.isDigit = [] := by
    cases spelt : column.toList.reverse with
    | nil => rfl
    | cons last rest =>
      have ends : last ∈ column.toList.getLast? := by
        rw [← List.head?_reverse, spelt]
        rfl
      have plain : last.isDigit = false := by
        by_contra digit
        exact wordy ⟨last, ends, by simpa using digit⟩
      simp [plain]
  simp [boundName, List.takeWhile_append_of_pos digits, nothing]

theorem number_eq_of_boundName {first second : String} {number other : Nat}
    (firstWordy : ¬EndsInDigit first) (secondWordy : ¬EndsInDigit second)
    (same : boundName first number = boundName second other) : number = other := by
  have digits := takeWhile_boundName firstWordy number
  rw [same, takeWhile_boundName secondWordy] at digits
  have read := congrArg (Nat.ofDigitChars 10 · 0) (List.reverse_inj.mp digits)
  simpa using read.symm

/-- The parameters bear the names of their columns with these numbers, which rise from one, and none is
left out unless the name of some column ends in a digit. -/
structure Numbering (parameters : List Parameter) (numbers : List Nat) : Prop where
  named : List.Forall₂ (fun parameter number =>
    parameter.name = boundName parameter.column.name number) parameters numbers
  rising : numbers.Pairwise (· < ·)
  positive : ∀ number ∈ numbers, 1 ≤ number
  complete : (∀ parameter ∈ parameters, ¬EndsInDigit parameter.column.name) →
    numbers = List.range' 1 parameters.length

namespace Numbering

variable {parameters : List Parameter} {numbers : List Nat}

theorem exists_of_mem (numbering : Numbering parameters numbers) {name : String}
    (member : name ∈ parameters.map (·.name)) :
    ∃ parameter ∈ parameters, ∃ number ∈ numbers, name = boundName parameter.column.name number := by
  obtain ⟨named, -, -, -⟩ := numbering
  induction named with
  | nil => simp at member
  | cons same _ ih =>
    simp only [List.map_cons, List.mem_cons] at member
    rcases member with rfl | later
    · exact ⟨_, List.mem_cons_self, _, List.mem_cons_self, same⟩
    · obtain ⟨parameter, listed, number, among, same⟩ := ih later
      exact ⟨parameter, .tail _ listed, number, .tail _ among, same⟩

theorem nextNumber_eq (numbering : Numbering parameters numbers) {last : Nat}
    (bounded : ∀ number ∈ numbers, number ≤ last)
    (wordy : ∀ parameter ∈ parameters, ¬EndsInDigit parameter.column.name) {column : String}
    (plain : ¬EndsInDigit column) :
    nextNumber column last (parameters.map (·.name)) = last + 1 := by
  rw [nextNumber, if_neg]
  intro taken
  obtain ⟨parameter, listed, number, among, same⟩ := numbering.exists_of_mem taken
  have := number_eq_of_boundName plain (wordy parameter listed) same
  have := bounded number among
  omega

end Numbering

namespace Binder

structure Numbers (binder : Binder) (numbers : List Nat) : Prop where
  numbering : Numbering binder.parameters numbers
  bounded : ∀ number ∈ numbers, number ≤ binder.last
  counted : (∀ parameter ∈ binder.parameters, ¬EndsInDigit parameter.column.name) →
    binder.last = binder.parameters.length

theorem numbers_empty : empty.Numbers [] := by
  constructor
  · constructor <;> simp [empty]
  all_goals simp [empty]

theorem Numbers.bind {binder : Binder} {numbers : List Nat} (held : binder.Numbers numbers)
    (operand : Operand) : (binder.bind operand).Numbers (numbers ++ [(binder.bind operand).last]) := by
  have beyond : binder.last < (binder.bind operand).last := lt_nextNumber ..
  have consecutive (wordy : ∀ parameter ∈ (binder.bind operand).parameters,
      ¬EndsInDigit parameter.column.name) : (binder.bind operand).last = binder.last + 1 := by
    simp only [Binder.bind, List.forall_mem_append, List.forall_mem_singleton] at wordy
    exact held.numbering.nextNumber_eq held.bounded wordy.1 wordy.2
  have before (wordy : ∀ parameter ∈ (binder.bind operand).parameters,
      ¬EndsInDigit parameter.column.name) :
      ∀ parameter ∈ binder.parameters, ¬EndsInDigit parameter.column.name :=
    fun parameter listed => wordy parameter (List.mem_append_left _ listed)
  refine ⟨⟨?named, ?rising, ?positive, ?complete⟩, ?bounded, ?counted⟩
  case named => exact List.rel_append held.numbering.named (.cons rfl .nil)
  case rising =>
    apply List.pairwise_append.mpr
    refine ⟨held.numbering.rising, List.pairwise_singleton _ _, ?_⟩
    intro number among last same
    rw [List.mem_singleton.mp same]
    have := held.bounded number among
    omega
  case positive =>
    intro number among
    rcases List.mem_append.mp among with earlier | last
    · exact held.numbering.positive number earlier
    · rw [List.mem_singleton.mp last]
      omega
  case complete =>
    intro wordy
    have length : (binder.bind operand).parameters.length = binder.parameters.length + 1 := by
      simp [Binder.bind]
    rw [length, List.range'_concat, ← held.numbering.complete (before wordy), consecutive wordy,
      held.counted (before wordy)]
    simp [Nat.add_comm]
  case bounded =>
    intro number among
    rcases List.mem_append.mp among with earlier | last
    · have := held.bounded number earlier
      omega
    · have := List.mem_singleton.mp last
      omega
  case counted =>
    intro wordy
    rw [consecutive wordy, held.counted (before wordy)]
    simp [Binder.bind]

theorem Numbers.bindAll {binder : Binder} {numbers : List Nat} (held : binder.Numbers numbers)
    (operands : List Operand) : ∃ all, (binder.bindAll operands).Numbers all := by
  induction operands generalizing binder numbers with
  | nil => exact ⟨numbers, held⟩
  | cons operand rest ih => exact ih (held.bind operand)

end Binder

inductive Request where
  | select (fetch : Fetch)
  | count (fetch : Fetch)
  | insert (row : RowReader) (columns : List String)
  | update (row : RowReader)
  | delete (row : RowReader)

def Request.limit : Request → Option Nat
  | .select fetch => fetch.limit
  | .count _ | .insert .. | .update _ | .delete _ => none

def Compiler.compile (compiler : Compiler) : Request → Except Fault Command
  | .select fetch => compiler.select fetch
  | .count fetch => compiler.count fetch
  | .insert row columns => compiler.insert row columns
  | .update row => compiler.update row
  | .delete row => compiler.delete row

def Compiler.statement (compiler : Compiler) : Request → Except Fault (Statement Operand)
  | .select fetch => selectStatement compiler.model compiler.writer fetch
  | .count fetch => countStatement compiler.model fetch
  | .insert row columns => insertStatement compiler.model row columns
  | .update row => updateStatement compiler.model row
  | .delete row => deleteStatement compiler.model row

theorem Compiler.compile_eq_finish (compiler : Compiler) (request : Request) :
    compiler.compile request = compiler.finish (compiler.statement request) := by
  cases request <;> rfl

theorem Compiler.compile_eq_ok {compiler : Compiler} {request : Request} {command : Command}
    (compiled : compiler.compile request = .ok command) :
    ∃ statement : Statement Operand, command = statement.command compiler.writer compiler.quoting := by
  cases request
  all_goals
    obtain ⟨statement, -, same⟩ := finish_eq_ok compiled
    exact ⟨statement, same⟩

/-- Bound names rise in their numbers and are told apart by a look-up; the numbers are the positions
wherever no column has a name that ends in a digit. -/
theorem names_in_order {compiler : Compiler} {request : Request} {command : Command}
    (compiled : compiler.compile request = .ok command) :
    ∃ numbers, Numbering command.parameters numbers ∧ (command.parameters.map (·.name)).Nodup ∧
      ∀ parameter ∈ command.parameters, command.parameter? parameter.name = some parameter := by
  obtain ⟨statement, rfl⟩ := Compiler.compile_eq_ok compiled
  obtain ⟨numbers, held⟩ := Binder.numbers_empty.bindAll statement.operands
  have distinct : ((statement.command compiler.writer compiler.quoting).parameters.map (·.name)).Nodup :=
    Binder.nodup_bindAll statement.operands .nil
  exact ⟨numbers, held.numbering, distinct, fun parameter listed => find?_key distinct listed⟩

-- Eleven readings by `Id` after one by `Id1`, so that the first name is met again.
def twelveReadings : Fetch :=
  ⟨"Reading", some (.any (.column "Id1" ⟨.equals, .integer 0⟩ ::
    List.replicate 11 (.column "Id" ⟨.equals, .integer 1⟩))), [], none⟩

def readings : Model :=
  ⟨[⟨"Reading", "Readings", [⟨"Id", "Id", true, false, none⟩, .named "Id1"], []⟩]⟩

theorem met_name_skipped :
    ∃ command numbers,
      (⟨readings, Dialect.ansi.writer, true⟩ : Compiler).compile (.count twelveReadings) = .ok command ∧
        Numbering command.parameters numbers ∧
        command.parameters.map (·.name) = ["Id11", "Id2", "Id3", "Id4", "Id5", "Id6", "Id7", "Id8",
          "Id9", "Id10", "Id12", "Id13"] := by
  obtain ⟨command, compiled⟩ : ∃ command,
      (⟨readings, Dialect.ansi.writer, true⟩ : Compiler).compile (.count twelveReadings) = .ok command :=
    ⟨_, rfl⟩
  obtain ⟨numbers, numbering, -⟩ := names_in_order compiled
  refine ⟨command, numbers, compiled, numbering, ?_⟩
  cases compiled
  cbv

end RelationalMapper.Sql
