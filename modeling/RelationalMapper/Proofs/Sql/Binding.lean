import RelationalMapper.Proofs.Schema.Lookup
import RelationalMapper.Sql.Command

set_option autoImplicit false

namespace RelationalMapper.Sql

theorem boundName_inj {column : String} {first second : Nat} :
    boundName column first = boundName column second ↔ first = second := by
  unfold boundName
  rw [String.append_right_inj, Nat.toString_eq_repr, Nat.toString_eq_repr]
  constructor
  · intro same
    have digits := congrArg (fun text => Nat.ofDigitChars 10 text.toList 0) same
    simpa using digits
  · intro same
    rw [same]

theorem lt_nextNumber (column : String) (last : Nat) (taken : List String) :
    last < nextNumber column last taken := by
  induction last, taken using nextNumber.induct column with
  | case1 last taken met ih =>
    rw [nextNumber, if_pos met]
    omega
  | case2 last taken free =>
    rw [nextNumber, if_neg free]
    omega

theorem boundName_nextNumber_notMem (column : String) (last : Nat) (taken : List String) :
    boundName column (nextNumber column last taken) ∉ taken := by
  induction last, taken using nextNumber.induct column with
  | case1 last taken met ih =>
    rw [nextNumber, if_pos met]
    have beyond := lt_nextNumber column (last + 1) (taken.erase (boundName column (last + 1)))
    have other : boundName column (nextNumber column (last + 1)
        (taken.erase (boundName column (last + 1)))) ≠ boundName column (last + 1) := by
      intro same
      have := boundName_inj.mp same
      omega
    rwa [List.mem_erase_of_ne other] at ih
  | case2 last taken free =>
    rwa [nextNumber, if_neg free]

def Parameter.operand (parameter : Parameter) : Operand :=
  ⟨parameter.column, parameter.value⟩

namespace Binder

theorem operands_bindAll (binder : Binder) (operands : List Operand) :
    (binder.bindAll operands).parameters.map (·.operand) =
      binder.parameters.map (·.operand) ++ operands := by
  induction operands generalizing binder with
  | nil => simp [bindAll]
  | cons operand rest ih =>
    change ((binder.bind operand).bindAll rest).parameters.map _ = _
    rw [ih]
    simp [bind, Parameter.operand]

theorem nodup_bind {binder : Binder} (operand : Operand)
    (distinct : (binder.parameters.map (·.name)).Nodup) :
    ((binder.bind operand).parameters.map (·.name)).Nodup := by
  have fresh := boundName_nextNumber_notMem operand.column.name binder.last
    (binder.parameters.map (·.name))
  simp only [bind, List.map_append, List.map_cons, List.map_nil]
  rw [← List.concat_eq_append]
  exact distinct.concat fresh

theorem nodup_bindAll {binder : Binder} (operands : List Operand)
    (distinct : (binder.parameters.map (·.name)).Nodup) :
    ((binder.bindAll operands).parameters.map (·.name)).Nodup := by
  induction operands generalizing binder with
  | nil => exact distinct
  | cons operand rest ih => exact ih (nodup_bind operand distinct)

end Binder

namespace Command

/-- The parameter that a store finds for the placeholder of a position, which shows either the
position or the name of the parameter there. -/
def bound? (command : Command) (style : PlaceholderStyle) (position : Nat) : Option Parameter :=
  match style with
  | .numbered => command.parameters[position - 1]?
  | .atSign | .colon =>
    (command.parameters[position - 1]?).bind fun parameter => command.parameter? parameter.name

theorem bound?_eq_getElem? {command : Command} (style : PlaceholderStyle)
    (distinct : (command.parameters.map (·.name)).Nodup) (position : Nat) :
    command.bound? style position = command.parameters[position - 1]? := by
  have by_name : ((command.parameters[position - 1]?).bind fun parameter =>
      command.parameter? parameter.name) = command.parameters[position - 1]? := by
    cases here : command.parameters[position - 1]? with
    | none => rfl
    | some parameter =>
      rw [Option.bind_some, parameter?, find?_key distinct (List.mem_of_getElem? here)]
  cases style with
  | numbered => rfl
  | atSign | colon => exact by_name

end Command

theorem Statement.bound?_command (statement : Statement Operand) (writer : Writer) (quoting : Bool)
    (index : Nat) :
    ((statement.command writer quoting).bound? writer.style (index + 1)).map (·.operand) =
      statement.operands[index]? := by
  have distinct : ((statement.command writer quoting).parameters.map (·.name)).Nodup :=
    Binder.nodup_bindAll statement.operands .nil
  rw [Command.bound?_eq_getElem? writer.style distinct, Nat.add_sub_cancel, ← List.getElem?_map]
  exact congrArg (·[index]?) (Binder.operands_bindAll .empty statement.operands)

end RelationalMapper.Sql
