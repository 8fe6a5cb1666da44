import RelationalMapper.Value

set_option autoImplicit false

namespace RelationalMapper.Sql

inductive Truth where
  | yes
  | unknown
  | no
deriving DecidableEq

namespace Truth

def ofBool : Bool → Truth
  | true => yes
  | false => no

def and : Truth → Truth → Truth
  | yes, other => other
  | no, _ => no
  | unknown, no => no
  | unknown, _ => unknown

def or : Truth → Truth → Truth
  | yes, _ => yes
  | no, other => other
  | unknown, yes => yes
  | unknown, _ => unknown

def all (parts : List Truth) : Truth :=
  parts.foldr and yes

def any (parts : List Truth) : Truth :=
  parts.foldr or no

@[simp] theorem ofBool_eq_yes {holds : Bool} : ofBool holds = yes ↔ holds = true := by
  cases holds <;> simp [ofBool]

@[simp] theorem and_eq_yes {first second : Truth} :
    first.and second = yes ↔ first = yes ∧ second = yes := by
  cases first <;> cases second <;> simp [and]

@[simp] theorem or_eq_yes {first second : Truth} :
    first.or second = yes ↔ first = yes ∨ second = yes := by
  cases first <;> cases second <;> simp [or]

@[simp] theorem all_cons (first : Truth) (rest : List Truth) :
    all (first :: rest) = first.and (all rest) :=
  rfl

@[simp] theorem any_cons (first : Truth) (rest : List Truth) :
    any (first :: rest) = first.or (any rest) :=
  rfl

theorem any_eq_yes {parts : List Truth} : any parts = yes ↔ yes ∈ parts := by
  induction parts with
  | nil => simp [any]
  | cons first rest ih => rw [any_cons, or_eq_yes, ih, List.mem_cons, eq_comm]

end Truth

abbrev Operators := String → Value → Value → Bool

namespace Operators

variable {operators : Operators} {operator : String} {left right : Value}

def compare (operators : Operators) (operator : String) (left right : Value) : Truth :=
  if left = .null ∨ right = .null then .unknown else .ofBool (operators operator left right)

def Relate (operators : Operators) (operator : String) (left right : Value) : Prop :=
  left ≠ .null ∧ right ≠ .null ∧ operators operator left right = true

theorem compare_eq_yes :
    operators.compare operator left right = .yes ↔ operators.Relate operator left right := by
  unfold compare Relate
  split
  next missing =>
    constructor
    · intro impossible
      cases impossible
    · rintro ⟨here, there, _⟩
      exact absurd missing (not_or.mpr ⟨here, there⟩)
  next present =>
    obtain ⟨here, there⟩ := not_or.mp present
    simp [here, there]

end Operators

end RelationalMapper.Sql
