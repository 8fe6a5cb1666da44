import Mathlib.Order.Bounds.Basic
import Mathlib.Tactic.Ring
import RelationalMapper.Proofs.Sql.Binding

set_option autoImplicit false

namespace RelationalMapper.Sql

/-- The rounds of a search: each counts up by one and tries the name, and the first free name ends it. -/
inductive Search (column : String) (taken : List String) : Nat → Nat → Nat → Prop
  | ends {last : Nat} (free : boundName column (last + 1) ∉ taken) :
    Search column taken last 1 (last + 1)
  | goesOn {last rounds number : Nat} (met : boundName column (last + 1) ∈ taken)
    (rest : Search column taken (last + 1) rounds number) :
    Search column taken last (rounds + 1) number

namespace Search

variable {column : String} {taken : List String} {last rounds number : Nat}

theorem number_eq (search : Search column taken last rounds number) : number = last + rounds := by
  induction search with
  | ends free => rfl
  | goesOn met rest ih => omega

theorem isLeast (search : Search column taken last rounds number) :
    IsLeast {number | last < number ∧ boundName column number ∉ taken} number := by
  induction search with
  | @ends last free =>
    constructor
    · exact ⟨Nat.lt_succ_self last, free⟩
    · intro other reached
      exact reached.1
  | @goesOn last rounds number met rest ih =>
    have beyond := rest.number_eq
    constructor
    · exact ⟨by omega, ih.1.2⟩
    · intro other reached
      -- The name just after `last` is taken, so a free one lies beyond it.
      have passed : other ≠ last + 1 := by
        intro same
        exact reached.2 (same ▸ met)
      have above := reached.1
      exact ih.2 ⟨by omega, reached.2⟩

theorem of_erase {earlier : Nat} (reached : earlier ≤ last)
    (search : Search column (taken.erase (boundName column earlier)) last rounds number) :
    Search column taken last rounds number := by
  have other : ∀ later, earlier < later → boundName column later ≠ boundName column earlier := by
    intro later beyond same
    have := boundName_inj.mp same
    omega
  induction search with
  | @ends last free =>
    rw [List.mem_erase_of_ne (other (last + 1) (by omega))] at free
    exact .ends free
  | @goesOn last rounds number met rest ih =>
    exact .goesOn (List.mem_of_mem_erase met) (ih (by omega))

end Search

theorem search_nextNumber (column : String) (last : Nat) (taken : List String) :
    ∃ rounds ≤ taken.length + 1,
      Search column taken last rounds (nextNumber column last taken) := by
  induction last, taken using nextNumber.induct column with
  | case1 last taken met ih =>
    obtain ⟨rounds, bounded, search⟩ := ih
    have shorter := List.length_erase_of_mem met
    have some_taken := List.length_pos_of_mem met
    rw [nextNumber, if_pos met]
    exact ⟨rounds + 1, by omega, .goesOn met (search.of_erase (Nat.le_refl _))⟩
  | case2 last taken free =>
    rw [nextNumber, if_neg free]
    exact ⟨1, by omega, .ends free⟩

theorem search_iff {column : String} {taken : List String} {last rounds number : Nat} :
    Search column taken last rounds number ↔
      number = nextNumber column last taken ∧ number = last + rounds := by
  obtain ⟨found, -, known⟩ := search_nextNumber column last taken
  constructor
  · intro search
    exact ⟨search.isLeast.unique known.isLeast, search.number_eq⟩
  · intro same
    have := known.number_eq
    have counted : rounds = found := by omega
    rw [same.1, counted]
    exact known

namespace Binder

structure Bounded (binder : Binder) : Prop where
  names : (binder.parameters.map (·.name)).Nodup
  atLeast : binder.parameters.length ≤ binder.last
  atMost : 2 * binder.last ≤ binder.parameters.length * (binder.parameters.length + 1)

theorem Bounded.bind {binder : Binder} (bounds : binder.Bounded) (operand : Operand) :
    (binder.bind operand).Bounded := by
  obtain ⟨rounds, bounded, search⟩ := search_nextNumber operand.column.name binder.last
    (binder.parameters.map (·.name))
  have counted : (binder.bind operand).last = binder.last + rounds := search.number_eq
  have moved : binder.last < (binder.bind operand).last := lt_nextNumber ..
  have longer : (binder.bind operand).parameters.length = binder.parameters.length + 1 := by
    simp [Binder.bind]
  have started := bounds.atLeast
  have kept := bounds.atMost
  rw [List.length_map] at bounded
  constructor
  case names => exact nodup_bind operand bounds.names
  case atLeast => omega
  case atMost =>
    have next : (binder.parameters.length + 1) * (binder.parameters.length + 1 + 1) =
        binder.parameters.length * (binder.parameters.length + 1) +
          2 * (binder.parameters.length + 1) := by
      ring
    rw [longer, counted, next]
    omega

theorem Bounded.bindAll {binder : Binder} (bounds : binder.Bounded) (operands : List Operand) :
    (binder.bindAll operands).Bounded := by
  induction operands generalizing binder with
  | nil => exact bounds
  | cons operand rest ih => exact ih (bounds.bind operand)

theorem bounded_empty : empty.Bounded :=
  ⟨.nil, Nat.le_refl 0, Nat.le_refl 0⟩

theorem length_bindAll (binder : Binder) (operands : List Operand) :
    (binder.bindAll operands).parameters.length = binder.parameters.length + operands.length := by
  have counted := congrArg List.length (operands_bindAll binder operands)
  simpa using counted

/-- After any operands, the search for the name of one more has one outcome. It is over after at most
one round more than there are names, at the least number above the last one whose name is free. -/
theorem number_after_binding (operands : List Operand) (operand : Operand) :
    let binder := empty.bindAll operands
    let taken := binder.parameters.map (·.name)
    let number := (binder.bind operand).last
    taken.Nodup ∧ taken.length = operands.length ∧
      (∃ rounds ≤ operands.length + 1,
        ∀ tried reached, Search operand.column.name taken binder.last tried reached ↔
          tried = rounds ∧ reached = number) ∧
      IsLeast {free | binder.last < free ∧ boundName operand.column.name free ∉ taken} number ∧
      operands.length ≤ binder.last ∧
      binder.last ≤ operands.length * (operands.length + 1) / 2 := by
  intro binder taken number
  have bounds : binder.Bounded := bounded_empty.bindAll operands
  have counted : binder.parameters.length = operands.length :=
    (length_bindAll empty operands).trans (Nat.zero_add _)
  have named : taken.length = operands.length := by
    rw [← counted]
    exact List.length_map _
  obtain ⟨rounds, bounded, search⟩ := search_nextNumber operand.column.name binder.last taken
  have outcome : ∀ tried reached, Search operand.column.name taken binder.last tried reached ↔
      tried = rounds ∧ reached = number := by
    intro tried reached
    have ended := search.number_eq
    rw [search_iff]
    constructor
    · intro found
      exact ⟨by omega, found.1⟩
    · intro found
      exact ⟨found.2, by rw [found.1, found.2]; exact ended⟩
  have least := bounds.atLeast
  have most := bounds.atMost
  rw [counted] at least most
  rw [named] at bounded
  exact ⟨bounds.names, named, ⟨rounds, bounded, outcome⟩, search.isLeast, least, by omega⟩

end Binder

end RelationalMapper.Sql
