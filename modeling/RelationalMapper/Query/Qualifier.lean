import RelationalMapper.Query.Comparison

set_option autoImplicit false

namespace RelationalMapper

inductive Qualifier where
  | column (name : String) (predicate : Predicate)
  | property (name : String) (predicate : Predicate)
  | all (children : List Qualifier)
  | any (children : List Qualifier)
  | path (relations : List String) (terminal : Qualifier)
deriving Inhabited

namespace Qualifier

mutual

def decideEq : (first second : Qualifier) → Decidable (first = second)
  | .column name predicate, .column name' predicate' =>
    if same : name = name' ∧ predicate = predicate' then
      .isTrue (by rw [same.1, same.2])
    else .isFalse (fun equal => same (by cases equal; exact ⟨rfl, rfl⟩))
  | .property name predicate, .property name' predicate' =>
    if same : name = name' ∧ predicate = predicate' then
      .isTrue (by rw [same.1, same.2])
    else .isFalse (fun equal => same (by cases equal; exact ⟨rfl, rfl⟩))
  | .all children, .all children' =>
    match decideEqList children children' with
    | .isTrue same => .isTrue (by rw [same])
    | .isFalse differ => .isFalse (fun equal => differ (by cases equal; rfl))
  | .any children, .any children' =>
    match decideEqList children children' with
    | .isTrue same => .isTrue (by rw [same])
    | .isFalse differ => .isFalse (fun equal => differ (by cases equal; rfl))
  | .path relations terminal, .path relations' terminal' =>
    if same : relations = relations' then
      match decideEq terminal terminal' with
      | .isTrue alike => .isTrue (by rw [same, alike])
      | .isFalse differ => .isFalse (fun equal => differ (by cases equal; rfl))
    else .isFalse (fun equal => same (by cases equal; rfl))
  -- Qualifiers of different kinds.
  | .column .., .property .. | .column .., .all .. | .column .., .any .. | .column .., .path ..
  | .property .., .column .. | .property .., .all .. | .property .., .any ..
  | .property .., .path .. | .all .., .column .. | .all .., .property .. | .all .., .any ..
  | .all .., .path .. | .any .., .column .. | .any .., .property .. | .any .., .all ..
  | .any .., .path .. | .path .., .column .. | .path .., .property .. | .path .., .all ..
  | .path .., .any .. => .isFalse (by simp)

def decideEqList : (first second : List Qualifier) → Decidable (first = second)
  | [], [] => .isTrue rfl
  | [], _ :: _ | _ :: _, [] => .isFalse (by simp)
  | head :: tail, head' :: tail' =>
    match decideEq head head' with
    | .isTrue same =>
      match decideEqList tail tail' with
      | .isTrue alike => .isTrue (by rw [same, alike])
      | .isFalse differ => .isFalse (fun equal => differ (by cases equal; rfl))
    | .isFalse differ => .isFalse (fun equal => differ (by cases equal; rfl))

end

instance : DecidableEq Qualifier := decideEq

mutual

def depth : Qualifier → Nat
  | .column .. | .property .. => 0
  | .all children | .any children => depths children
  | .path relations terminal => relations.length + terminal.depth

def depths : List Qualifier → Nat
  | [] => 0
  | child :: rest => max child.depth (depths rest)

end

end Qualifier

inductive SortDirection where
  | ascending
  | descending
deriving DecidableEq, Inhabited

namespace SortDirection

def keyword : SortDirection → String
  | ascending => "asc"
  | descending => "desc"

def ofKeyword? : String → Option SortDirection
  | "asc" => some ascending
  | "desc" => some descending
  | _ => none

end SortDirection

structure SortOrdering where
  property : String
  direction : SortDirection
deriving DecidableEq

structure Fetch where
  entity : String
  qualifier : Option Qualifier
  orderings : List SortOrdering
  limit : Option Nat
deriving DecidableEq

def Fetch.all (entity : String) : Fetch :=
  ⟨entity, none, [], none⟩

end RelationalMapper
