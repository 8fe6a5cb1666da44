set_option autoImplicit false

namespace RelationalMapper

structure Assoc (κ ν : Type) where
  entries : List (κ × ν)
deriving DecidableEq

namespace Assoc

variable {κ ν : Type}

def empty : Assoc κ ν := ⟨[]⟩

def keys (map : Assoc κ ν) : List κ :=
  map.entries.map (·.1)

variable [DecidableEq κ]

def lookup : List (κ × ν) → κ → Option ν
  | [], _ => none
  | (key, value) :: rest, wanted => if key = wanted then some value else lookup rest wanted

def replaceOrAppend (key : κ) (value : ν) : List (κ × ν) → List (κ × ν)
  | [] => [(key, value)]
  | (first, held) :: rest =>
    if first = key then (key, value) :: rest else (first, held) :: replaceOrAppend key value rest

def get? (map : Assoc κ ν) (key : κ) : Option ν :=
  lookup map.entries key

def contains (map : Assoc κ ν) (key : κ) : Bool :=
  (map.get? key).isSome

-- The new value takes the place of an older one of the same key.
def insert (map : Assoc κ ν) (key : κ) (value : ν) : Assoc κ ν :=
  ⟨replaceOrAppend key value map.entries⟩

def erase (map : Assoc κ ν) (key : κ) : Assoc κ ν :=
  ⟨map.entries.filter (fun entry => !decide (entry.1 = key))⟩

def modify (map : Assoc κ ν) (key : κ) (change : ν → ν) : Assoc κ ν :=
  match map.get? key with
  | some value => map.insert key (change value)
  | none => map

def ofList (entries : List (κ × ν)) : Assoc κ ν :=
  entries.foldl (fun map entry => map.insert entry.1 entry.2) empty

def agrees [DecidableEq ν] (first second : Assoc κ ν) : Bool :=
  first.keys.all (fun key => first.get? key = second.get? key) &&
    second.keys.all (fun key => first.get? key = second.get? key)

@[simp] theorem get?_empty (key : κ) : (empty : Assoc κ ν).get? key = none := rfl

theorem get?_insert (map : Assoc κ ν) (key wanted : κ) (value : ν) :
    (map.insert key value).get? wanted = if key = wanted then some value else map.get? wanted := by
  obtain ⟨entries⟩ := map
  simp only [get?, insert]
  induction entries with
  | nil => simp [replaceOrAppend, lookup]
  | cons entry rest ih =>
    obtain ⟨first, held⟩ := entry
    by_cases same : first = key
    · subst same
      by_cases found : first = wanted <;> simp [replaceOrAppend, lookup, found]
    · by_cases found : first = wanted
      · subst found
        simp [replaceOrAppend, lookup, same, Ne.symm same]
      · simp [replaceOrAppend, lookup, same, found, ih]

theorem get?_erase (map : Assoc κ ν) (key wanted : κ) :
    (map.erase key).get? wanted = if key = wanted then none else map.get? wanted := by
  obtain ⟨entries⟩ := map
  simp only [get?, erase]
  induction entries with
  | nil => simp [lookup]
  | cons entry rest ih =>
    obtain ⟨first, held⟩ := entry
    by_cases same : first = key
    · subst same
      by_cases found : first = wanted
      · simpa [found] using ih
      · simpa [lookup, found] using ih
    · by_cases found : first = wanted
      · subst found
        simp [lookup, same, Ne.symm same]
      · simpa [lookup, same, found] using ih

end Assoc

end RelationalMapper
