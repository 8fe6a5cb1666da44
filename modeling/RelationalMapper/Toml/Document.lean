set_option autoImplicit false

namespace RelationalMapper.Toml

/-- How a table came to be: by its own header, on the way to another header, by dotted keys, or inline. -/
inductive Origin where
  | header
  | implied
  | dotted
  | inline
deriving DecidableEq

-- An `unreadable` literal has the form of a number and no value.
inductive Item where
  | text (content : String)
  | integer (number : Int)
  | real (literal : String)
  | unreadable (literal : String)
  | bool (truth : Bool)
  | moment (literal : String)
  | array (ofTables : Bool) (items : List Item)
  | table (origin : Origin) (entries : List (String × Item))
deriving Inhabited

mutual

def Item.isReadable : Item → Bool
  | .unreadable _ => false
  | .array _ items => itemsReadable items
  | .table _ entries => entriesReadable entries
  | .text _ | .integer _ | .real _ | .bool _ | .moment _ => true

def itemsReadable : List Item → Bool
  | [] => true
  | item :: rest => item.isReadable && itemsReadable rest

def entriesReadable : List (String × Item) → Bool
  | [] => true
  | (_, item) :: rest => item.isReadable && entriesReadable rest

end

abbrev Entries := List (String × Item)

namespace Entries

def get? (entries : Entries) (key : String) : Option Item :=
  List.lookup key entries

def put (key : String) (item : Item) : Entries → Entries
  | [] => [(key, item)]
  | (first, held) :: rest =>
    if first = key then (key, item) :: rest else (first, held) :: put key item rest

def remove (entries : Entries) (key : String) : Entries :=
  entries.filter fun entry => entry.1 ≠ key

/-- Changes the table at the end of a path, opening the tables that are missing. A header passes
through the last table of an array of tables; a dotted key passes only through open tables. -/
def within (dotted : Bool) (change : Origin → Entries → Option Entries) :
    List String → Origin → Entries → Option Entries
  | [], origin, entries => change origin entries
  | key :: rest, _, entries =>
    match entries.get? key with
    | none => do
      let origin := if dotted then .dotted else .implied
      let inner ← within dotted change rest origin []
      return entries.put key (.table origin inner)
    | some (.table origin inner) =>
      -- Dotted keys must not add to a table that has a header of its own.
      if origin = .inline ∨ (dotted ∧ origin = .header) then none
      else do
        let inner ← within dotted change rest origin inner
        return entries.put key (.table origin inner)
    | some (.array true items) =>
      match items.getLast? with
      | some (.table origin inner) => do
        let inner ← within dotted change rest origin inner
        return entries.put key (.array true (items.dropLast ++ [.table origin inner]))
      | _ => none
    | some _ => none

def assign (entries : Entries) (origin : Origin) (path : List String) (key : String) (item : Item) :
    Option Entries :=
  within true (fun origin entries =>
    if (origin = .dotted) = path.isEmpty ∨ (entries.get? key).isSome then none
    else some (entries.put key item)) path origin entries

end Entries

structure Header where
  path : List String
  key : String
  ofTables : Bool

structure Draft where
  root : Entries
  header : Option Header
  current : Entries

namespace Draft

def empty : Draft :=
  ⟨[], none, []⟩

def close (draft : Draft) : Option Entries :=
  match draft.header with
  | none => some draft.current
  | some header =>
    Entries.within false (fun _ entries =>
      let table := Item.table .header draft.current
      if header.ofTables then
        match entries.get? header.key with
        | none => some (entries.put header.key (.array true [table]))
        | some (.array true items) => some (entries.put header.key (.array true (items ++ [table])))
        | some _ => none
      else some (entries.put header.key table)) header.path .header draft.root

def found? (entries : Entries) : List String → String → Option Item
  | [], key => entries.get? key
  | first :: rest, key =>
    match entries.get? first with
    | some (.table _ inner) => found? inner rest key
    | some (.array true items) =>
      match items.getLast? with
      | some (.table _ inner) => found? inner rest key
      | _ => none
    | _ => none

-- A header opens a new table, or one that so far only stood on the way to others.
def start (draft : Draft) (header : Header) : Option Draft := do
  let root ← draft.close
  let held := found? root header.path header.key
  if header.ofTables then
    match held with
    | none | some (.array true _) => return ⟨root, some header, []⟩
    | some _ => none
  else
    let root ← Entries.within false (fun _ entries => some (entries.remove header.key))
      header.path .header root
    match held with
    | none => return ⟨root, some header, []⟩
    -- What stood there on the way to other tables is kept and added to.
    | some (.table .implied entries) => return ⟨root, some header, entries⟩
    | some _ => none

def assign (draft : Draft) (path : List String) (key : String) (item : Item) : Option Draft := do
  let entries ← Entries.assign draft.current .header path key item
  return { draft with current := entries }

end Draft

end RelationalMapper.Toml
