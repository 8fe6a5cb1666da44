import RelationalMapper.Fault
import RelationalMapper.Toml.Document

set_option autoImplicit false

namespace RelationalMapper.Config

abbrev Fields := String → Option Toml.Item

def fields? (keys : List String) : Toml.Item → Option Fields
  | .table _ entries =>
    if Toml.entriesReadable (entries.filter (!keys.contains ·.1)) then
      some fun key => Toml.Entries.get? entries key
    else none
  | .array _ items => some fun key => items[keys.idxOf key]?
  | _ => none

def text? : Toml.Item → Option String
  | .text content => some content
  | _ => none

def bool? : Toml.Item → Option Bool
  | .bool truth => some truth
  | _ => none

def items? : Toml.Item → Option (List Toml.Item)
  | .array _ items => some items
  | _ => none

-- A field that may be missing, but not be of another type.
def optional? {α : Type} (read : Toml.Item → Option α) : Option Toml.Item → Option (Option α)
  | none => some none
  | some item => (read item).map some

def listOf? {α : Type} (read : Toml.Item → Option α) (item : Toml.Item) : Option (List α) :=
  (items? item).bind (·.mapM read)

abbrev File := Option (List UInt8)

-- Documents are UTF-8 throughout.
def fileText : File → Except Fault String
  | none => .error .unreadableFile
  | some bytes => (String.fromUTF8? ⟨bytes.toArray⟩).elim (.error .unreadableFile) .ok

end RelationalMapper.Config
