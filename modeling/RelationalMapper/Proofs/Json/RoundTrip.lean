import RelationalMapper.Json.Codec
import RelationalMapper.Json.Reader

set_option autoImplicit false

namespace RelationalMapper.Value

def readNull? : Json → Option Value
  | .null => some .null
  | _ => none

def readBool? : Json → Option Value
  | .bool truth => some (.bool truth)
  | _ => none

def readInteger? : Json → Option Value
  | .integer number => if fitsInteger number then some (.integer (Int64.ofInt number)) else none
  | _ => none

def readReal? : Json → Option Value
  | .real number => some (.real number)
  | .integer number =>
    if fitsInteger number then some (.real ⟨(Int64.ofInt number).toFloat.toBits⟩)
    else some (.real ⟨(UInt64.ofNat number.toNat).toFloat.toBits⟩)
  | _ => none

def readText? : Json → Option Value
  | .text content => some (.text content)
  | _ => none

def readBlob? : Json → Option Value
  | .array items => (items.mapM Json.byte?).map .blob
  | _ => none

def readers : List (Json → Option Value) :=
  [readNull?, readBool?, readInteger?, readReal?, readText?, readBlob?]

theorem ofJson?_eq_findSome? (json : Json) : ofJson? json = readers.findSome? (· json) := by
  cases json with
  | integer number =>
    by_cases fits : fitsInteger number <;>
      simp [ofJson?, readers, List.findSome?_cons, readNull?, readBool?, readInteger?, readReal?, fits]
  | array items =>
    cases read : items.mapM Json.byte? <;>
      simp [ofJson?, readers, List.findSome?_cons, readNull?, readBool?, readInteger?, readReal?,
        readText?, readBlob?, read]
  | null | bool | real | text | object | unrepresentable => rfl

def place : Value → Nat
  | null => 0
  | bool _ => 1
  | integer _ => 2
  | real _ => 3
  | text _ => 4
  | blob _ => 5

def nonFinite : Value → Bool
  | real number => !number.isFinite
  | _ => false

@[simp] theorem fitsInteger_toInt (number : Int64) : fitsInteger number.toInt = true := by
  have low := number.le_toInt
  have high := number.toInt_lt
  simp only [fitsInteger, Bool.and_eq_true, decide_eq_true_eq]
  exact ⟨low, high⟩

@[simp] theorem byte?_integer_toNat (byte : UInt8) :
    Json.byte? (.integer byte.toNat) = some byte := by
  have small := byte.toNat_lt
  simp only [Json.byte?]
  rw [if_pos (by omega), Int.toNat_natCast, UInt8.ofNat_toNat]

theorem mapM_byte?_bytes (bytes : List UInt8) :
    (bytes.map fun byte => Json.integer byte.toNat).mapM Json.byte? = some bytes := by
  induction bytes with
  | nil => rfl
  | cons byte rest ih => simp [ih]

theorem toJson_real {number : Binary64} (finite : (real number).nonFinite = false) :
    (real number).toJson = .real number := by
  simp_all [nonFinite, toJson]

section Readers

variable {value : Value}

theorem earlier_readers_refuse (finite : value.nonFinite = false) :
    ∀ reader ∈ readers.take value.place, reader value.toJson = none := by
  cases value with
  | real number =>
    simp [readers, place, toJson_real finite, readNull?, readBool?, readInteger?]
  | null | bool | integer | text | blob =>
    simp [readers, place, toJson, readNull?, readBool?, readInteger?, readReal?, readText?]

theorem own_reader_reads (finite : value.nonFinite = false) :
    (readers[value.place]?).bind (· value.toJson) = some value := by
  cases value with
  | real number => simp [readers, place, toJson_real finite, readReal?]
  | integer number => simp [readers, place, toJson, readInteger?]
  | blob bytes =>
    have read : readBlob? (blob bytes).toJson = some (blob bytes) :=
      congrArg (Option.map blob) (mapM_byte?_bytes bytes)
    simpa [readers, place] using read
  | null | bool | text => simp [readers, place, toJson, readNull?, readBool?, readText?]

theorem findSome?_eq_of_first {readers : List (Json → Option Value)} {json : Json} {place : Nat}
    (refused : ∀ reader ∈ readers.take place, reader json = none)
    (read : (readers[place]?).bind (· json) = some value) :
    readers.findSome? (· json) = some value := by
  induction readers generalizing place with
  | nil => simp at read
  | cons reader rest ih =>
    cases place with
    | zero => simp_all
    | succ place =>
      have passed : reader json = none := refused reader (by simp)
      rw [List.findSome?_cons, passed]
      have later : ∀ other ∈ rest.take place, other json = none := by
        intro other among
        exact refused other (by simp [among])
      exact ih later (by simpa using read)

end Readers

def returned (value : Value) : Value :=
  if value.nonFinite then null else value

theorem ofJson?_toJson (value : Value) : ofJson? value.toJson = some value.returned := by
  cases finite : value.nonFinite with
  | false =>
    rw [ofJson?_eq_findSome?, returned, finite, if_neg (by simp)]
    exact findSome?_eq_of_first (earlier_readers_refuse finite) (own_reader_reads finite)
  | true =>
    have unwritten : value.toJson = .null := by
      cases value <;> simp_all [nonFinite, toJson]
    simp [unwritten, ofJson?, returned, finite]

theorem toJson_returned (value : Value) : value.returned.toJson = value.toJson := by
  cases value with
  | real number => by_cases finite : number.isFinite <;> simp [returned, nonFinite, toJson, finite]
  | null | bool | integer | text | blob => simp [returned, nonFinite]

theorem toJson_eq_iff {first second : Value} :
    first.toJson = second.toJson ↔ first.returned = second.returned := by
  constructor
  · intro same
    have read := congrArg ofJson? same
    simpa [ofJson?_toJson] using read
  · intro same
    rw [← toJson_returned first, same, toJson_returned second]

theorem returned_eq_iff {first second : Value} :
    first.returned = second.returned ↔ first = second ∨
      ((first = null ∨ first.nonFinite) ∧ (second = null ∨ second.nonFinite)) := by
  have null_finite : null.nonFinite = false := rfl
  unfold returned
  by_cases here : first.nonFinite <;> by_cases there : second.nonFinite <;>
    simp only [here, there] <;> grind

/-- Values survive a library that carries their documents: each comes back as it was, bit for bit, save
that a real that is not finite comes back as null. Two values have one text only where they are one
value or neither has a document other than null. -/
theorem survives_json {write : Json → String} {read : String → Option Json} (first second : Value)
    (carried : ∀ value ∈ [first, second], read (write value.toJson) = some value.toJson) :
    (read (write first.toJson)).bind ofJson? = some (if first.nonFinite then null else first) ∧
      (write first.toJson = write second.toJson ↔ first = second ∨
        ((first = null ∨ first.nonFinite) ∧ (second = null ∨ second.nonFinite))) := by
  have here := carried first (by simp)
  have there := carried second (by simp)
  constructor
  · rw [here]
    exact ofJson?_toJson first
  · rw [← returned_eq_iff, ← toJson_eq_iff]
    constructor
    · intro same
      rw [same, there] at here
      exact (Option.some.inj here).symm
    · exact congrArg write

theorem blob_and_its_text_survive :
    let write : Json → String
      | .array _ => "[1,255]"
      | _ => "\"[1,255]\""
    let bytes := blob [1, 255]
    let content := text "[1,255]"
    (Json.parse? (write bytes.toJson)).bind ofJson? = some bytes ∧
      write bytes.toJson ≠ write content.toJson := by
  intro write bytes content
  have array_read : Json.parse? "[1,255]" = some bytes.toJson := rfl
  have text_read : Json.parse? "\"[1,255]\"" = some content.toJson := rfl
  have carried : ∀ value ∈ [bytes, content],
      Json.parse? (write value.toJson) = some value.toJson := by
    intro value among
    simp only [List.mem_cons, List.not_mem_nil, or_false] at among
    cases among with
    | inl same => exact same ▸ array_read
    | inr same => exact same ▸ text_read
  have survives := survives_json bytes content carried
  exact ⟨survives.1, fun same => by simpa [bytes, content, nonFinite] using survives.2.mp same⟩

end RelationalMapper.Value
