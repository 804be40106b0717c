import Saboteur.Json.Parse
import Saboteur.Text.Integer

/-!
# Records in documents

A record is written as an object with one member per field. It may also be given as an array of its
fields in order. Members with unknown keys are ignored, and a known key may stand only once.

A field may be required, have a default, or be optional. An optional field may be `null`; in an
object it may also be missing, while an array has to hold it.
-/

namespace Saboteur

/-- Why a document is no value of the wanted type. -/
inductive JsonError where
  /-- The text is no document. -/
  | malformed
  | missing (field : String)
  | repeated (field : String)
  /-- A value of another kind or out of range. -/
  | mismatch
  /-- A list with more items than its type has room for. -/
  | overfull
  deriving DecidableEq

/-- A type that is read from documents. -/
class ReadJson (α : Type) where
  read : Json → Except JsonError α

/-- A type that is written as a document. -/
class WriteJson (α : Type) where
  write : α → Json

export ReadJson (read)
export WriteJson (write)

namespace Json

/-- Reads a value from the text of a document. -/
def parse (α : Type) [ReadJson α] (s : String) : Except JsonError α :=
  match parse? s with
  | none => .error .malformed
  | some j => read j

/-! ## Elementary values -/

/-- Reads a text. -/
def readText : Json → Except JsonError String
  | .string (.text s) => .ok s
  | _ => .error .mismatch

/-- Reads a natural number below a bound. -/
def readNatural (bound : Nat) : Json → Except JsonError Nat
  | .number n =>
    match n.natural? bound with
    | some k => .ok k
    | none => .error .mismatch
  | _ => .error .mismatch

/-- Reads a word that is written as a number. -/
def readWord (j : Json) : Except JsonError UInt64 := (readNatural Word.count j).map UInt64.ofNat

/-- Reads a word that is written as a number or as a decimal text. -/
def readQuotedWord : Json → Except JsonError UInt64
  | .string (.text s) => (Text.readWord s).mapError fun _ => .mismatch
  | j => readWord j

/-- The document of a word as a decimal text. -/
def quotedWord (w : UInt64) : Json := .text (Word.decimal w)

/-- Reads a signed integer of 64 bits. -/
def readSigned : Json → Except JsonError Int
  | .number n =>
    match n.integer? with
    | some i => .ok i
    | none => .error .mismatch
  | _ => .error .mismatch

/-- Reads a truth value. -/
def readBool : Json → Except JsonError Bool
  | .bool b => .ok b
  | _ => .error .mismatch

/-- Reads a name that stands alone or as the only key of an object without content. -/
def readName : Json → Except JsonError String
  | .string (.text s) => .ok s
  | .object [(.text s, .null)] => .ok s
  | _ => .error .mismatch

/-- Reads an array. -/
def readArray {α : Type} (item : Json → Except JsonError α) : Json → Except JsonError (List α)
  | .array items => items.mapM item
  | _ => .error .mismatch

/-- Reads a value or `null`. -/
def readOption {α : Type} (some' : Json → Except JsonError α) : Json → Except JsonError (Option α)
  | .null => .ok none
  | j => (some' j).map some

/-- The text of a key. -/
def readKey : Literal → Except JsonError String
  | .text s => .ok s
  | .unpaired => .error .mismatch

/-- Reads an object whose keys are data. Of members with one key the last counts, and the members
come out in the order of `lt`. -/
def readTable {α : Type} (value : Json → Except JsonError α)
    (insert : String → α → List (String × α) → List (String × α)) :
    Json → Except JsonError (List (String × α))
  | .object members => members.foldlM (fun acc m => do
      let k ← readKey m.1
      let v ← value m.2
      return insert k v acc) []
  | _ => .error .mismatch

/-! ## Records -/

/-- The fields of a record that a document gives. -/
structure Fields where
  entries : List (String × Json)
  /-- Whether the fields were given by name. -/
  named : Bool

/-- Collects the members whose keys are names of fields. -/
def collect (names : List String) (entries : List (String × Json)) :
    List (Literal × Json) → Except JsonError (List (String × Json))
  | [] => .ok entries
  | (l, j) :: rest =>
    match l with
    | .unpaired => .error .mismatch
    | .text k =>
      if names.contains k then
        if (entries.lookup k).isSome then .error (.repeated k)
        else collect names ((k, j) :: entries) rest
      else collect names entries rest

/-- The fields of a record with these names, in this order. -/
def fields (names : List String) : Json → Except JsonError Fields
  | .object members => (collect names [] members).map fun entries => ⟨entries, true⟩
  | .array items =>
    if items.length ≤ names.length then .ok ⟨names.zip items, false⟩ else .error .mismatch
  | _ => .error .mismatch

namespace Fields

variable {α : Type}

/-- Reads a field that has to be there. -/
def required (f : Fields) (name : String) (value : Json → Except JsonError α) :
    Except JsonError α :=
  match f.entries.lookup name with
  | some j => value j
  | none => .error (.missing name)

/-- Reads a field with a default. -/
def defaulted (f : Fields) (name : String) (default : α) (value : Json → Except JsonError α) :
    Except JsonError α :=
  match f.entries.lookup name with
  | some j => value j
  | none => .ok default

/-- Reads an optional field. -/
def optional (f : Fields) (name : String) (value : Json → Except JsonError α) :
    Except JsonError (Option α) :=
  match f.entries.lookup name with
  | some j => readOption value j
  | none => if f.named then .ok none else .error (.missing name)

end Fields

end Json

instance : ReadJson String := ⟨Json.readText⟩

instance : WriteJson String := ⟨.text⟩

instance : ReadJson Bool := ⟨Json.readBool⟩

instance : WriteJson Bool := ⟨.bool⟩

end Saboteur
