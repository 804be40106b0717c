import Saboteur.Bytes.Sha256
import Saboteur.Ssz.Codec

/-!
# Lists with a capacity

A list whose length may not exceed the capacity in its type. Items of a fixed size are written one
after the other; items of varying size stand behind a table of their offsets.
-/

namespace Saboteur

/-- A list of at most `max` items. -/
structure Capped (α : Type) (max : Nat) where
  toList : List α
  length_le : toList.length ≤ max

namespace Capped

variable {α : Type} {max : Nat}

@[ext] theorem ext_toList {a b : Capped α max} (h : a.toList = b.toList) : a = b := by
  cases a
  cases b
  simpa using h

instance [DecidableEq α] : DecidableEq (Capped α max) := fun a b =>
  if h : a.toList = b.toList then .isTrue (ext_toList h)
  else .isFalse fun e => h (congrArg toList e)

/-- The empty list. -/
def empty : Capped α max := ⟨[], Nat.zero_le _⟩

instance : Inhabited (Capped α max) := ⟨empty⟩

/-- The list with these items, if they are not too many. -/
def ofList (max : Nat) (items : List α) : Except Ssz.Overflow (Capped α max) :=
  if h : items.length ≤ max then .ok ⟨items, h⟩ else .error ⟨items.length, max⟩

end Capped

namespace Ssz

/-- Writes items, behind a table of offsets if their sizes differ. -/
def encodeItems {α : Type} [Codec α] (items : List α) : List UInt8 := join (items.map part)

/-- Reads items of a fixed size. A piece that is too short is left to the item's own reader. -/
def decodeFixedItems {α : Type} [Codec α] (size : Nat) (bytes : List UInt8) :
    Except DecodeError (List α) := (piecesOf size bytes).mapM decode

/-- Reads items of varying size. The current item begins at `offset` and every further one at an
offset of the table. -/
def decodeOffsetItems {α : Type} [Codec α] (bytes : List UInt8) (total first offset : Nat) :
    List Nat → Except DecodeError (List α)
  | [] => (decode (bytes.drop offset)).map ([·])
  | next :: rest =>
    if next < first then .error (.offsetIntoFixedPortion next)
    else match checkOffset total (some offset) next with
      | .error e => .error e
      | .ok () =>
        match decode ((bytes.drop offset).take (next - offset)) with
        | .error e => .error e
        | .ok a => (decodeOffsetItems bytes total first next rest).map (a :: ·)

/-- Reads a list of items of varying size. -/
def decodeOffsetList {α : Type} [Codec α] (max : Nat) (bytes : List UInt8) :
    Except DecodeError (List α) :=
  match readOffset bytes with
  | .error e => .error e
  | .ok first =>
    if bytes.length < first then .error (.offsetOutOfBounds first)
    else if first % offsetSize ≠ 0 ∨ first < offsetSize then
      .error (.invalidListFixedBytesLen first)
    else if max < first / offsetSize then
      .error (.bytesInvalid (.tooManyOffsets (first / offsetSize) max))
    else
      let table := (piecesOf offsetSize (bytes.take first)).map ofLittleEndian
      decodeOffsetItems bytes bytes.length first first table.tail

/-- Reads the items of a list with a capacity. -/
def decodeItems {α : Type} [Codec α] (max : Nat) (bytes : List UInt8) :
    Except DecodeError (List α) :=
  if bytes.isEmpty then .ok []
  else match Codec.fixedSize α with
    | some size =>
      if max < bytes.length / size then
        .error (.bytesInvalid (.tooManyItems (bytes.length / size) max))
      else decodeFixedItems size bytes
    | none => decodeOffsetList max bytes

instance {α : Type} {max : Nat} [Codec α] : Codec (Capped α max) where
  fixedSize := none
  encode l := encodeItems l.toList
  decode bytes :=
    match decodeItems max bytes with
    | .error e => .error e
    | .ok items =>
      (Capped.ofList max items).mapError fun x => .bytesInvalid (.tooManyItems x.count x.max)

end Ssz

end Saboteur
