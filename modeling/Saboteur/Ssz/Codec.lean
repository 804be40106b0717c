import Saboteur.Bytes.Octets
import Saboteur.Ssz.Error

/-!
# The wire format of containers

A value has a fixed size or a varying one. A container of fixed size is its fields one after the
other. In a container with fields of varying size the head holds the fixed fields and, for every
other field, the four bytes of an offset; the fields of varying size follow in order, each beginning
at its offset.

`join` writes the encoded fields of a container and `split` finds them again.
-/

namespace Saboteur.Ssz

/-- A type with a wire format. -/
class Codec (α : Type) where
  /-- The size of every value, unless sizes differ. -/
  fixedSize : Option Nat
  encode : α → List UInt8
  decode : List UInt8 → Except DecodeError α

export Codec (encode decode)

/-- How many bytes an offset takes. -/
def offsetSize : Nat := 4

/-! ## Writing containers -/

/-- An encoded field. -/
inductive Part where
  | fixed (bytes : List UInt8)
  | variable (bytes : List UInt8)

/-- The encoded form of a field, which stands in the head if its type has a fixed size. -/
def part {α : Type} [Codec α] (a : α) : Part :=
  match Codec.fixedSize α with
  | some _ => .fixed (encode a)
  | none => .variable (encode a)

/-- How many bytes a field takes in the head. -/
def Part.headSize : Part → Nat
  | .fixed bytes => bytes.length
  | .variable _ => offsetSize

/-- What a field adds behind the head. -/
def Part.body : Part → List UInt8
  | .fixed _ => []
  | .variable bytes => bytes

/-- The head of a container whose next body begins at `offset`. -/
def head (offset : Nat) : List Part → List UInt8
  | [] => []
  | .fixed bytes :: rest => bytes ++ head offset rest
  | .variable bytes :: rest =>
    littleEndian offsetSize offset ++ head (offset + bytes.length) rest

/-- The bytes of a container with these fields. -/
def join (parts : List Part) : List UInt8 :=
  head (parts.foldr (fun p n => p.headSize + n) 0) parts ++ parts.flatMap Part.body

/-! ## Reading containers -/

/-- The offset at the front of some bytes. -/
def readOffset (bytes : List UInt8) : Except DecodeError Nat :=
  if offsetSize ≤ bytes.length then .ok (ofLittleEndian (bytes.take offsetSize))
  else .error (.invalidLengthPrefix bytes.length offsetSize)

/-- What the head of a container says about a field. -/
inductive HeadEntry where
  | bytes (b : List UInt8)
  | offset (o : Nat)

/-- Checks an offset against the total length and the offset before it. -/
def checkOffset (total : Nat) (previous : Option Nat) (o : Nat) : Except DecodeError Unit :=
  if total < o then .error (.offsetOutOfBounds o)
  else if previous.any (o < ·) then .error (.offsetsAreDecreasing o)
  else .ok ()

/-- Reads the rest of a head, which stands at `position` of `total` bytes. A size stands for a
fixed field and its absence for an offset. -/
def readHead (total position : Nat) (previous : Option Nat) (rest : List UInt8) :
    List (Option Nat) → Except DecodeError (List HeadEntry)
  | [] => .ok []
  | some size :: layout =>
    if size ≤ rest.length then
      (readHead total (position + size) previous (rest.drop size) layout).map
        (.bytes (rest.take size) :: ·)
    else .error (.invalidByteLength total (position + size))
  | none :: layout =>
    match readOffset rest with
    | .error e => .error e
    | .ok o =>
      match checkOffset total previous o with
      | .error e => .error e
      | .ok () =>
        (readHead total (position + offsetSize) (some o) (rest.drop offsetSize) layout).map
          (.offset o :: ·)

/-- The offset of the first entry that has one. -/
def firstOffset? : List HeadEntry → Option Nat
  | [] => none
  | .bytes _ :: rest => firstOffset? rest
  | .offset o :: _ => some o

/-- The bytes of every field, given the whole container. A field of varying size ends where the
next one begins, and the last one at the end. -/
def resolve (container : List UInt8) : List HeadEntry → List (List UInt8)
  | [] => []
  | .bytes b :: rest => b :: resolve container rest
  | .offset o :: rest =>
    let tail := container.drop o
    (match firstOffset? rest with
      | some next => tail.take (next - o)
      | none => tail) :: resolve container rest

/-- How many bytes a field takes in the head of a container. -/
def layoutSize (layout : List (Option Nat)) : Nat :=
  layout.foldr (fun size n => size.getD offsetSize + n) 0

/-- The bytes of the fields of a container with this layout. -/
def split (layout : List (Option Nat)) (container : List UInt8) :
    Except DecodeError (List (List UInt8)) :=
  let size := layoutSize layout
  if layout.all Option.isSome ∧ container.length ≠ size then
    .error (.invalidByteLength container.length size)
  else
    match readHead container.length 0 none container layout with
    | .error e => .error e
    | .ok entries =>
      match firstOffset? entries with
      | none => .ok (resolve container entries)
      | some o =>
        if o < size then .error (.offsetIntoFixedPortion o)
        else if size < o then .error (.offsetSkipsVariableBytes o)
        else .ok (resolve container entries)

/-- The bytes of the field at a place of a container. -/
def field (fields : List (List UInt8)) (i : Nat) : List UInt8 := fields[i]?.getD []

/-! ## Elementary values -/

/-- Accepts bytes of one length only. -/
def exactly (n : Nat) (bytes : List UInt8) : Except DecodeError (Octets n) :=
  if h : bytes.length = n then .ok ⟨bytes, h⟩ else .error (.invalidByteLength bytes.length n)

instance {n : Nat} : Codec (Octets n) where
  fixedSize := some n
  encode := Octets.toList
  decode := exactly n

instance : Codec UInt64 where
  fixedSize := some 8
  encode w := littleEndian 8 w.toNat
  decode bytes := (exactly 8 bytes).map fun b => UInt64.ofNat (ofLittleEndian b.toList)

end Saboteur.Ssz
