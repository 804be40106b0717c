import Saboteur.Ssz.Codec

/-!
# Lists of bits

A list of bits with a capacity. On the wire the bits fill bytes from the low end, and one more set
bit marks where the list stops. So a list has one encoding, and the last byte is never zero.

As a set of positions: two lists may have different lengths, and a position beyond the end of a list
is not in it.
-/

namespace Saboteur

/-- A list of at most `max` bits. -/
structure BitList (max : Nat) where
  bits : List Bool
  length_le : bits.length ≤ max

namespace BitList

variable {max : Nat}

@[ext] theorem ext_bits {a b : BitList max} (h : a.bits = b.bits) : a = b := by
  cases a
  cases b
  simpa using h

instance : DecidableEq (BitList max) := fun a b =>
  if h : a.bits = b.bits then .isTrue (ext_bits h)
  else .isFalse fun e => h (congrArg bits e)

instance : Inhabited (BitList max) := ⟨[], Nat.zero_le _⟩

/-! ## Positions -/

/-- Whether a position is set. -/
def get (b : BitList max) (i : Nat) : Bool := b.bits[i]?.getD false

/-- The set positions in ascending order. -/
def positions (b : BitList max) : List Nat := (List.range b.bits.length).filter b.get

/-- How many positions are set. -/
def count (b : BitList max) : Nat := b.bits.count true

/-- Combines two lists place by place, to the end of the longer one. -/
def orBits : List Bool → List Bool → List Bool
  | [], ys => ys
  | xs, [] => xs
  | x :: xs, y :: ys => (x || y) :: orBits xs ys

theorem length_orBits (xs ys : List Bool) :
    (orBits xs ys).length = Nat.max xs.length ys.length := by
  induction xs generalizing ys with
  | nil => simp [orBits]
  | cons x xs ih =>
    cases ys with
    | nil => simp [orBits]
    | cons y ys => simp only [orBits, List.length_cons, ih, Nat.max_def]; split <;> split <;> omega

theorem getElem?_orBits (xs ys : List Bool) (i : Nat) :
    (orBits xs ys)[i]?.getD false = (xs[i]?.getD false || ys[i]?.getD false) := by
  induction xs generalizing ys i with
  | nil => simp [orBits]
  | cons x xs ih =>
    cases ys with
    | nil => simp [orBits]
    | cons y ys =>
      cases i with
      | zero => simp [orBits]
      | succ i => simpa [orBits] using ih ys i

/-- The positions of either list. -/
def union (a b : BitList max) : BitList max :=
  ⟨orBits a.bits b.bits, by
    rw [length_orBits]
    exact Nat.max_le.2 ⟨a.length_le, b.length_le⟩⟩

/-- **A position is in the union when it is in one of the two.** -/
theorem get_union (a b : BitList max) (i : Nat) : (a.union b).get i = (a.get i || b.get i) :=
  getElem?_orBits _ _ _

/-- Whether no position is in both lists. -/
def disjoint (a b : BitList max) : Bool := (a.bits.zip b.bits).all fun p => !(p.1 && p.2)

/-- Whether every set bit has a set bit at its place in the other list. -/
def bitsWithin : List Bool → List Bool → Bool
  | [], _ => true
  | xs, [] => xs.all (!·)
  | x :: xs, y :: ys => (!x || y) && bitsWithin xs ys

/-- Whether every position of the first list is in the second. -/
def subset (a b : BitList max) : Bool := bitsWithin a.bits b.bits

/-! ## Bytes -/

/-- The value of up to eight bits, low end first. -/
def byteOfBits (bits : List Bool) : Nat := bits.foldr (fun b acc => acc * 2 + b.toNat) 0

/-- The bytes that bits fill. -/
def packBits : List Bool → List UInt8
  | [] => []
  | b :: rest =>
    UInt8.ofNat (byteOfBits ((b :: rest).take 8)) :: packBits ((b :: rest).drop 8)
termination_by bits => bits.length
decreasing_by
  simp only [List.length_drop, List.length_cons]
  omega

/-- The eight bits of a byte, low end first. -/
def byteBits (b : UInt8) : List Bool := (List.range 8).map b.toNat.testBit

/-- The bits of bytes. -/
def unpackBits (bytes : List UInt8) : List Bool := bytes.flatMap byteBits

/-- The encoding: the bits and the mark of their end. -/
def encode (b : BitList max) : List UInt8 := packBits (b.bits ++ [true])

/-- The bits before the last set bit, if there is one. -/
def beforeLast : List Bool → Option (List Bool)
  | [] => none
  | b :: rest =>
    match beforeLast rest with
    | some bits => some (b :: bits)
    | none => if b then some [] else none

/-- Reads an encoding. -/
def decode (max : Nat) (bytes : List UInt8) : Except Ssz.BitListError (BitList max) :=
  if bytes.isEmpty then .error .excessBits
  else match beforeLast (unpackBits bytes) with
    | none => .error .missingLength
    | some bits =>
      if bits.length / 8 + 1 ≠ bytes.length then
        .error (.byteCount bytes.length (bits.length / 8 + 1))
      else if h : bits.length ≤ max then .ok ⟨bits, h⟩
      else .error (.outOfBounds max)

end BitList

instance {max : Nat} : Ssz.Codec (BitList max) where
  fixedSize := none
  encode := BitList.encode
  decode bytes := (BitList.decode max bytes).mapError (.bytesInvalid ∘ .bitList)

end Saboteur
