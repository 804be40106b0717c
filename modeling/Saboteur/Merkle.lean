import Saboteur.Slot
import Saboteur.Bytes.Sha256
import Saboteur.Ssz.BitList
import Saboteur.Ssz.Capped

/-!
# Tree roots

The root of a value is the root of a binary tree of digests over its chunks of 32 bytes. A missing
chunk counts as zeros. A container's chunks are the roots of its fields. A list's tree is as deep as
its capacity needs, and its length is mixed in at the top.
-/

namespace Saboteur

/-- A type whose values have a tree root. -/
class HasRoot (α : Type) where
  treeRoot : α → Root

export HasRoot (treeRoot)

namespace Merkle

/-- The digest of two roots. -/
def pair (a b : Root) : Root := Sha256.digest (a.toList ++ b.toList)

/-- The root of a tree of zero chunks, with each level computed once. -/
def zeroRoot (depth : Nat) : Root := depth.repeat (fun r => pair r r) Root.zero

/-- The root of a tree of the given depth over chunks, filled up with zeros. -/
def tree : (depth : Nat) → List Root → Root
  | 0, [] => Root.zero
  | 0, r :: _ => r
  | d + 1, chunks =>
    if chunks.isEmpty then zeroRoot (d + 1)
    else pair (tree d (chunks.take (Nat.pow 2 d))) (tree d (chunks.drop (Nat.pow 2 d)))

/-- The least depth of a tree with room for `n` chunks. -/
def depthFor (n : Nat) : Nat := if n ≤ 1 then 0 else Nat.log2 (n - 1) + 1

/-- Bytes as chunks, the last one filled up with zeros. -/
def chunks (bytes : List UInt8) : List Root := (piecesOf 32 bytes).map (Octets.padded 32)

/-- The root of a container with these roots of fields. -/
def container (fields : List Root) : Root := tree (depthFor fields.length) fields

/-- The root of a byte string as a vector of chunks. -/
def bytes (b : List UInt8) : Root :=
  let c := chunks b
  tree (depthFor c.length) c

/-- Mixes the length of a list into the root of its items. -/
def mixLength (r : Root) (length : Nat) : Root := pair r (Octets.padded 32 (littleEndian 32 length))

/-- The root of a list of containers. -/
def list (capacity : Nat) (items : List Root) : Root :=
  mixLength (tree (depthFor capacity) items) items.length

/-- The root of a list of words, four of which share a chunk. -/
def words (capacity : Nat) (items : List UInt64) : Root :=
  mixLength
    (tree (depthFor ((capacity + 3) / 4)) (chunks (items.flatMap fun w => littleEndian 8 w.toNat)))
    items.length

end Merkle

instance : HasRoot UInt64 := ⟨fun w => Octets.padded 32 (littleEndian 8 w.toNat)⟩

instance : HasRoot Root := ⟨id⟩

instance : HasRoot Slot := ⟨fun s => treeRoot s.val⟩

instance : HasRoot Epoch := ⟨fun e => treeRoot e.val⟩

instance {max : Nat} : HasRoot (BitList max) where
  treeRoot b :=
    Merkle.mixLength
      (Merkle.tree (Merkle.depthFor ((max + 255) / 256)) (Merkle.chunks (BitList.packBits b.bits)))
      b.bits.length

instance {α : Type} {max : Nat} [HasRoot α] : HasRoot (Capped α max) where
  treeRoot l := Merkle.list max (l.toList.map treeRoot)

instance : Ssz.Codec Slot where
  fixedSize := some 8
  encode s := Ssz.encode s.val
  decode bytes := (Ssz.decode bytes).map Slot.mk

instance : Ssz.Codec Epoch where
  fixedSize := some 8
  encode e := Ssz.encode e.val
  decode bytes := (Ssz.decode bytes).map Epoch.mk

end Saboteur
