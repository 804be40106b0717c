import Saboteur.Proofs.Ssz.Container
import Saboteur.Signature

/-!
# Formats with one encoding for each value

A format is lawful when bytes decode to a value exactly if they are the encoding of the value. So
encodings are read back, different values have different encodings, and nothing but encodings is
accepted.

Offsets address a bounded number of bytes only, hence every lawful format comes with a bound on the
size of its encodings. A container of lawful fields is lawful as long as its bound stays addressable.
-/

namespace Saboteur.Ssz

/-- A format with exactly one encoding for each value. -/
class LawfulCodec (α : Type) [Codec α] where
  /-- No encoding is longer. -/
  maxSize : Nat
  length_encode_le : ∀ a : α, (encode a).length ≤ maxSize
  fits_encode : ∀ a : α, Fits (Codec.fixedSize α) (encode a)
  decode_eq_ok_iff : ∀ {bytes : List UInt8} {a : α}, decode bytes = .ok a ↔ bytes = encode a

export LawfulCodec (maxSize length_encode_le fits_encode decode_eq_ok_iff)

attribute [simp] decode_eq_ok_iff

/-! ## Elementary values -/

/-- A byte string of a fixed length is read from its own bytes and from nothing else. -/
theorem exactly_eq_ok_iff {n : Nat} {bytes : List UInt8} {b : Octets n} :
    exactly n bytes = .ok b ↔ bytes = b.toList := by
  unfold exactly
  split
  case isTrue h =>
    constructor
    · intro he
      cases he
      rfl
    · rintro rfl
      rfl
  case isFalse h =>
    refine iff_of_false (by simp) ?_
    rintro rfl
    exact h b.length_toList

instance {n : Nat} : LawfulCodec (Octets n) where
  maxSize := n
  length_encode_le b := Nat.le_of_eq b.length_toList
  fits_encode b := b.length_toList
  decode_eq_ok_iff := exactly_eq_ok_iff

instance : LawfulCodec UInt64 where
  maxSize := 8
  length_encode_le w := Nat.le_of_eq (length_littleEndian 8 w.toNat)
  fits_encode w := length_littleEndian 8 w.toNat
  decode_eq_ok_iff {bytes w} := by
    show (exactly 8 bytes).map _ = .ok w ↔ bytes = littleEndian 8 w.toNat
    rw [map_eq_ok_iff]
    constructor
    · rintro ⟨b, hb, rfl⟩
      -- eight bytes never exceed a word, so the conversion loses nothing
      have hlt := ofLittleEndian_lt b.toList
      have hback := littleEndian_ofLittleEndian b.toList
      rw [b.length_toList] at hlt hback
      rw [exactly_eq_ok_iff.1 hb, UInt64.toNat_ofNat_of_lt' hlt, hback]
    · rintro rfl
      refine ⟨⟨_, length_littleEndian 8 w.toNat⟩, exactly_eq_ok_iff.2 rfl, ?_⟩
      show UInt64.ofNat (ofLittleEndian (littleEndian 8 w.toNat)) = w
      rw [ofLittleEndian_littleEndian 8 _ w.toNat_lt, UInt64.ofNat_toNat]

instance : LawfulCodec Slot where
  maxSize := 8
  length_encode_le s := length_encode_le s.val
  fits_encode s := fits_encode s.val
  decode_eq_ok_iff :=
    (map_eq_ok_iff_of_inverse (fun _ => rfl) (fun _ => rfl)).trans decode_eq_ok_iff

instance : LawfulCodec Epoch where
  maxSize := 8
  length_encode_le e := length_encode_le e.val
  fits_encode e := fits_encode e.val
  decode_eq_ok_iff :=
    (map_eq_ok_iff_of_inverse (fun _ => rfl) (fun _ => rfl)).trans decode_eq_ok_iff

instance : LawfulCodec Signature where
  maxSize := 96
  length_encode_le s := Nat.le_of_eq s.bytes.length_toList
  fits_encode s := s.bytes.length_toList
  decode_eq_ok_iff :=
    (map_eq_ok_iff_of_inverse (fun _ => rfl) (fun _ => rfl)).trans exactly_eq_ok_iff

/-! ## Fields -/

/-- An encoded field with the place that its type has and a bound on its size. -/
structure Field where
  bytes : List UInt8
  place : Option Nat
  bound : Nat
  fits : Fits place bytes
  length_le : bytes.length ≤ bound

/-- A value as a field. -/
def Field.of {α : Type} [Codec α] [LawfulCodec α] (a : α) : Field :=
  ⟨encode a, Codec.fixedSize α, maxSize α, fits_encode a, length_encode_le a⟩

@[simp] theorem Field.bytes_of {α : Type} [Codec α] [LawfulCodec α] (a : α) :
    (Field.of a).bytes = encode a := rfl

/-- Every field fits the place that the layout leaves for it. -/
theorem fits_fields (fs : List Field) :
    List.Forall₂ Fits (fs.map Field.place) (fs.map Field.bytes) := by
  induction fs with
  | nil => exact .nil
  | cons f fs ih => exact .cons f.fits ih

theorem sum_length_fields_le (fs : List Field) :
    ((fs.map Field.bytes).map List.length).sum ≤ (fs.map Field.bound).sum := by
  induction fs with
  | nil => exact Nat.le_refl _
  | cons f fs ih => exact Nat.add_le_add f.length_le ih

/-! ## Containers -/

/-- How a container is taken apart into fields and put together from their bytes. -/
structure ContainerOf (α : Type) [Codec α] where
  layout : List (Option Nat)
  sizes : List Nat
  fields : α → List Field
  read : List (List UInt8) → Except DecodeError α
  layout_eq : ∀ a, (fields a).map Field.place = layout := by exact fun _ => rfl
  sizes_eq : ∀ a, (fields a).map Field.bound = sizes := by exact fun _ => rfl
  encode_eq : ∀ a, encode a = join (parts layout ((fields a).map Field.bytes)) := by
    exact fun _ => rfl
  decode_eq : ∀ bytes, decode bytes = split layout bytes >>= read
  read_eq_ok_iff : ∀ {bs : List (List UInt8)} {a : α}, layout.length = bs.length →
    (read bs = .ok a ↔ bs = (fields a).map Field.bytes)
  /-- A container of fixed size has fields of fixed size only. -/
  fixedSize_eq : ∀ n ∈ Codec.fixedSize α, layout.all Option.isSome = true ∧ layoutSize layout = n

namespace ContainerOf

variable {α : Type} [Codec α] (c : ContainerOf α)

theorem fits (a : α) : List.Forall₂ Fits c.layout ((c.fields a).map Field.bytes) :=
  c.layout_eq a ▸ fits_fields (c.fields a)

/-- A container is no longer than its offsets and the bounds of its fields. -/
theorem length_le (a : α) :
    (encode a).length ≤ c.layout.length * offsetSize + c.sizes.sum := by
  rw [c.encode_eq, ← c.sizes_eq a]
  exact Nat.le_trans (length_join_le (c.fits a))
    (Nat.add_le_add_left (sum_length_fields_le (c.fields a)) _)

/-- A container is no shorter than its head. -/
theorem layoutSize_le (a : α) : layoutSize c.layout ≤ (encode a).length := by
  rw [c.encode_eq, length_join (c.fits a)]
  exact Nat.le_add_right _ _

include c in
theorem fits_fixedSize (a : α) : Fits (Codec.fixedSize α) (encode a) := by
  cases hfixed : Codec.fixedSize α with
  | none => trivial
  | some n =>
    obtain ⟨hall, hn⟩ := c.fixedSize_eq n hfixed
    show (encode a).length = n
    rw [c.encode_eq, length_join (c.fits a), bodies_eq_nil hall, hn]
    rfl

/-- **A container is lawful when its fields are and when it stays addressable.** -/
@[reducible]
def lawful (hsize : c.layout.length * offsetSize + c.sizes.sum < addressable) :
    LawfulCodec α where
  maxSize := c.layout.length * offsetSize + c.sizes.sum
  length_encode_le := c.length_le
  fits_encode := c.fits_fixedSize
  decode_eq_ok_iff {bytes a} := by
    rw [c.decode_eq, c.encode_eq, bind_eq_ok_iff]
    constructor
    · rintro ⟨bs, hsplit, hread⟩
      obtain ⟨hfits, rfl⟩ := join_of_split hsplit
      rw [(c.read_eq_ok_iff hfits.length_eq).1 hread]
    · rintro rfl
      have hle := c.length_le a
      rw [c.encode_eq] at hle
      exact ⟨_, split_join (c.fits a) (Nat.lt_of_le_of_lt hle hsize),
        (c.read_eq_ok_iff (c.fits a).length_eq).2 rfl⟩

end ContainerOf

end Saboteur.Ssz
