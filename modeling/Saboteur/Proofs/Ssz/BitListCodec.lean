import Saboteur.Proofs.Ssz.Lawful

/-!
# Bit lists in bytes

Eight bits fill a byte, low end first, and the last byte is filled up with zeros. The mark behind the
bits tells where they end, and since it has to stand in the last byte, no byte of zeros can follow.
So every bit list has one encoding.
-/

namespace Saboteur.BitList

variable {max : Nat}

/-! ## One byte -/

theorem testBit_byteOfBits (bits : List Bool) (i : Nat) :
    (byteOfBits bits).testBit i = bits[i]?.getD false := by
  induction bits generalizing i with
  | nil => exact Nat.zero_testBit i
  | cons b bits ih =>
    show (byteOfBits bits * 2 + b.toNat).testBit i = _
    cases i with
    | zero => cases b <;> simp [Nat.testBit_zero]
    | succ i =>
      have hhalf : (byteOfBits bits * 2 + b.toNat) / 2 = byteOfBits bits := by
        cases b
        · simp
        · simp
          omega
      rw [Nat.testBit_succ, hhalf, ih, List.getElem?_cons_succ]

theorem byteOfBits_lt (bits : List Bool) : byteOfBits bits < Nat.pow 2 bits.length := by
  induction bits with
  | nil => exact Nat.one_pos
  | cons b bits ih =>
    show byteOfBits bits * 2 + b.toNat < Nat.pow 2 bits.length * 2
    have hb := b.toNat_le
    omega

theorem length_byteBits (b : UInt8) : (byteBits b).length = 8 := by
  rw [byteBits, List.length_map, List.length_range]

theorem getElem?_byteBits (b : UInt8) (i : Nat) :
    (byteBits b)[i]?.getD false = b.toNat.testBit i := by
  unfold byteBits
  by_cases hi : i < 8
  · rw [List.getElem?_map, List.getElem?_range hi]
    rfl
  · have hlt : b.toNat < 2 ^ i :=
      Nat.lt_of_lt_of_le b.toNat_lt (Nat.pow_le_pow_right (by decide) (Nat.le_of_not_lt hi))
    rw [List.getElem?_eq_none (by simpa using hi), Nat.testBit_lt_two_pow hlt]
    rfl

theorem byteOfBits_byteBits (b : UInt8) : byteOfBits (byteBits b) = b.toNat := by
  refine Nat.eq_of_testBit_eq fun i => ?_
  rw [testBit_byteOfBits, getElem?_byteBits]

/-- The bits of a byte that was filled up with zeros. -/
theorem byteBits_ofNat_byteOfBits {bits : List Bool} (h : bits.length ≤ 8) :
    byteBits (UInt8.ofNat (byteOfBits bits)) =
      bits ++ List.replicate (8 - bits.length) false := by
  have hlt : byteOfBits bits < 256 :=
    Nat.lt_of_lt_of_le (byteOfBits_lt bits) (Nat.pow_le_pow_right (by decide) h)
  refine List.ext_getElem (by simp [length_byteBits, h]) fun i hi hi' => ?_
  rw [length_byteBits] at hi
  simp only [byteBits, List.getElem_map, List.getElem_range,
    UInt8.toNat_ofNat_of_lt' hlt, testBit_byteOfBits]
  by_cases hbits : i < bits.length
  · rw [List.getElem?_eq_getElem hbits, List.getElem_append_left hbits]
    rfl
  · rw [List.getElem?_eq_none (Nat.le_of_not_lt hbits),
      List.getElem_append_right (Nat.le_of_not_lt hbits), List.getElem_replicate]
    rfl

/-! ## Many bytes -/

theorem packBits_append {byte rest : List Bool} (h : byte.length = 8) :
    packBits (byte ++ rest) = UInt8.ofNat (byteOfBits byte) :: packBits rest := by
  cases byte with
  | nil => cases h
  | cons b bits =>
    rw [List.cons_append, packBits, ← List.cons_append, List.take_left' h, List.drop_left' h]

/-- Bytes are packed again as they were unpacked. -/
theorem packBits_unpackBits (bytes : List UInt8) : packBits (unpackBits bytes) = bytes := by
  induction bytes with
  | nil => rw [unpackBits, List.flatMap_nil, packBits]
  | cons b bytes ih =>
    show packBits (byteBits b ++ unpackBits bytes) = _
    rw [packBits_append (length_byteBits b), ih, byteOfBits_byteBits, UInt8.ofNat_toNat]

theorem length_unpackBits (bytes : List UInt8) :
    (unpackBits bytes).length = bytes.length * 8 := by
  induction bytes with
  | nil => rfl
  | cons b bytes ih =>
    show (byteBits b ++ unpackBits bytes).length = _
    rw [List.length_append, ih, length_byteBits, List.length_cons]
    omega

/-- Unpacking gives the bits back, filled up to whole bytes. -/
theorem unpackBits_packBits (bits : List Bool) :
    unpackBits (packBits bits) = bits ++ List.replicate ((8 - bits.length % 8) % 8) false := by
  induction bits using packBits.induct with
  | case1 => rw [packBits]; rfl
  | case2 b rest ih =>
    rw [packBits]
    show byteBits _ ++ unpackBits (packBits ((b :: rest).drop 8)) = _
    rw [byteBits_ofNat_byteOfBits (List.length_take_le _ _), ih, List.length_take,
      List.length_drop]
    -- a full byte, or the last one and the zeros that fill it up
    by_cases hlong : 8 ≤ (b :: rest).length
    · have hmod : ((b :: rest).length - 8) % 8 = (b :: rest).length % 8 := by omega
      rw [Nat.min_eq_left hlong, hmod, Nat.sub_self, List.replicate_zero, List.append_nil,
        ← List.append_assoc, List.take_append_drop]
    · have hpos : 0 < (b :: rest).length := Nat.succ_pos _
      have hshort : (b :: rest).length ≤ 8 := by omega
      have hfill : (8 - (b :: rest).length % 8) % 8 = 8 - (b :: rest).length := by omega
      rw [List.take_of_length_le hshort, List.drop_of_length_le hshort,
        Nat.min_eq_right hshort, hfill, Nat.sub_eq_zero_of_le hshort]
      exact List.append_nil _

theorem length_packBits (bits : List Bool) : (packBits bits).length = (bits.length + 7) / 8 := by
  have hlength := congrArg List.length (unpackBits_packBits bits)
  rw [length_unpackBits, List.length_append, List.length_replicate] at hlength
  omega

/-! ## The mark of the end -/

theorem beforeLast_replicate (n : Nat) : beforeLast (List.replicate n false) = none := by
  induction n with
  | zero => rfl
  | succ n ih => rw [List.replicate_succ, beforeLast, ih]; rfl

theorem eq_replicate_of_beforeLast {l : List Bool} (h : beforeLast l = none) :
    l = List.replicate l.length false := by
  induction l with
  | nil => rfl
  | cons b rest ih =>
    unfold beforeLast at h
    cases hrest : beforeLast rest with
    | some bits =>
      rw [hrest] at h
      cases h
    | none =>
      rw [hrest] at h
      cases b with
      | true => cases h
      | false => rw [List.length_cons, List.replicate_succ, ← ih hrest]

/-- The last set bit is followed by zeros only. -/
theorem beforeLast_eq_some_iff {l bits : List Bool} :
    beforeLast l = some bits ↔ ∃ n, l = bits ++ true :: List.replicate n false := by
  constructor
  · intro h
    induction l generalizing bits with
    | nil => cases h
    | cons b rest ih =>
      unfold beforeLast at h
      cases hrest : beforeLast rest with
      | some bits' =>
        rw [hrest] at h
        obtain ⟨n, hn⟩ := ih hrest
        cases h
        exact ⟨n, by rw [hn, List.cons_append]⟩
      | none =>
        rw [hrest] at h
        cases b with
        | false => cases h
        | true =>
          cases h
          exact ⟨rest.length, by rw [List.nil_append, ← eq_replicate_of_beforeLast hrest]⟩
  · rintro ⟨n, rfl⟩
    induction bits with
    | nil => rw [List.nil_append, beforeLast, beforeLast_replicate]; rfl
    | cons b bits ih => rw [List.cons_append, beforeLast, ih]

/-! ## The encoding -/

/-- Behind the bits there is always room for the mark. -/
theorem length_encode (b : BitList max) : b.encode.length = b.bits.length / 8 + 1 := by
  rw [encode, length_packBits, List.length_append, List.length_singleton]
  omega

/-- Unpacked, the bytes are the bits, the mark, and zeros up to the end of the last byte. -/
theorem unpackBits_encode (b : BitList max) :
    unpackBits b.encode =
      b.bits ++ true :: List.replicate (b.encode.length * 8 - b.bits.length - 1) false := by
  rw [length_encode, encode, unpackBits_packBits, List.length_append, List.length_singleton,
    List.append_assoc, List.singleton_append]
  congr 3
  omega

/-- **A bit list is read from its encoding and from nothing else.** -/
theorem decode_eq_ok_iff {bytes : List UInt8} {b : BitList max} :
    decode max bytes = .ok b ↔ bytes = b.encode := by
  constructor
  · intro h
    unfold decode at h
    split at h
    case isTrue => cases h
    case isFalse =>
      split at h
      case h_1 => cases h
      case h_2 bits hbits =>
        split at h
        case isTrue => cases h
        case isFalse hcount =>
          split at h
          case isFalse => cases h
          case isTrue hle =>
            cases h
            obtain ⟨n, hn⟩ := beforeLast_eq_some_iff.1 hbits
            have hlength := congrArg List.length hn
            rw [length_unpackBits, List.length_append, List.length_cons,
              List.length_replicate] at hlength
            have hencode := length_encode (⟨bits, hle⟩ : BitList max)
            have hfill : (encode (⟨bits, hle⟩ : BitList max)).length * 8 - bits.length - 1 = n := by
              rw [hencode]
              show (bits.length / 8 + 1) * 8 - bits.length - 1 = n
              omega
            have hunpack := unpackBits_encode (⟨bits, hle⟩ : BitList max)
            -- both sides unpack to the bits, the mark and the same zeros
            rw [← packBits_unpackBits bytes, hn, ← packBits_unpackBits (encode _), hunpack, hfill]
  · rintro rfl
    have hlength := length_encode b
    have hne : ¬b.encode.isEmpty = true := by
      rw [List.isEmpty_iff_length_eq_zero, hlength]
      omega
    unfold decode
    rw [if_neg hne, beforeLast_eq_some_iff.2 ⟨_, unpackBits_encode b⟩]
    simp only [hlength, ne_eq, not_true_eq_false, if_false, dif_pos b.length_le]

instance : Ssz.LawfulCodec (BitList max) where
  maxSize := max / 8 + 1
  length_encode_le b := by
    have hle := b.length_le
    show b.encode.length ≤ _
    rw [length_encode]
    omega
  fits_encode _ := trivial
  decode_eq_ok_iff := mapError_eq_ok_iff.trans decode_eq_ok_iff

end Saboteur.BitList
