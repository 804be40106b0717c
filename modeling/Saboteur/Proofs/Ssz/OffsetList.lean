import Saboteur.Proofs.Ssz.Lawful

/-!
# Lists of items of varying size

Such a list is a table of offsets and the items behind it. The first offset gives the number of
items away, since the table ends where the first item begins. The offsets of a list that can be read
are the ones that its items lead to, so the table of a list is determined by its items.
-/

namespace Saboteur

/-! ## Pieces of one length -/

theorem piecesOf_append {α : Type} {n : Nat} {piece : List α} (hn : 0 < n)
    (h : piece.length = n) (rest : List α) :
    piecesOf n (piece ++ rest) = piece :: piecesOf n rest := by
  cases piece with
  | nil => exact absurd h (by simp; omega)
  | cons a tail =>
    have htail : tail.length = n - 1 := by
      rw [List.length_cons] at h
      omega
    rw [List.cons_append, piecesOf, if_neg (Nat.ne_of_gt hn), List.drop_left' htail]
    show ((a :: tail) ++ rest).take n :: _ = _
    rw [List.take_left' h]

theorem piecesOf_flatMap {α β : Type} {n : Nat} (hn : 0 < n) {f : β → List α}
    (hf : ∀ b, (f b).length = n) (bs : List β) :
    piecesOf n (bs.flatMap f) = bs.map f := by
  induction bs with
  | nil =>
    show piecesOf n [] = []
    rw [piecesOf, if_neg (Nat.ne_of_gt hn)]
  | cons b bs ih =>
    rw [List.flatMap_cons, piecesOf_append hn (hf b), ih, List.map_cons]

namespace Ssz

/-! ## Tables of offsets -/

/-- The offsets of which a table consists. -/
def readTable (bytes : List UInt8) : List Nat :=
  (piecesOf offsetSize bytes).map ofLittleEndian

/-- The bytes of a table. -/
def writeTable (offsets : List Nat) : List UInt8 := offsets.flatMap (littleEndian offsetSize)

theorem length_writeTable (offsets : List Nat) :
    (writeTable offsets).length = offsets.length * offsetSize := by
  induction offsets with
  | nil => rfl
  | cons o offsets ih =>
    show (littleEndian offsetSize o ++ writeTable offsets).length = _
    rw [List.length_append, length_littleEndian, ih, List.length_cons, Nat.succ_mul,
      Nat.add_comm]

theorem readTable_writeTable {offsets : List Nat} (h : ∀ o ∈ offsets, o < addressable) :
    readTable (writeTable offsets) = offsets := by
  unfold readTable writeTable
  rw [piecesOf_flatMap (by decide) (length_littleEndian offsetSize), List.map_map]
  refine (List.map_congr_left fun o ho => ?_).trans (List.map_id _)
  exact ofLittleEndian_littleEndian _ _ (h o ho)

theorem readTable_append {front : List UInt8} (h : front.length = offsetSize)
    (rest : List UInt8) : readTable (front ++ rest) = ofLittleEndian front :: readTable rest := by
  unfold readTable
  rw [piecesOf_append (by decide) h, List.map_cons]

theorem writeTable_readTable {bytes : List UInt8} {count : Nat}
    (h : bytes.length = count * offsetSize) : writeTable (readTable bytes) = bytes := by
  induction count generalizing bytes with
  | zero =>
    rw [Nat.zero_mul] at h
    rw [List.eq_nil_of_length_eq_zero h, readTable, piecesOf]
    rfl
  | succ count ih =>
    rw [Nat.succ_mul] at h
    have htake : (bytes.take offsetSize).length = offsetSize :=
      List.length_take_of_le (by omega)
    have hrest : writeTable (readTable (bytes.drop offsetSize)) = bytes.drop offsetSize :=
      ih (by rw [List.length_drop]; omega)
    have htable := readTable_append htake (bytes.drop offsetSize)
    rw [List.take_append_drop] at htable
    have hfirst := littleEndian_ofLittleEndian (bytes.take offsetSize)
    rw [htake] at hfirst
    rw [htable]
    show littleEndian offsetSize (ofLittleEndian (bytes.take offsetSize)) ++ writeTable _ = bytes
    rw [hfirst, hrest, List.take_append_drop]

/-! ## Items and their offsets -/

theorem layoutSize_items {α : Type} (items : List α) :
    layoutSize (items.map fun _ => none) = items.length * offsetSize := by
  induction items with
  | nil => rfl
  | cons a rest ih =>
    show offsetSize + layoutSize (rest.map fun _ => none) = _
    rw [ih, List.length_cons, Nat.succ_mul, Nat.add_comm]

section Items

variable {α : Type} [Codec α]

/-- Where items begin when the first begins at `offset`. -/
def offsetsFrom : (offset : Nat) → List α → List Nat
  | _, [] => []
  | offset, a :: rest => offset :: offsetsFrom (offset + (encode a).length) rest

theorem length_offsetsFrom (offset : Nat) (items : List α) :
    (offsetsFrom offset items).length = items.length := by
  induction items generalizing offset with
  | nil => rfl
  | cons a rest ih => rw [offsetsFrom, List.length_cons, ih, List.length_cons]

theorem le_of_mem_offsetsFrom {offset o : Nat} {items : List α}
    (h : o ∈ offsetsFrom offset items) : o ≤ offset + (items.flatMap encode).length := by
  induction items generalizing offset with
  | nil => cases h
  | cons a rest ih =>
    rw [List.flatMap_cons, List.length_append]
    rcases List.mem_cons.1 h with rfl | h
    · omega
    · have hle := ih h
      omega

/-- The places of items of varying size. -/
theorem map_part_eq (hα : Codec.fixedSize α = none) (items : List α) :
    items.map part = parts (items.map fun _ => none) (items.map encode) := by
  unfold parts
  rw [List.zipWith_map_left, List.zipWith_map_right, List.zipWith_self]
  refine List.map_congr_left fun a _ => ?_
  rw [part_eq, hα]

theorem fits_items (items : List α) :
    List.Forall₂ Fits (items.map fun _ => none) (items.map encode) := by
  induction items with
  | nil => exact .nil
  | cons a rest ih => exact .cons trivial ih

theorem head_items (offset : Nat) (items : List α) :
    head offset (parts (items.map fun _ => none) (items.map encode)) =
      writeTable (offsetsFrom offset items) := by
  induction items generalizing offset with
  | nil => rfl
  | cons a rest ih => exact congrArg (littleEndian offsetSize offset ++ ·) (ih _)

theorem bodies_items (items : List α) :
    bodies (parts (items.map fun _ => none) (items.map encode)) = items.flatMap encode := by
  induction items with
  | nil => rfl
  | cons a rest ih => exact congrArg (encode a ++ ·) ih

/-- Items of varying size are the table of their offsets and their encodings. -/
theorem encodeItems_eq (hα : Codec.fixedSize α = none) (items : List α) :
    encodeItems items =
      writeTable (offsetsFrom (items.length * offsetSize) items) ++ items.flatMap encode := by
  rw [encodeItems, map_part_eq hα, join_parts (fits_items items), layoutSize_items, head_items,
    bodies_items]

theorem length_encodeItems (hα : Codec.fixedSize α = none) (items : List α) :
    (encodeItems items).length =
      items.length * offsetSize + (items.flatMap encode).length := by
  rw [encodeItems_eq hα, List.length_append, length_writeTable, length_offsetsFrom]

end Items

/-! ## What the reader checks -/

section Reader

variable {α : Type} [Codec α]

/-- Reading on at the next offset of a table. -/
theorem decodeOffsetItems_cons_iff {bytes : List UInt8} {total first offset next : Nat}
    {rest : List Nat} {items : List α} :
    decodeOffsetItems bytes total first offset (next :: rest) = .ok items ↔
      first ≤ next ∧ next ≤ total ∧ offset ≤ next ∧ ∃ a items',
        decode ((bytes.drop offset).take (next - offset)) = .ok a ∧
          decodeOffsetItems bytes total first next rest = .ok items' ∧ items = a :: items' := by
  rw [decodeOffsetItems]
  constructor
  · intro h
    split at h
    case isTrue => cases h
    case isFalse hfirst =>
      split at h
      case h_1 => cases h
      case h_2 hcheck =>
        obtain ⟨hhigh, hlow⟩ := checkOffset_eq_ok_iff.1 hcheck
        split at h
        case h_1 => cases h
        case h_2 a ha =>
          obtain ⟨items', hitems', rfl⟩ := map_eq_ok_iff.1 h
          exact ⟨Nat.le_of_not_lt hfirst, hhigh, hlow offset rfl, a, items', ha, hitems', rfl⟩
  · rintro ⟨hfirst, hhigh, hlow, a, items', ha, hitems', rfl⟩
    have hcheck : checkOffset total (some offset) next = .ok () :=
      checkOffset_eq_ok_iff.2 ⟨hhigh, by rintro p ⟨⟩; exact hlow⟩
    rw [if_neg (Nat.not_lt_of_le hfirst)]
    simp only [hcheck, ha, hitems']
    rfl

/-- A list begins with the size of its table, which has at least one offset. -/
theorem decodeOffsetList_eq_ok_iff {max : Nat} {bytes : List UInt8} {items : List α} :
    decodeOffsetList max bytes = .ok items ↔
      ∃ count, readOffset bytes = .ok (count * offsetSize) ∧ 0 < count ∧ count ≤ max ∧
        count * offsetSize ≤ bytes.length ∧
        decodeOffsetItems bytes bytes.length (count * offsetSize) (count * offsetSize)
          (readTable (bytes.take (count * offsetSize))).tail = .ok items := by
  unfold decodeOffsetList
  constructor
  · intro h
    split at h
    case h_1 => cases h
    case h_2 first hread =>
      split at h
      case isTrue => cases h
      case isFalse hle =>
        split at h
        case isTrue => cases h
        case isFalse hwhole =>
          split at h
          case isTrue => cases h
          case isFalse hmax =>
            have hfirst : first / offsetSize * offsetSize = first := by
              unfold offsetSize at hwhole ⊢
              omega
            refine ⟨first / offsetSize, ?_, ?_, Nat.le_of_not_lt hmax, ?_, ?_⟩
            · rwa [hfirst]
            · unfold offsetSize at hwhole ⊢
              omega
            · rw [hfirst]
              exact Nat.le_of_not_lt hle
            · rw [hfirst]
              exact h
  · rintro ⟨count, hread, hpos, hmax, hle, hitems⟩
    have hcount : count * offsetSize / offsetSize = count := Nat.mul_div_cancel _ (by decide)
    simp only [hread]
    rw [if_neg (Nat.not_lt_of_le hle), if_neg (by unfold offsetSize; omega), hcount,
      if_neg (Nat.not_lt_of_le hmax)]
    exact hitems

/-- The table begins with the offset that tells its size. -/
theorem readTable_take {bytes : List UInt8} {count : Nat} (hpos : 0 < count)
    (h : readOffset bytes = .ok (count * offsetSize)) :
    count * offsetSize :: (readTable (bytes.take (count * offsetSize))).tail =
      readTable (bytes.take (count * offsetSize)) := by
  obtain ⟨hfour, hvalue⟩ := readOffset_eq_ok_iff.1 h
  have hle : offsetSize ≤ count * offsetSize := Nat.le_mul_of_pos_left _ hpos
  have hcut : bytes.take (count * offsetSize) = bytes.take offsetSize ++
      (bytes.drop offsetSize).take (count * offsetSize - offsetSize) := by
    rw [← List.take_add, Nat.add_sub_cancel' hle]
  rw [hcut, readTable_append (List.length_take_of_le hfour), hvalue, List.tail_cons]

end Reader

/-! ## What is read -/

section Lawful

variable {α : Type} [Codec α] [LawfulCodec α]

/-- **Items are read at the offsets of a table exactly when the table is the one they lead to.** -/
theorem decodeOffsetItems_eq_ok_iff {bytes : List UInt8} {first offset : Nat}
    {table : List Nat} {items : List α} (hfirst : first ≤ offset)
    (hoffset : offset ≤ bytes.length) :
    decodeOffsetItems bytes bytes.length first offset table = .ok items ↔
      offset :: table = offsetsFrom offset items ∧ bytes.drop offset = items.flatMap encode := by
  induction table generalizing offset items with
  | nil =>
    rw [decodeOffsetItems, map_eq_ok_iff]
    constructor
    · rintro ⟨a, ha, rfl⟩
      refine ⟨rfl, ?_⟩
      rw [decode_eq_ok_iff.1 ha, List.flatMap_singleton]
    · rintro ⟨htable, hbytes⟩
      have hlength := congrArg List.length htable
      rw [length_offsetsFrom] at hlength
      obtain ⟨a, rfl⟩ := List.length_eq_one_iff.1 hlength.symm
      rw [List.flatMap_singleton] at hbytes
      exact ⟨a, decode_eq_ok_iff.2 hbytes, rfl⟩
  | cons next rest ih =>
    rw [decodeOffsetItems_cons_iff]
    constructor
    · rintro ⟨hnext, hhigh, hle, a, items', ha, hitems', rfl⟩
      obtain ⟨htable, hbytes⟩ := (ih hnext hhigh).1 hitems'
      have hencode := decode_eq_ok_iff.1 ha
      have hlength : (encode a).length = next - offset := by
        rw [← hencode, List.length_take, List.length_drop]
        omega
      refine ⟨?_, ?_⟩
      · rw [offsetsFrom, hlength, Nat.add_sub_cancel' hle, htable]
      · rw [List.flatMap_cons, ← hencode, ← hbytes]
        conv_lhs => rw [← List.take_append_drop (next - offset) (bytes.drop offset)]
        rw [List.drop_drop, Nat.add_sub_cancel' hle]
    · rintro ⟨htable, hbytes⟩
      cases items with
      | nil => cases htable
      | cons a items =>
        have htail : next :: rest = offsetsFrom (offset + (encode a).length) items :=
          (List.cons.inj htable).2
        -- an offset follows, so an item follows, and it begins where `a` ends
        have hnext : next = offset + (encode a).length := by
          cases items with
          | nil => cases htail
          | cons b items => exact (List.cons.inj htail).1
        subst hnext
        rw [List.flatMap_cons] at hbytes
        have hlength := congrArg List.length hbytes
        rw [List.length_drop, List.length_append] at hlength
        have hhigh : offset + (encode a).length ≤ bytes.length := by omega
        have hdrop : bytes.drop (offset + (encode a).length) = items.flatMap encode := by
          rw [← List.drop_drop, hbytes, List.drop_left' rfl]
        refine ⟨by omega, hhigh, Nat.le_add_right _ _, a, items, ?_,
          (ih (by omega) hhigh).2 ⟨htail, hdrop⟩, rfl⟩
        rw [decode_eq_ok_iff, Nat.add_sub_cancel_left, hbytes, List.take_left' rfl]

theorem eq_encodeItems_of_decodeOffsetList (hα : Codec.fixedSize α = none) {max : Nat}
    {bytes : List UInt8} {items : List α} (h : decodeOffsetList max bytes = .ok items) :
    bytes = encodeItems items := by
  obtain ⟨count, hread, hpos, -, hle, hitems⟩ := decodeOffsetList_eq_ok_iff.1 h
  rw [decodeOffsetItems_eq_ok_iff (Nat.le_refl _) hle, readTable_take hpos hread] at hitems
  obtain ⟨htable, hbodies⟩ := hitems
  have hhead := writeTable_readTable (List.length_take_of_le hle)
  rw [htable] at hhead
  have hlength := congrArg List.length hhead
  rw [length_writeTable, length_offsetsFrom, List.length_take_of_le hle] at hlength
  rw [encodeItems_eq hα, hlength, hhead, ← hbodies, List.take_append_drop]

theorem decodeOffsetList_encodeItems (hα : Codec.fixedSize α = none) {max : Nat}
    {items : List α} (hne : items ≠ []) (hmax : items.length ≤ max)
    (hsize : (encodeItems items).length < addressable) :
    decodeOffsetList max (encodeItems items) = .ok items := by
  have hlength := length_encodeItems hα items
  have hencode := encodeItems_eq hα items
  have hpos := List.length_pos_iff.2 hne
  have hle : items.length * offsetSize ≤ (encodeItems items).length := by omega
  have hwrite : (writeTable (offsetsFrom (items.length * offsetSize) items)).length =
      items.length * offsetSize := by
    rw [length_writeTable, length_offsetsFrom]
  have htable : readTable ((encodeItems items).take (items.length * offsetSize)) =
      offsetsFrom (items.length * offsetSize) items := by
    rw [hencode, List.take_left' hwrite]
    refine readTable_writeTable fun o ho => ?_
    have hbound := le_of_mem_offsetsFrom ho
    omega
  have hread : readOffset (encodeItems items) = .ok (items.length * offsetSize) := by
    rw [hencode]
    cases items with
    | nil => exact absurd rfl hne
    | cons a rest =>
      show readOffset ((littleEndian offsetSize _ ++ _) ++ _) = _
      rw [List.append_assoc]
      exact readOffset_littleEndian (by omega) _
  refine decodeOffsetList_eq_ok_iff.2 ⟨items.length, hread, hpos, hmax, hle, ?_⟩
  rw [decodeOffsetItems_eq_ok_iff (Nat.le_refl _) hle, readTable_take hpos hread, htable]
  exact ⟨rfl, by rw [hencode, List.drop_left' hwrite]⟩

theorem decodeItems_eq_ok_iff (hα : Codec.fixedSize α = none) {max : Nat} {bytes : List UInt8}
    {items : List α} (hmax : items.length ≤ max)
    (hsize : (encodeItems items).length < addressable) :
    decodeItems max bytes = .ok items ↔ bytes = encodeItems items := by
  unfold decodeItems
  constructor
  · intro h
    split at h
    case isTrue hempty =>
      cases h
      exact List.isEmpty_iff.1 hempty
    case isFalse =>
      rw [hα] at h
      exact eq_encodeItems_of_decodeOffsetList hα h
  · rintro rfl
    by_cases hne : items = []
    · subst hne
      rfl
    · have hlength := length_encodeItems hα items
      have hpos := List.length_pos_iff.2 hne
      have hnonempty : ¬(encodeItems items).isEmpty = true := by
        rw [List.isEmpty_iff_length_eq_zero, hlength]
        unfold offsetSize
        omega
      rw [if_neg hnonempty, hα]
      exact decodeOffsetList_encodeItems hα hne hmax hsize

theorem length_encodeItems_le (hα : Codec.fixedSize α = none) (items : List α) :
    (encodeItems items).length ≤ items.length * (offsetSize + maxSize α) := by
  rw [length_encodeItems hα, Nat.mul_add]
  refine Nat.add_le_add_left ?_ _
  induction items with
  | nil => exact Nat.zero_le _
  | cons a rest ih =>
    have ha := length_encode_le a
    rw [List.flatMap_cons, List.length_append, List.length_cons, Nat.succ_mul]
    omega

omit [LawfulCodec α] in
/-- A list is read when its items are: they fit the capacity that they are read for. -/
theorem decode_capped_eq_ok_iff {max : Nat} {bytes : List UInt8} {l : Capped α max} :
    decode bytes = .ok l ↔ decodeItems max bytes = .ok l.toList := by
  cases hitems : (decodeItems max bytes : Except DecodeError (List α)) with
  | error e => simp [decode, hitems]
  | ok items =>
    simp only [decode, hitems, mapError_eq_ok_iff, Except.ok.injEq, Capped.ofList]
    constructor
    · intro h
      split at h
      case isTrue => rw [← Except.ok.inj h]
      case isFalse => cases h
    · rintro rfl
      rw [dif_pos l.length_le]

/-- **A list of lawful items of varying size is lawful when it stays addressable.** -/
@[reducible]
def Capped.lawful (hα : Codec.fixedSize α = none) {max : Nat}
    (hsize : max * (offsetSize + maxSize α) < addressable) : LawfulCodec (Capped α max) where
  maxSize := max * (offsetSize + maxSize α)
  length_encode_le l :=
    Nat.le_trans (length_encodeItems_le hα l.toList) (Nat.mul_le_mul_right _ l.length_le)
  fits_encode _ := trivial
  decode_eq_ok_iff {_ l} := by
    have hle := Nat.le_trans (length_encodeItems_le hα l.toList)
      (Nat.mul_le_mul_right (offsetSize + maxSize α) l.length_le)
    exact decode_capped_eq_ok_iff.trans
      (decodeItems_eq_ok_iff hα l.length_le (Nat.lt_of_le_of_lt hle hsize))

end Lawful

end Ssz

end Saboteur
