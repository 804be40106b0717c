import Saboteur.Text.Cutting

/-!
# Texts and their bytes

A text is determined by its bytes, and the characters below 128 are one byte each. Trimming cuts off
the blanks at both ends and nothing else, so a text without blanks is its own trimmed form.
-/

namespace Saboteur.Text

/-! ## Bytes of a text -/

theorem toList_loop (bs : ByteArray) (i : Nat) (acc : List UInt8) :
    ByteArray.toList.loop bs i acc = acc.reverse ++ bs.data.toList.drop i := by
  fun_induction ByteArray.toList.loop bs i acc with
  | case1 i acc hi ih =>
    have hlt : i < bs.data.toList.length := by rwa [Array.length_toList]
    have hget : bs.get! i = bs.data.toList[i] := getElem!_pos bs.data i hi
    rw [ih, List.reverse_cons, List.append_assoc, List.singleton_append, hget,
      ← List.drop_eq_getElem_cons hlt]
  | case2 i acc hi =>
    have hle : bs.data.toList.length ≤ i := by
      rw [Array.length_toList]
      exact Nat.le_of_not_lt hi
    rw [List.drop_eq_nil_of_le hle, List.append_nil]

theorem toList_eq_data (bs : ByteArray) : bs.toList = bs.data.toList := by
  rw [ByteArray.toList, toList_loop, List.reverse_nil, List.nil_append, List.drop_zero]

/-- A text is determined by its bytes. -/
theorem eq_of_bytes_eq {s t : String} (h : s.toUTF8.toList = t.toUTF8.toList) : s = t := by
  rw [toList_eq_data, toList_eq_data] at h
  exact String.toByteArray_inj.1 (ByteArray.ext (Array.toList_inj.1 h))

theorem bytes_ofList (cs : List Char) :
    (String.ofList cs).toUTF8.toList = cs.flatMap String.utf8EncodeChar := by
  rw [toList_eq_data, String.toUTF8_eq_toByteArray, String.toByteArray_ofList]
  exact List.toList_data_toByteArray

/-- The character of a byte below 128 is that byte. -/
theorem utf8EncodeChar_ofNat {b : UInt8} (h : b.toNat < 128) :
    String.utf8EncodeChar (Char.ofNat b.toNat) = [b] := by
  have hall : ∀ n ∈ List.range 128,
      String.utf8EncodeChar (Char.ofNat n) = [UInt8.ofNat n] := by decide +kernel
  rw [hall b.toNat (List.mem_range.2 h), UInt8.ofNat_toNat]

theorem utf8EncodeChar_of_lt {c : Char} (h : c.toNat < 128) :
    String.utf8EncodeChar c = [UInt8.ofNat c.toNat] := by
  have hle : c.val.toNat ≤ 127 := Nat.le_of_lt_succ h
  rw [String.utf8EncodeChar]
  simp only [if_pos hle]
  rfl

/-- A character from 128 on has no byte below 128. -/
theorem le_of_mem_utf8EncodeChar {c : Char} (h : 128 ≤ c.toNat) {b : UInt8}
    (hb : b ∈ String.utf8EncodeChar c) : 128 ≤ b.toNat := by
  have hgt : ¬ c.val.toNat ≤ 127 := Nat.not_le.2 h
  rw [String.utf8EncodeChar] at hb
  simp only [if_neg hgt] at hb
  split at hb
  · simp only [List.mem_cons, List.not_mem_nil, or_false] at hb
    rcases hb with rfl | rfl <;> rw [UInt8.toNat_ofNat'] <;> omega
  · split at hb
    · simp only [List.mem_cons, List.not_mem_nil, or_false] at hb
      rcases hb with rfl | rfl | rfl <;> rw [UInt8.toNat_ofNat'] <;> omega
    · simp only [List.mem_cons, List.not_mem_nil, or_false] at hb
      rcases hb with rfl | rfl | rfl | rfl <;> rw [UInt8.toNat_ofNat'] <;> omega

/-- A text is read from its own bytes. -/
theorem fromUTF8?_toUTF8 (s : String) : String.fromUTF8? s.toUTF8 = some s := by
  simp only [String.fromUTF8?, String.toUTF8_eq_toByteArray, dif_pos s.isValidUTF8]
  rfl

/-- What holds of all characters below 128 is checked one by one. -/
theorem of_forall_lt_128 {P : Char → Prop} (hall : ∀ n < 128, P (Char.ofNat n)) {c : Char}
    (h : c.toNat < 128) : P c :=
  Char.ofNat_toNat c ▸ hall c.toNat h

/-- Bytes below 128 are the bytes of their characters. -/
theorem bytes_ofList_map {bytes : List UInt8} (h : ∀ b ∈ bytes, b.toNat < 128) :
    (String.ofList (bytes.map fun b => Char.ofNat b.toNat)).toUTF8.toList = bytes := by
  rw [bytes_ofList]
  induction bytes with
  | nil => rfl
  | cons b bytes ih =>
    obtain ⟨hb, hrest⟩ := List.forall_mem_cons.1 h
    rw [List.map_cons, List.flatMap_cons, utf8EncodeChar_ofNat hb, ih hrest,
      List.singleton_append]

/-! ## Trimming -/

theorem dropWhile_eq_self {cs : List Char} (h : ∀ c ∈ cs, isBlank c = false) :
    cs.dropWhile isBlank = cs := by
  cases cs with
  | nil => rfl
  | cons c rest => rw [List.dropWhile_cons, h c (List.mem_cons_self ..)]; rfl

theorem trimList_eq_self {cs : List Char} (h : ∀ c ∈ cs, isBlank c = false) : trimList cs = cs := by
  rw [trimList, dropWhile_eq_self h, trimRight,
    dropWhile_eq_self fun c hc => h c (List.mem_reverse.1 hc), List.reverse_reverse]

/-- Nothing is cut from a text without blanks. -/
theorem trim_eq_self {s : String} (h : ∀ c ∈ s.toList, isBlank c = false) : trim s = s := by
  rw [trim, trimList_eq_self h]
  exact String.ofList_toList

/-- A text that does not end in a blank. -/
def EndsUnblank (s : List Char) : Prop := ∀ c ∈ s.getLast?, isBlank c = false

theorem endsUnblank_cons {c : Char} {s : List Char} (hc : isBlank c = false) (h : EndsUnblank s) :
    EndsUnblank (c :: s) := by
  cases s with
  | nil => simpa [EndsUnblank] using hc
  | cons c' rest => exact fun x hx => h x (by rwa [List.getLast?_cons_cons] at hx)

theorem endsUnblank_of_append {s t : List Char} (h : EndsUnblank (s ++ t)) : EndsUnblank t := by
  intro c hc
  refine h c ?_
  rw [List.getLast?_append, Option.mem_def.1 hc]
  rfl

theorem trimRight_eq_self {s : List Char} (h : EndsUnblank s) : trimRight s = s := by
  rcases List.eq_nil_or_concat s with rfl | ⟨init, c, rfl⟩
  · rfl
  · have hc : ¬ isBlank c = true := by simp [h c (by simp)]
    rw [trimRight, List.concat_eq_append, List.reverse_append, List.reverse_singleton,
      List.singleton_append, List.dropWhile_cons_of_neg hc, List.reverse_cons, List.reverse_reverse]

theorem endsUnblank_trimRight (s : List Char) : EndsUnblank (trimRight s) := by
  intro c hc
  rw [trimRight, List.getLast?_reverse, Option.mem_def] at hc
  have hhead := List.head?_dropWhile_not isBlank s.reverse
  rwa [hc] at hhead

theorem trimList_cons_eq_self {c : Char} {rest : List Char} (hc : isBlank c = false)
    (h : EndsUnblank (c :: rest)) : trimList (c :: rest) = c :: rest := by
  rw [trimList, List.dropWhile_cons_of_neg (by simp [hc]), trimRight_eq_self h]

theorem trimRight_append {s after : List Char} (hs : EndsUnblank s)
    (hafter : ∀ c ∈ after, isBlank c = true) : trimRight (s ++ after) = s := by
  rw [trimRight, List.reverse_append,
    List.dropWhile_append_of_pos fun c hc => hafter c (List.mem_reverse.1 hc)]
  exact trimRight_eq_self hs

/-- Blanks around a text without blanks are cut off, and no more. -/
theorem trimList_append {before s after : List Char} (hbefore : ∀ c ∈ before, isBlank c = true)
    (hs : ∀ c ∈ s, isBlank c = false) (hafter : ∀ c ∈ after, isBlank c = true) :
    trimList (before ++ s ++ after) = s := by
  have hends : EndsUnblank s := fun c hc => hs c (List.mem_of_getLast? hc)
  rw [trimList, List.append_assoc, List.dropWhile_append_of_pos hbefore]
  cases s with
  | nil =>
    rw [List.nil_append, ← List.append_nil after, List.dropWhile_append_of_pos hafter]
    rfl
  | cons c rest =>
    have hc : ¬ isBlank c = true := by simp [hs c (List.mem_cons_self ..)]
    rw [List.cons_append, List.dropWhile_cons_of_neg hc, ← List.cons_append,
      trimRight_append hends hafter]

/-- What is cut from a text is blank. -/
theorem exists_blanks (s : List Char) :
    ∃ before after, (∀ c ∈ before, isBlank c = true) ∧ (∀ c ∈ after, isBlank c = true) ∧
      s = before ++ trimList s ++ after := by
  have htake : ∀ l : List Char, ∀ c ∈ l.takeWhile isBlank, isBlank c = true := fun l =>
    List.all_eq_true.1 List.all_takeWhile
  refine ⟨s.takeWhile isBlank, ((s.dropWhile isBlank).reverse.takeWhile isBlank).reverse,
    htake s, fun c hc => htake _ c (List.mem_reverse.1 hc), ?_⟩
  rw [trimList, trimRight, List.append_assoc, ← List.reverse_append,
    List.takeWhile_append_dropWhile, List.reverse_reverse, List.takeWhile_append_dropWhile]

/-- Letters and digits lie in three runs of characters. -/
theorem isAlphanum_iff {c : Char} : c.isAlphanum = true ↔
    0x41 ≤ c.toNat ∧ c.toNat ≤ 0x5A ∨ 0x61 ≤ c.toNat ∧ c.toNat ≤ 0x7A ∨
      0x30 ≤ c.toNat ∧ c.toNat ≤ 0x39 := by
  have hrun (first last : UInt32) : (decide (first ≤ c.val) && decide (c.val ≤ last)) = true ↔
      first.toNat ≤ c.toNat ∧ c.toNat ≤ last.toNat := by
    rw [Bool.and_eq_true, decide_eq_true_eq, decide_eq_true_eq]
    exact Iff.rfl
  change ((c.isUpper || c.isLower) || c.isDigit) = true ↔ _
  rw [Bool.or_eq_true, Bool.or_eq_true, or_assoc]
  exact or_congr decide_eq_true_iff (or_congr (hrun 0x61 0x7A) (hrun 0x30 0x39))

theorem isBlank_of_isAlphanum {c : Char} (h : c.isAlphanum = true) : isBlank c = false := by
  rw [isAlphanum_iff] at h
  simp only [isBlank, Bool.or_eq_false_iff, Bool.and_eq_false_iff, decide_eq_false_iff_not,
    beq_eq_false_iff_ne, ne_eq]
  omega

end Saboteur.Text
