import Saboteur.Proofs.Bytes.Reading
import Saboteur.Proofs.Text.Ascii
import Saboteur.Url.Parser

/-!
# Encoded parts

What is encoded once is encoded: percent signs and hexadecimal digits belong to no set, so a part
that was encoded stays as it is. Encoding makes no dot segment either, as the point belongs to no
set.
-/

namespace Saboteur.Url

/-! ## Sets -/

/-- A set of characters that encoding gets rid of. -/
structure IsEncodeSet (encoded : Char → Bool) : Prop where
  code : ∀ c, c = '%' ∨ c.isAlphanum = true → encoded c = false
  control : ∀ c, isControl c = true → encoded c = true

/-- Whether a text has no character of a set. -/
def Plain (encoded : Char → Bool) (s : List Char) : Prop := ∀ c ∈ s, encoded c = false

theorem lt_of_isAlphanum {c : Char} (h : c = '%' ∨ c.isAlphanum = true) : c.toNat < 128 := by
  rcases h with rfl | h
  · decide
  · rw [Text.isAlphanum_iff] at h
    omega

/-- A set has no codes if it has none among the first characters. -/
theorem isEncodeSet_of {encoded : Char → Bool}
    (hcode : ∀ n < 128, Char.ofNat n = '%' ∨ (Char.ofNat n).isAlphanum = true →
      encoded (Char.ofNat n) = false)
    (hcontrol : ∀ c, isControl c = true → encoded c = true) : IsEncodeSet encoded where
  code _ h := Text.of_forall_lt_128 (P := fun c => c = '%' ∨ c.isAlphanum = true →
    encoded c = false) hcode (lt_of_isAlphanum h) h
  control := hcontrol

theorem isEncodeSet_isControl : IsEncodeSet isControl := isEncodeSet_of (by decide) fun _ h => h

theorem isEncodeSet_fragmentSet : IsEncodeSet fragmentSet :=
  isEncodeSet_of (by decide) fun c h => by simp [fragmentSet, h]

theorem isEncodeSet_pathSet : IsEncodeSet pathSet :=
  isEncodeSet_of (by decide) fun c h => by simp [pathSet, isEncodeSet_fragmentSet.control c h]

theorem isEncodeSet_userinfoSet : IsEncodeSet userinfoSet :=
  isEncodeSet_of (by decide) fun c h => by simp [userinfoSet, isEncodeSet_pathSet.control c h]

theorem isEncodeSet_querySet (special : Bool) : IsEncodeSet (querySet special) :=
  isEncodeSet_of (by cases special <;> decide) fun c h => by simp [querySet, h]

/-! ## Encoding -/

variable {encoded : Char → Bool} {s : List Char} {c : Char}

theorem encodePart_of_plain (h : Plain encoded s) : encodePart encoded s = String.ofList s := by
  rw [encodePart, flatMap_eq_self fun c hc => ?_]
  rw [encodeChar, h c hc]
  rfl

theorem isAlphanum_upperDigit {n : Nat} (h : n < 16) : (upperDigit n).isAlphanum = true := by
  have hall : ∀ n < 16, (upperDigit n).isAlphanum = true := by decide
  exact hall n h

theorem isCode_of_mem_encodeByte {b : UInt8} (h : c ∈ encodeByte b) :
    c = '%' ∨ c.isAlphanum = true := by
  have hb := b.toNat_lt
  simp only [encodeByte, List.mem_cons, List.not_mem_nil, or_false] at h
  rcases h with rfl | rfl | rfl
  · exact .inl rfl
  · exact .inr (isAlphanum_upperDigit (by omega))
  · exact .inr (isAlphanum_upperDigit (by omega))

/-- What stands in an encoded part: characters that stay, and codes for the others. -/
theorem mem_of_mem_encodePart (h : c ∈ (encodePart encoded s).toList) :
    (c ∈ s ∧ encoded c = false) ∨ c = '%' ∨ c.isAlphanum = true := by
  rw [encodePart, String.toList_ofList, List.mem_flatMap] at h
  obtain ⟨d, hd, hc⟩ := h
  rw [encodeChar] at hc
  split at hc
  · obtain ⟨b, -, hb⟩ := List.mem_flatMap.1 hc
    exact .inr (isCode_of_mem_encodeByte hb)
  · rename_i hset
    rw [List.mem_singleton.1 hc]
    exact .inl ⟨hd, Bool.eq_false_iff.2 hset⟩

/-- **What was encoded stays as it is.** -/
theorem plain_encodePart (h : IsEncodeSet encoded) (s : List Char) :
    Plain encoded (encodePart encoded s).toList := fun c hc =>
  (mem_of_mem_encodePart hc).elim (·.2) (h.code c)

/-- A character of an encoded part can be seen. -/
theorem Plain.isControl_eq_false (h : Plain encoded s) (hset : IsEncodeSet encoded) (hc : c ∈ s) :
    isControl c = false := by
  rw [Bool.eq_false_iff]
  intro hcontrol
  have hnot := h c hc
  rw [hset.control c hcontrol] at hnot
  cases hnot

theorem encodeChar_of_mem (h : encoded c = true) :
    encodeChar encoded c = (String.utf8EncodeChar c).flatMap encodeByte := by
  rw [encodeChar, if_pos h, Char.toString_eq_singleton, String.singleton_eq_ofList,
    Text.bytes_ofList, List.flatMap_cons, List.flatMap_nil, List.append_nil]

theorem encodeChar_ne_nil (encoded : Char → Bool) (c : Char) : encodeChar encoded c ≠ [] := by
  by_cases h : encoded c = true
  · rw [encodeChar_of_mem h]
    obtain ⟨b, bytes, hbytes⟩ := List.exists_cons_of_ne_nil (String.utf8EncodeChar_ne_nil (c := c))
    rw [hbytes]
    exact List.cons_ne_nil _ _
  · rw [encodeChar, if_neg h]
    exact List.cons_ne_nil _ _

theorem encodePart_eq_empty_iff : encodePart encoded s = "" ↔ s = [] := by
  rw [← String.toList_eq_nil_iff, encodePart, String.toList_ofList, List.flatMap_eq_nil_iff]
  constructor
  · intro h
    cases s with
    | nil => rfl
    | cons c rest => exact absurd (h c List.mem_cons_self) (encodeChar_ne_nil encoded c)
  · rintro rfl
    exact fun c hc => absurd hc List.not_mem_nil

/-! ## Dot segments -/

/-- Whether a piece of a path stands for another segment. -/
def IsDot (s : List Char) : Prop := isSingleDot s = true ∨ isDoubleDot s = true

instance (s : List Char) : Decidable (IsDot s) := inferInstanceAs (Decidable (_ ∨ _))

/-- The only code in a dot segment is that of the point. -/
theorem IsDot.code {a b : Char} {before after : List Char}
    (h : IsDot (before ++ '%' :: a :: b :: after)) : lowerAscii a = '2' ∧ lowerAscii b = 'e' := by
  have hforms : ∀ t ∈ [".", "%2e", "..", ".%2e", "%2e.", "%2e%2e"],
      ∀ (before : List Char) (a b : Char) (after : List Char),
        t.toList = before ++ '%' :: a :: b :: after → a = '2' ∧ b = 'e' := by
    intro t ht before a b after heq
    simp only [List.mem_cons, List.not_mem_nil, or_false] at ht
    rcases ht with rfl | rfl | rfl | rfl | rfl | rfl <;>
      simp [List.cons_eq_append_iff] at heq <;> grind
  have hmap : (String.ofList ((before ++ '%' :: a :: b :: after).map lowerAscii)).toList =
      before.map lowerAscii ++ '%' :: lowerAscii a :: lowerAscii b :: after.map lowerAscii := by
    rw [String.toList_ofList, List.map_append]
    rfl
  refine hforms _ ?_ _ _ _ _ hmap
  simp only [IsDot, isSingleDot, isDoubleDot, Bool.or_eq_true, decide_eq_true_eq, or_assoc] at h
  simpa using h

/-- The code of the point stands for nothing but the point. -/
theorem eq_point_of_code {b : UInt8} {bytes : List UInt8} (hc : String.utf8EncodeChar c = b :: bytes)
    (hhigh : lowerAscii (upperDigit (b.toNat / 16)) = '2')
    (hlow : lowerAscii (upperDigit (b.toNat % 16)) = 'e') : c = '.' := by
  have hdigits : ∀ n < 16, (lowerAscii (upperDigit n) = '2' → n = 2) ∧
      (lowerAscii (upperDigit n) = 'e' → n = 14) := by decide
  have hlt := b.toNat_lt
  have htwo := (hdigits (b.toNat / 16) (by omega)).1 hhigh
  have hfourteen := (hdigits (b.toNat % 16) (by omega)).2 hlow
  rcases Nat.lt_or_ge c.toNat 128 with hascii | hwide
  · rw [Text.utf8EncodeChar_of_lt hascii] at hc
    have hb : (UInt8.ofNat c.toNat).toNat = b.toNat := congrArg UInt8.toNat (List.cons.inj hc).1
    rw [UInt8.toNat_ofNat'] at hb
    have hpoint : c.toNat = '.'.toNat := by
      show c.toNat = 46
      omega
    exact Char.toNat_inj.1 hpoint
  · have hge := Text.le_of_mem_utf8EncodeChar hwide (hc ▸ List.mem_cons_self)
    omega

/-- What is encoded in a dot segment is nothing. -/
theorem IsDot.plain (h : IsDot (encodePart pathSet s).toList) : Plain pathSet s := by
  intro c hc
  rw [Bool.eq_false_iff]
  intro hset
  obtain ⟨before, after, rfl⟩ := List.append_of_mem hc
  obtain ⟨b, bytes, hbytes⟩ := List.exists_cons_of_ne_nil (String.utf8EncodeChar_ne_nil (c := c))
  rw [encodePart, String.toList_ofList, List.flatMap_append, List.flatMap_cons,
    encodeChar_of_mem hset, hbytes, List.flatMap_cons, encodeByte, List.append_assoc] at h
  obtain ⟨hhigh, hlow⟩ := h.code
  rw [eq_point_of_code hbytes hhigh hlow] at hset
  exact absurd hset (by decide)

/-- **Encoding makes no dot segment.** -/
theorem IsDot.of_encodePart (h : IsDot (encodePart pathSet s).toList) : IsDot s := by
  have hsame := encodePart_of_plain h.plain
  rwa [hsame, String.toList_ofList] at h

end Saboteur.Url
