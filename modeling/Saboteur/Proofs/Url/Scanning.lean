import Mathlib.Data.List.TakeWhile
import Saboteur.Proofs.Text.Integer
import Saboteur.Proofs.Url.Encoding

/-!
# Scanning addresses

An address is taken apart at the first character of a kind, or at the last one. Each such step finds
the part that was written before the character.
-/

namespace Saboteur.Url

variable {s rest : List Char}

/-! ## Runs of characters -/

/-- Whether a list of characters begins with none but those of a kind. -/
def Begins (kind : Char → Prop) (s : List Char) : Prop := ∀ c ∈ s.head?, kind c

theorem begins_nil (kind : Char → Prop) : Begins kind [] := fun _ h => absurd h (by simp)

theorem begins_cons {kind : Char → Prop} {c : Char} : Begins kind (c :: s) ↔ kind c := by
  simp [Begins]

theorem Begins.imp {kind kind' : Char → Prop} (h : Begins kind s) (himp : ∀ c, kind c → kind' c) :
    Begins kind' s := fun c hc => himp c (h c hc)

theorem begins_append {kind : Char → Prop} (hs : Begins kind s) (hrest : Begins kind rest) :
    Begins kind (s ++ rest) := by
  cases s with
  | nil => exact hrest
  | cons c s => exact begins_cons.2 (begins_cons.1 hs)

/-- A run of characters ends where the condition fails. -/
theorem takeWhile_dropWhile_append {p : Char → Bool} {t : List Char} (hs : ∀ c ∈ s, p c = true)
    (ht : Begins (p · = false) t) : (s ++ t).takeWhile p = s ∧ (s ++ t).dropWhile p = t := by
  rw [List.takeWhile_append_of_pos hs, List.dropWhile_append_of_pos hs]
  cases t with
  | nil => simp
  | cons c t => simp [begins_cons.1 ht]

theorem cutBefore_append {stop : Char → Bool} (hs : ∀ c ∈ s, stop c = false)
    (hrest : Begins (stop · = true) rest) : cutBefore stop (s ++ rest) = (s, rest) := by
  obtain ⟨htake, hdrop⟩ := takeWhile_dropWhile_append (p := fun c => !stop c)
    (fun c hc => by rw [hs c hc]; rfl) (hrest.imp fun c hc => by rw [hc]; rfl)
  rw [cutBefore, htake, hdrop]

theorem cutAtLast?_of_not_mem {c : Char} (h : c ∉ s) : cutAtLast? c s = none := by
  rw [cutAtLast?, if_neg]
  rwa [List.contains_eq_mem, decide_eq_true_eq]

/-- What stands behind the last occurrence of a character does not hold it. -/
theorem cutAtLast?_append {c : Char} (h : c ∉ rest) :
    cutAtLast? c (s ++ c :: rest) = some (s, rest) := by
  have hrest : ∀ d ∈ rest.reverse, decide (d ≠ c) = true := fun d hd =>
    decide_eq_true fun heq => h (heq ▸ List.mem_reverse.1 hd)
  have hreverse : (s ++ c :: rest).reverse = rest.reverse ++ c :: s.reverse := by simp
  obtain ⟨htake, hdrop⟩ := takeWhile_dropWhile_append (t := c :: s.reverse) hrest
    (begins_cons.2 (by simp))
  rw [cutAtLast?, if_pos (by simp), hreverse, htake, hdrop]
  simp

/-! ## Cleaning -/

/-- Whether a character can be seen, and is of ASCII. -/
def IsVisible (c : Char) : Prop := 0x20 < c.toNat ∧ c.toNat < 0x7F

instance (c : Char) : Decidable (IsVisible c) := inferInstanceAs (Decidable (_ ∧ _))

/-- A text of visible characters counts as a whole. -/
theorem clean_eq_self (h : ∀ c ∈ s, IsVisible c) : clean s = s := by
  have hmargin : ∀ s : List Char, (∀ c ∈ s, IsVisible c) → s.dropWhile isMargin = s := by
    intro s h
    cases s with
    | nil => rfl
    | cons c rest =>
      have hc : isMargin c = false :=
        decide_eq_false (Nat.not_le.2 (h c List.mem_cons_self).1)
      rw [List.dropWhile_cons, hc]
      rfl
  have hignored : ∀ c ∈ s, (!isIgnored c) = true := by
    intro c hc
    have hvisible := (h c hc).1
    simp only [isIgnored, Bool.not_eq_true', Bool.or_eq_false_iff, decide_eq_false_iff_not]
    refine ⟨⟨?_, ?_⟩, ?_⟩ <;> rintro rfl <;> exact absurd hvisible (by decide)
  rw [clean, hmargin s h, hmargin s.reverse fun c hc => h c (List.mem_reverse.1 hc),
    List.reverse_reverse, List.filter_eq_self.2 hignored]

/-- Nothing is trimmed from a text of visible characters. -/
theorem trimList_of_visible (h : ∀ c ∈ s, IsVisible c) : Text.trimList s = s := by
  refine Text.trimList_eq_self fun c hc => ?_
  obtain ⟨hlow, hhigh⟩ := h c hc
  exact Text.of_forall_lt_128 (P := fun c => IsVisible c → Text.isBlank c = false) (by decide)
    (by omega) ⟨hlow, hhigh⟩

/-- What is encoded can be seen, if blanks are encoded. -/
theorem Plain.isVisible {encoded : Char → Bool} (h : Plain encoded s) (hset : IsEncodeSet encoded)
    (hblank : encoded ' ' = true) {c : Char} (hc : c ∈ s) : IsVisible c := by
  have hcontrol := h.isControl_eq_false hset hc
  rw [isControl, Bool.or_eq_false_iff, decide_eq_false_iff_not, decide_eq_false_iff_not] at hcontrol
  have hne : c.toNat ≠ 0x20 := by
    intro heq
    have hspace : c = ' ' := Char.toNat_inj.1 heq
    have hnot := h c hc
    rw [hspace, hblank] at hnot
    cases hnot
  exact ⟨by omega, by omega⟩

/-! ## Schemes -/

/-- A scheme as it is kept. -/
structure IsScheme (scheme : List Char) : Prop where
  first : ∃ c rest, scheme = c :: rest ∧ c.isAlpha = true
  char : ∀ c ∈ scheme, isSchemeChar c = true ∧ lowerAscii c = c

theorem lt_of_isSchemeChar {c : Char} (h : isSchemeChar c = true) : c.toNat < 128 := by
  simp only [isSchemeChar, Bool.or_eq_true, decide_eq_true_eq] at h
  rcases h with ((h | rfl) | rfl) | rfl
  · exact lt_of_isAlphanum (.inr h)
  · decide
  · decide
  · decide

theorem isVisible_of_isSchemeChar {c : Char} (h : isSchemeChar c = true) : IsVisible c :=
  Text.of_forall_lt_128 (P := fun c => isSchemeChar c = true → IsVisible c) (by decide)
    (lt_of_isSchemeChar h) h

theorem lowerAscii_of_isSchemeChar {c : Char} (h : isSchemeChar c = true) :
    isSchemeChar (lowerAscii c) = true ∧ lowerAscii (lowerAscii c) = lowerAscii c ∧
      (c.isAlpha = true → (lowerAscii c).isAlpha = true) :=
  Text.of_forall_lt_128 (P := fun c => isSchemeChar c = true → isSchemeChar (lowerAscii c) = true ∧
    lowerAscii (lowerAscii c) = lowerAscii c ∧ (c.isAlpha = true → (lowerAscii c).isAlpha = true))
    (by decide) (lt_of_isSchemeChar h) h

theorem isScheme_of_scheme? {scheme : String} (h : scheme? s = some (scheme, rest)) :
    IsScheme scheme.toList := by
  unfold scheme? at h
  split at h
  · rename_i c cs
    split at h
    · cases h
    rename_i halpha
    rw [Bool.not_eq_true', Bool.not_eq_false] at halpha
    split at h
    · cases h
      have hchar : isSchemeChar c = true := by
        simp [isSchemeChar, Char.isAlphanum, halpha]
      rw [String.toList_ofList]
      refine ⟨⟨lowerAscii c, (cs.takeWhile isSchemeChar).map lowerAscii, ?_,
        (lowerAscii_of_isSchemeChar hchar).2.2 halpha⟩, fun d hd => ?_⟩
      · rw [List.takeWhile_cons_of_pos hchar, List.map_cons]
      · obtain ⟨e, he, rfl⟩ := List.mem_map.1 hd
        have hkind := lowerAscii_of_isSchemeChar (List.all_eq_true.1 List.all_takeWhile e he)
        exact ⟨hkind.1, hkind.2.1⟩
    · cases h
  · cases h

/-- **A scheme is read as it was written.** -/
theorem scheme?_append {scheme : String} (h : IsScheme scheme.toList) (rest : List Char) :
    scheme? (scheme.toList ++ ':' :: rest) = some (scheme, rest) := by
  obtain ⟨c, cs, heq, halpha⟩ := h.first
  obtain ⟨htake, hdrop⟩ := takeWhile_dropWhile_append (fun c hc => (h.char c hc).1)
    (begins_cons.2 (rfl : isSchemeChar ':' = false) : Begins _ (':' :: rest))
  have hlower : scheme.toList.map lowerAscii = scheme.toList :=
    (List.map_congr_left fun c hc => (h.char c hc).2).trans (List.map_id _)
  have hcons : scheme.toList ++ ':' :: rest = c :: (cs ++ ':' :: rest) := by rw [heq]; rfl
  rw [scheme?.eq_def, hcons]
  simp only [halpha, Bool.not_true, Bool.false_eq_true, if_false]
  rw [← hcons, hdrop, htake, hlower, String.ofList_toList]
  rfl

/-! ## Ports -/

/-- **A port is read off its digits.** -/
theorem readPort_append {ds : List Char} (value : Nat) (any : Bool)
    (hdigits : ∀ c ∈ ds, c.isDigit = true) (hsome : any = true ∨ ds ≠ [])
    (hlt : Nat.ofDigitChars 10 ds value < 65536)
    (hrest : Begins (fun c => c = '/' ∨ c = '?' ∨ c = '#') rest) :
    readPort value any (ds ++ rest) = .ok (some (Nat.ofDigitChars 10 ds value), rest) := by
  induction ds generalizing value any with
  | nil =>
    have hany : any = true := hsome.resolve_right fun h => h rfl
    cases rest with
    | nil => simp [readPort, hany]
    | cons c rest =>
      have hc := begins_cons.1 hrest
      have hdigit : c.isDigit = false := by
        rcases hc with rfl | rfl | rfl <;> rfl
      have hends : (c = '/' || c = '\\' || c = '?' || c = '#') = true := by
        rcases hc with rfl | rfl | rfl <;> rfl
      simp [readPort, hdigit, hends, hany]
  | cons d ds ih =>
    obtain ⟨hd, hds⟩ := List.forall_mem_cons.1 hdigits
    rw [Nat.ofDigitChars_cons, Nat.mul_comm 10 value] at hlt ⊢
    have hgrows := Text.le_ofDigitChars ds (value * 10 + (d.toNat - '0'.toNat))
    have hvalue : value * 10 + (d.toNat - 0x30) < 65536 := Nat.lt_of_le_of_lt hgrows hlt
    rw [List.cons_append, readPort, if_pos hd]
    simp only [if_pos hvalue]
    exact ih _ _ hds (.inl rfl) hlt

theorem lt_of_readPort {value : Nat} {any : Bool} {p : Nat} (hvalue : value < 65536)
    (h : readPort value any s = .ok (some p, rest)) : p < 65536 := by
  induction s generalizing value any with
  | nil =>
    rw [readPort] at h
    cases any <;> simp at h
    omega
  | cons c s ih =>
    rw [readPort] at h
    split at h
    · simp only at h
      split at h
      · rename_i hlt
        exact ih hlt h
      · cases h
    · split at h
      · cases any <;> simp at h
        omega
      · cases h

end Saboteur.Url
