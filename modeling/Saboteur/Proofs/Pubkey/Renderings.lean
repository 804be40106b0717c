import Saboteur.Proofs.Json.RoundTrip
import Saboteur.Proofs.Text.Case
import Saboteur.Pubkey

/-!
# Renderings of a key

A text shows a key if it holds the digits of the key in either case, with one mark before them or
none, and blanks around. Normalising takes exactly these texts to the normal form of the key, so
two texts that show the same key are the same from then on, and no other text is mistaken for it.

A normal form is left alone when it is normalised again, whatever text it was made of. Neither
blanks nor capitals are left at its ends, and of two marks only the first is ever cut off.
-/

namespace Saboteur

/-! ## Digits of either case -/

namespace Hex

/-- Two texts have the same digits if each digit of the first is that of the second or its
capital. -/
def SameDigits (cs digits : List Char) : Prop :=
  List.Forall₂ (fun c x => c = x ∨ c = x.toUpper) cs digits

/-- A lowercase digit. -/
def IsDigit (x : Char) : Prop := ∃ n < 16, x = digit n

variable {c x : Char} {cs digits : List Char}

theorem isDigit_of_mem_encode {bytes : List UInt8} (h : x ∈ encode bytes) : IsDigit x := by
  obtain ⟨b, -, hx⟩ := List.mem_flatMap.1 h
  have hb := b.toNat_lt
  simp only [encodeByte, List.mem_cons, List.not_mem_nil, or_false] at hx
  rcases hx with rfl | rfl
  · exact ⟨_, by omega, rfl⟩
  · exact ⟨_, Nat.mod_lt _ (by decide), rfl⟩

theorem sameDigits_cons_iff :
    SameDigits (c :: cs) (x :: digits) ↔ (c = x ∨ c = x.toUpper) ∧ SameDigits cs digits :=
  List.forall₂_cons

/-- What holds of all digits and of their capitals holds of a text with the same digits. -/
theorem SameDigits.forall {P : Char → Prop} (h : SameDigits cs digits)
    (hdigits : ∀ x ∈ digits, IsDigit x) (hP : ∀ n < 16, P (digit n) ∧ P (digit n).toUpper) :
    ∀ c ∈ cs, P c := by
  induction h with
  | nil => exact fun _ hc => nomatch hc
  | cons hhead _ ih =>
    obtain ⟨hx, hrest⟩ := List.forall_mem_cons.1 hdigits
    refine List.forall_mem_cons.2 ⟨?_, ih hrest⟩
    obtain ⟨n, hn, rfl⟩ := hx
    rcases hhead with rfl | rfl
    · exact (hP n hn).1
    · exact (hP n hn).2

/-- The characters that have a digit as their lowercase form are the digit and its capital. -/
theorem lowerChar_eq_iff (h : IsDigit x) : Text.lowerChar c = x ↔ c = x ∨ c = x.toUpper := by
  obtain ⟨n, hn, rfl⟩ := h
  by_cases hc : c.toNat < 0x80
  · exact Text.of_forall_lt_128 (P := fun c => ∀ n < 16,
      (Text.lowerChar c = digit n ↔ c = digit n ∨ c = (digit n).toUpper)) (by decide +kernel) hc
        n hn
  · have hall : ∀ n < 16, digit n ≠ 'k' ∧ (digit n).toNat < 0x80 ∧
        (digit n).toUpper.toNat < 0x80 := by decide
    obtain ⟨hk, hdigit, hupper⟩ := hall n hn
    refine iff_of_false (fun hlower => ?_) ?_
    · rcases Text.lowerChar_eq_or_le (Nat.not_lt.1 hc) with h | h
      · exact hk (hlower ▸ h)
      · exact Nat.not_lt.2 h (hlower ▸ hdigit)
    · rintro (rfl | rfl)
      · exact hc hdigit
      · exact hc hupper

/-- **The lowercase form of a text is a text of digits exactly if it has the same digits.** -/
theorem lowerAfter_eq_iff (before : List Char) (h : ∀ x ∈ digits, IsDigit x) :
    Text.lowerAfter before cs = digits ↔ SameDigits cs digits := by
  have hascii : ∀ n < 16, (digit n).toNat < 0x80 ∧ (digit n).toUpper.toNat < 0x80 := by decide
  induction cs generalizing before digits with
  | nil => cases digits <;> simp [Text.lowerAfter, SameDigits]
  | cons c rest ih =>
    rw [Text.lowerAfter_cons]
    by_cases hplain : c.toNat = 0x130 ∨ c.toNat = 0x3A3
    · -- neither of the two is a digit or becomes one
      refine iff_of_false (fun heq => ?_) fun hsame => ?_
      · obtain ⟨d, hd, hle⟩ := Text.exists_le_lowerAt before rest hplain
        obtain ⟨n, hn, rfl⟩ := h d (heq ▸ List.mem_append_left _ hd)
        exact Nat.not_lt.2 hle (hascii n hn).1
      · have hlt : c.toNat < 0x80 :=
          hsame.forall (P := fun c => c.toNat < 0x80) h hascii c (List.mem_cons_self ..)
        omega
    · rw [not_or] at hplain
      rw [Text.lowerAt_of_ne hplain.1 hplain.2, List.singleton_append]
      cases digits with
      | nil => simp [SameDigits]
      | cons x digits =>
        obtain ⟨hx, hdigits⟩ := List.forall_mem_cons.1 h
        have htail : Text.lowerAfter (c :: before) rest = digits ↔ SameDigits rest digits :=
          ih (c :: before) hdigits
        rw [List.cons.injEq, lowerChar_eq_iff hx, htail, sameDigits_cons_iff]

end Hex

namespace Pubkey

variable {key : Octets 48} {t : String} {s : List Char}

/-! ## Renderings -/

/-- A text shows a key: it holds the key's digits in either case behind `0x` or `0X` or neither, and
blanks around. -/
inductive Shows (key : Octets 48) : String → Prop
  | intro (before mark digits after : List Char)
    (blankBefore : ∀ c ∈ before, Text.isBlank c = true)
    (marked : mark = [] ∨ mark = ['0', 'x'] ∨ mark = ['0', 'X'])
    (same : Hex.SameDigits digits (Hex.encode key.toList))
    (blankAfter : ∀ c ∈ after, Text.isBlank c = true) :
    Shows key (String.ofList (before ++ (mark ++ digits) ++ after))

/-- What is left behind a mark is behind one mark or none. -/
theorem exists_mark (s : List Char) :
    ∃ mark, (mark = [] ∨ mark = ['0', 'x'] ∨ mark = ['0', 'X']) ∧ s = mark ++ stripMark s := by
  unfold stripMark
  split
  · exact ⟨['0', 'x'], .inr (.inl rfl), rfl⟩
  · exact ⟨['0', 'X'], .inr (.inr rfl), rfl⟩
  · exact ⟨[], .inl rfl, rfl⟩

theorem stripMark_append {mark : List Char}
    (hmark : mark = [] ∨ mark = ['0', 'x'] ∨ mark = ['0', 'X'])
    (hs : ∀ c ∈ s, c ≠ 'x' ∧ c ≠ 'X') : stripMark (mark ++ s) = s := by
  rcases hmark with rfl | rfl | rfl
  · rw [List.nil_append]
    unfold stripMark
    split
    · exact absurd rfl (hs 'x' (by simp)).1
    · exact absurd rfl (hs 'X' (by simp)).2
    · rfl
  · rfl
  · rfl

/-- Trimmed, a text that shows a key is a mark and the digits. -/
theorem trimList_rendering {before mark digits after : List Char}
    (hbefore : ∀ c ∈ before, Text.isBlank c = true)
    (hmark : mark = [] ∨ mark = ['0', 'x'] ∨ mark = ['0', 'X'])
    (hdigits : ∀ c ∈ digits, Text.isBlank c = false)
    (hafter : ∀ c ∈ after, Text.isBlank c = true) :
    Text.trimList (before ++ (mark ++ digits) ++ after) = mark ++ digits := by
  refine Text.trimList_append hbefore (fun c hc => ?_) hafter
  rcases List.mem_append.1 hc with hc | hc
  · rcases hmark with rfl | rfl | rfl <;>
      simp only [List.mem_cons, List.not_mem_nil, or_false] at hc
    · rcases hc with rfl | rfl <;> rfl
    · rcases hc with rfl | rfl <;> rfl
  · exact hdigits c hc

/-- **Normalised, a text is the key exactly if it shows it.** -/
theorem ofText_eq_ofBytes_iff : ofText t = ofBytes key ↔ Shows key t := by
  have hdigits : ∀ x ∈ Hex.encode key.toList, Hex.IsDigit x := fun _ => Hex.isDigit_of_mem_encode
  have hlower : ofText t = ofBytes key ↔
      Hex.SameDigits (stripMark (Text.trimList t.toList)) (Hex.encode key.toList) := by
    rw [← Hex.lowerAfter_eq_iff [] hdigits, ofText, ofBytes, Hex.render, mk.injEq,
      String.ofList_inj, normalise, List.cons.injEq, List.cons.injEq]
    simp only [true_and]
    rfl
  rw [hlower]
  constructor
  · intro hsame
    obtain ⟨before, after, hbefore, hafter, htrim⟩ := Text.exists_blanks t.toList
    obtain ⟨mark, hmark, hstrip⟩ := exists_mark (Text.trimList t.toList)
    have ht : t = String.ofList
        (before ++ (mark ++ stripMark (Text.trimList t.toList)) ++ after) := by
      rw [← hstrip, ← htrim, String.ofList_toList]
    rw [ht]
    exact .intro before mark _ after hbefore hmark hsame hafter
  · rintro ⟨before, mark, digits, after, hbefore, hmark, hsame, hafter⟩
    have hblank : ∀ c ∈ digits, Text.isBlank c = false :=
      hsame.forall (P := fun c => Text.isBlank c = false) hdigits (by decide)
    have hmarks : ∀ c ∈ digits, c ≠ 'x' ∧ c ≠ 'X' :=
      hsame.forall (P := fun c => c ≠ 'x' ∧ c ≠ 'X') hdigits (by decide)
    rwa [String.toList_ofList, trimList_rendering hbefore hmark hblank hafter,
      stripMark_append hmark hmarks]

/-- The text of a key shows it. -/
theorem shows_text_ofBytes (key : Octets 48) : Shows key (ofBytes key).text := by
  have hsame : Hex.SameDigits (Hex.encode key.toList) (Hex.encode key.toList) :=
    List.forall₂_same.2 fun _ _ => .inl rfl
  have htext : (ofBytes key).text =
      String.ofList ([] ++ (['0', 'x'] ++ Hex.encode key.toList) ++ []) := by
    rw [List.append_nil]
    rfl
  rw [htext]
  exact .intro [] ['0', 'x'] _ [] nofun (.inr (.inl rfl)) hsame nofun

theorem ofBytes_injective : Function.Injective ofBytes := by
  intro key key' h
  have hread := congrArg (fun p : Pubkey => Hex.read? p.text) h
  simp only [ofBytes, Hex.read?_render, Option.some.injEq] at hread
  exact Octets.ext_toList hread

/-! ## Normal forms -/

theorem normalise_normalise (raw : List Char) : normalise (normalise raw) = normalise raw := by
  have hends : Text.EndsUnblank (Text.lowerList (stripMark (Text.trimList raw))) := by
    obtain ⟨mark, -, hstrip⟩ := exists_mark (Text.trimList raw)
    have htrim : Text.EndsUnblank (Text.trimList raw) := Text.endsUnblank_trimRight _
    rw [hstrip] at htrim
    exact Text.endsUnblank_lowerAfter (Text.endsUnblank_of_append htrim)
  have htrim : Text.trimList (normalise raw) = normalise raw :=
    Text.trimList_cons_eq_self (by decide)
      (Text.endsUnblank_cons (by decide) (Text.endsUnblank_cons (by decide) hends))
  have hstrip : stripMark (normalise raw) = Text.lowerList (stripMark (Text.trimList raw)) := rfl
  rw [normalise, htrim, hstrip, Text.lowerList_lowerList]
  rfl

theorem ofText_text (t : String) : ofText (ofText t).text = ofText t := by
  rw [ofText, ofText, String.toList_ofList, normalise_normalise]

/-- Reading a text from a document normalises it. -/
theorem parse_render_text (t : String) :
    Json.parse Pubkey (Json.render (Json.text t)) = .ok (ofText t) :=
  Json.parse_render (Json.plain_text t)

theorem parse_render_write (p : Pubkey) :
    Json.parse Pubkey (Json.render (write p)) = .ok (ofText p.text) :=
  parse_render_text p.text

/-- **Exactly the texts that show a key are read as that key**, from a document or not. Keys of
different bytes differ. A normal form is its own normal form, so a key that was read or made of bytes
comes back from its document as it was. -/
theorem ofText_identifies_renderings :
    (∀ (key : Octets 48) (t : String), ofText t = ofBytes key ↔ Shows key t) ∧
      (∀ t, Json.parse Pubkey (Json.render (Json.text t)) = .ok (ofText t)) ∧
      Function.Injective ofBytes ∧
      (∀ t, ofText (ofText t).text = ofText t) ∧
      (∀ t, Json.parse Pubkey (Json.render (write (ofText t))) = .ok (ofText t)) ∧
      ∀ key, Json.parse Pubkey (Json.render (write (ofBytes key))) = .ok (ofBytes key) := by
  refine ⟨fun key t => ofText_eq_ofBytes_iff, parse_render_text, ofBytes_injective, ofText_text,
    fun t => ?_, fun key => ?_⟩
  · rw [parse_render_write, ofText_text]
  · rw [parse_render_write, ofText_eq_ofBytes_iff.2 (shows_text_ofBytes key)]

/-- A second mark is part of the key. -/
example : (ofText " 0X0XAb\n").text = "0x0xab" := by decide

end Pubkey

end Saboteur
