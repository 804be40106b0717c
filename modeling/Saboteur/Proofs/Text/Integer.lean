import Saboteur.Proofs.Bytes.Reading
import Saboteur.Text.Integer

/-!
# Integers as texts

An integer is written as decimal digits, at least one, with or without a sign. The texts of integers
of 64 bits are the ones that are read, each as the integer that it spells. In particular the decimal
text of a number below 2 ^ 63 is read as that number.
-/

namespace Saboteur.Text

/-! ## What texts spell -/

/-- Decimal digits, at least one, that stand for a natural number. -/
structure Digits (ds : List Char) (n : Nat) : Prop where
  ne_nil : ds ≠ []
  digits : ∀ c ∈ ds, c.isDigit = true
  value : Nat.ofDigitChars 10 ds 0 = n

/-- Digits that stand for an integer, with or without a sign. -/
inductive Spells : List Char → Int → Prop
  | plain {ds : List Char} {n : Nat} (h : Digits ds n) : Spells ds n
  | plus {ds : List Char} {n : Nat} (h : Digits ds n) : Spells ('+' :: ds) n
  | minus {ds : List Char} {n : Nat} (h : Digits ds n) : Spells ('-' :: ds) (-n)

/-- A text that is an integer of 64 bits. -/
def IsInteger (s : String) (i : Int) : Prop :=
  Spells s.toList i ∧ -(Word.negativeCount : Int) ≤ i ∧ i < Word.negativeCount

theorem digits_toDigits (n : Nat) : Digits (Nat.toDigits 10 n) n where
  ne_nil := Nat.toDigits_ne_nil
  digits := fun _ hc => Nat.isDigit_of_mem_toDigits (by decide) (by decide) hc
  value := Nat.ofDigitChars_toDigits (by decide) (by decide)

/-- The decimal text of a number below 2 ^ 63 spells that number. -/
theorem isInteger_repr {n : Nat} (h : n < Word.negativeCount) : IsInteger (Nat.repr n) n := by
  refine ⟨?_, by omega, by omega⟩
  rw [Nat.toList_repr]
  exact .plain (digits_toDigits n)

/-! ## Digits -/

theorem isDigit_iff {c : Char} : c.isDigit = true ↔ 0x30 ≤ c.toNat ∧ c.toNat ≤ 0x39 := by
  rw [Char.isDigit, Bool.and_eq_true, decide_eq_true_eq, decide_eq_true_eq]
  exact Iff.rfl

theorem digitValue?_eq_some_iff {c : Char} {d : Nat} :
    digitValue? 10 c = some d ↔ c.isDigit = true ∧ c.toNat - '0'.toNat = d := by
  have hzero : '0'.toNat = 0x30 := rfl
  rw [isDigit_iff, hzero]
  unfold digitValue?
  simp only [Option.filter_eq_some_iff, decide_eq_true_eq]
  split
  · simp only [Option.some.injEq]
    omega
  · -- letters stand for ten and more
    split
    · simp only [Option.some.injEq]
      omega
    · split
      · simp only [Option.some.injEq]
        omega
      · simp only [reduceCtorEq, false_and, false_iff]
        omega

theorem le_ofDigitChars (ds : List Char) (acc : Nat) : acc ≤ Nat.ofDigitChars 10 ds acc := by
  induction ds generalizing acc with
  | nil => exact Nat.le_refl acc
  | cons c rest ih =>
    rw [Nat.ofDigitChars_cons]
    have hrest := ih (10 * acc + (c.toNat - '0'.toNat))
    omega

/-- The bound is looked at after each digit, which makes no difference: the value never falls. -/
theorem readDigits_eq_ok_iff {bound acc n : Nat} {beyond : IntegerError} {ds : List Char}
    (hacc : acc ≤ bound) :
    readDigits 10 bound beyond acc ds = .ok n ↔
      (∀ c ∈ ds, c.isDigit = true) ∧ Nat.ofDigitChars 10 ds acc = n ∧ n ≤ bound := by
  induction ds generalizing acc with
  | nil =>
    simp only [readDigits, Except.ok.injEq, List.not_mem_nil, false_implies, implies_true, true_and,
      Nat.ofDigitChars_nil]
    omega
  | cons c rest ih =>
    rw [readDigits, List.forall_mem_cons, Nat.ofDigitChars_cons]
    cases hc : digitValue? 10 c with
    | none =>
      simp only [reduceCtorEq, false_iff]
      rintro ⟨⟨hdigit, -⟩, -⟩
      rw [digitValue?_eq_some_iff.2 ⟨hdigit, rfl⟩] at hc
      cases hc
    | some d =>
      obtain ⟨hdigit, rfl⟩ := digitValue?_eq_some_iff.1 hc
      simp only [Nat.mul_comm acc 10, hdigit, true_and]
      split
      · rename_i hle
        exact ih hle
      · rename_i hgt
        simp only [reduceCtorEq, false_iff]
        rintro ⟨-, hvalue, hle⟩
        have hgrows := le_ofDigitChars rest (10 * acc + (c.toNat - '0'.toNat))
        omega

/-- A magnitude is read exactly from digits of a number up to the bound. -/
theorem readMagnitude_eq_ok_iff {bound n : Nat} {beyond : IntegerError} {ds : List Char} :
    readMagnitude 10 bound beyond ds = .ok n ↔ Digits ds n ∧ n ≤ bound := by
  cases ds with
  | nil =>
    simp only [readMagnitude, reduceCtorEq, false_iff]
    exact fun h => h.1.ne_nil rfl
  | cons c rest =>
    rw [readMagnitude, readDigits_eq_ok_iff (Nat.zero_le bound)]
    · constructor
      · rintro ⟨hdigits, hvalue, hle⟩
        exact ⟨⟨List.cons_ne_nil _ _, hdigits, hvalue⟩, hle⟩
      · rintro ⟨h, hle⟩
        exact ⟨h.digits, h.value, hle⟩
    · exact List.cons_ne_nil _ _

/-! ## Integers -/

theorem not_digits_cons {c : Char} {ds : List Char} {n : Nat} (hc : c.isDigit = false) :
    ¬ Digits (c :: ds) n := by
  intro h
  rw [h.digits c List.mem_cons_self] at hc
  cases hc

/-- Behind a plus there are digits and no further sign. -/
theorem spells_plus_iff {ds : List Char} {i : Int} :
    Spells ('+' :: ds) i ↔ ∃ n : Nat, Digits ds n ∧ i = n := by
  constructor
  · intro h
    cases h with
    | plain h => exact absurd h (not_digits_cons rfl)
    | plus h => exact ⟨_, h, rfl⟩
  · rintro ⟨n, h, rfl⟩
    exact .plus h

/-- Behind a minus there are digits and no further sign. -/
theorem spells_minus_iff {ds : List Char} {i : Int} :
    Spells ('-' :: ds) i ↔ ∃ n : Nat, Digits ds n ∧ i = -n := by
  constructor
  · intro h
    cases h with
    | plain h => exact absurd h (not_digits_cons rfl)
    | minus h => exact ⟨_, h, rfl⟩
  · rintro ⟨n, h, rfl⟩
    exact .minus h

theorem spells_unsigned_iff {ds : List Char} {i : Int} (hplus : ∀ rest, ds ≠ '+' :: rest)
    (hminus : ∀ rest, ds ≠ '-' :: rest) : Spells ds i ↔ ∃ n : Nat, Digits ds n ∧ i = n := by
  constructor
  · intro h
    cases h with
    | plain h => exact ⟨_, h, rfl⟩
    | plus h => exact absurd rfl (hplus _)
    | minus h => exact absurd rfl (hminus _)
  · rintro ⟨n, h, rfl⟩
    exact .plain h

/-- A magnitude that is taken as it is lies between zero and its bound. -/
theorem map_ofNat_readMagnitude_eq_ok_iff {bound : Nat} {beyond : IntegerError} {ds : List Char}
    {i : Int} :
    (readMagnitude 10 bound beyond ds).map Int.ofNat = .ok i ↔
      (∃ n : Nat, Digits ds n ∧ i = n) ∧ -(bound + 1 : Int) ≤ i ∧ i ≤ bound := by
  rw [map_eq_ok_iff]
  simp only [readMagnitude_eq_ok_iff, Int.ofNat_eq_natCast]
  constructor
  · rintro ⟨n, ⟨h, hle⟩, rfl⟩
    exact ⟨⟨n, h, rfl⟩, by omega, Int.ofNat_le.2 hle⟩
  · rintro ⟨⟨n, h, rfl⟩, -, hle⟩
    exact ⟨n, ⟨h, Int.ofNat_le.1 hle⟩, rfl⟩

/-- An integer is read exactly from what spells it, between the bounds. -/
theorem readInteger_eq_ok_iff {bound : Nat} {cs : List Char} {i : Int} :
    readInteger 10 bound cs = .ok i ↔ Spells cs i ∧ -(bound + 1 : Int) ≤ i ∧ i ≤ bound := by
  unfold readInteger
  split
  case h_1 =>
    simp only [reduceCtorEq, false_iff]
    rintro ⟨h, -⟩
    cases h with
    | plain h => exact h.ne_nil rfl
  case h_2 rest => rw [map_ofNat_readMagnitude_eq_ok_iff, spells_plus_iff]
  case h_3 rest =>
    -- below zero there is room for one more
    rw [map_eq_ok_iff, spells_minus_iff]
    simp only [readMagnitude_eq_ok_iff, Int.ofNat_eq_natCast]
    constructor
    · rintro ⟨n, ⟨h, hle⟩, rfl⟩
      exact ⟨⟨n, h, rfl⟩, by omega, by omega⟩
    · rintro ⟨⟨n, h, rfl⟩, hle, -⟩
      exact ⟨n, ⟨h, by omega⟩, rfl⟩
  case h_4 hplus hminus =>
    rw [map_ofNat_readMagnitude_eq_ok_iff, spells_unsigned_iff hplus hminus]

/-- **A text is read as an integer exactly if it spells that integer, within 64 bits.** -/
theorem readSigned_eq_ok_iff {s : String} {i : Int} : readSigned s = .ok i ↔ IsInteger s i := by
  have hcount : ((Word.negativeCount - 1 : Nat) : Int) = (Word.negativeCount : Int) - 1 := rfl
  rw [readSigned, readInteger_eq_ok_iff, IsInteger, hcount]
  have hlow : -((Word.negativeCount : Int) - 1 + 1) ≤ i ↔ -(Word.negativeCount : Int) ≤ i := by
    omega
  rw [hlow, Int.le_sub_one_iff]

/-- Reading fails exactly for what spells no integer of the range. -/
theorem exists_readSigned_eq_error_iff {s : String} :
    (∃ e, readSigned s = .error e) ↔ ∀ i, ¬ IsInteger s i := by
  simp only [← readSigned_eq_ok_iff]
  cases readSigned s <;> simp

/-- The decimal text of a word is read as that word. -/
theorem readWord_decimal (w : UInt64) : readWord (Word.decimal w) = .ok w := by
  have hread : readNatural 10 Word.max.toNat (Nat.toDigits 10 w.toNat) = .ok w.toNat := by
    have hdigits := digits_toDigits w.toNat
    have hle : w.toNat ≤ Word.max.toNat := Nat.le_of_lt_succ w.toNat_lt
    unfold readNatural
    split
    · next h => exact absurd h hdigits.ne_nil
    · next h =>
      rw [h] at hdigits
      exact absurd hdigits (not_digits_cons rfl)
    · exact readMagnitude_eq_ok_iff.2 ⟨hdigits, hle⟩
  rw [readWord, Word.decimal, Nat.toList_repr, hread]
  exact congrArg Except.ok UInt64.ofNat_toNat

end Saboteur.Text
