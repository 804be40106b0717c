import Mathlib.Data.List.Forall2
import Saboteur.Json.Parse
import Saboteur.Json.Print
import Saboteur.Proofs.Text.Integer

/-!
# Tokens of written documents

A document is written as a sequence of tokens, and its text is cut into just these tokens again. A
number ends where something follows that cannot be part of it; every other token shows its end
itself.

This holds of documents whose numbers are integers of 64 bits and whose texts are characters.
-/

namespace Saboteur.Json

/-! ## Quoted texts -/

/-- A unit that a character is written as. -/
inductive Stands : CodeUnit → Char → Prop
  | char (c : Char) : Stands (.char c) c
  | control {c : Char} (h : c.toNat < 0x20) : Stands (.unit c.toNat) c

/-- Control characters have two hexadecimal digits behind two zeros. -/
theorem fourDigits?_control : ∀ n < 0x20,
    (Nat.toDigits 16 (n + 0x100)).drop 1 = [Nat.digitChar (n / 16), Nat.digitChar (n % 16)] ∧
      fourDigits? '0' '0' (Nat.digitChar (n / 16)) (Nat.digitChar (n % 16)) = some n := by
  decide

theorem readUnits_cons {c : Char} (rest : List Char) (hquote : c ≠ '"') (hescape : c ≠ '\\')
    (hcontrol : ¬ c.toNat < 0x20) :
    readUnits (c :: rest) = (readUnits rest).map fun r => (.char c :: r.1, r.2) := by
  rw [readUnits]
  · rw [if_neg (not_or.2 ⟨hcontrol, hescape⟩)]
  · exact hquote
  · exact fun _ _ _ _ _ h => absurd h hescape
  · exact fun _ _ h => absurd h hescape

/-- A character is read as the unit that stands for it, escaped or not. -/
theorem exists_readUnits_escapeChar (c : Char) (rest : List Char) :
    ∃ u, Stands u c ∧
      readUnits (escapeChar c ++ rest) = (readUnits rest).map fun r => (u :: r.1, r.2) := by
  unfold escapeChar
  -- the seven short escapes
  iterate 7
    split
    · subst_vars
      refine ⟨.char _, .char _, ?_⟩
      cases h : readUnits rest <;> simp [readUnits, shortEscape?, h]
  split
  · rename_i hcontrol
    obtain ⟨hdigits, hfour⟩ := fourDigits?_control c.toNat hcontrol
    refine ⟨.unit c.toNat, .control hcontrol, ?_⟩
    rw [hdigits]
    cases h : readUnits rest <;> simp [readUnits, hfour, h]
  · rename_i hquote hescape _ _ _ _ _ hcontrol
    exact ⟨.char c, .char c, readUnits_cons rest hquote hescape hcontrol⟩

/-- An escaped text is read up to its closing quote. -/
theorem exists_readUnits_escaped (cs rest : List Char) :
    ∃ us, List.Forall₂ Stands us cs ∧
      readUnits (cs.flatMap escapeChar ++ '"' :: rest) = some (us, rest) := by
  induction cs with
  | nil => exact ⟨[], .nil, by simp [readUnits]⟩
  | cons c cs ih =>
    obtain ⟨us, hus, hread⟩ := ih
    obtain ⟨u, hu, hfirst⟩ := exists_readUnits_escapeChar c (cs.flatMap escapeChar ++ '"' :: rest)
    refine ⟨u :: us, .cons hu hus, ?_⟩
    rw [List.flatMap_cons, List.append_assoc, hfirst, hread]
    rfl

theorem pairUnits_unit {n : Nat} (h : n < 0x20) (rest : List CodeUnit) :
    pairUnits (.unit n :: rest) = (pairUnits rest).map (Char.ofNat n :: ·) := by
  have hhigh : isHighHalf n = false := by
    simp only [isHighHalf, Bool.and_eq_false_iff, decide_eq_false_iff_not]
    omega
  have hlow : isLowHalf n = false := by
    simp only [isLowHalf, Bool.and_eq_false_iff, decide_eq_false_iff_not]
    omega
  cases rest with
  | nil => simp [pairUnits, hhigh, hlow]
  | cons u rest => cases u <;> simp [pairUnits, hhigh, hlow]

/-- Units that stand for characters make up their text. -/
theorem pairUnits_of_stands {us : List CodeUnit} {cs : List Char} (h : List.Forall₂ Stands us cs) :
    pairUnits us = some cs := by
  induction h with
  | nil => rfl
  | @cons u c us cs hu _ ih =>
    cases hu with
    | char => rw [pairUnits, ih, Option.map_some]
    | control hc => rw [pairUnits_unit hc, ih, Option.map_some, Char.ofNat_toNat]

/-- **A text is read back from between its quotes.** -/
theorem readToken_renderText (s : String) (rest : List Char) :
    readToken ((renderText s).toList ++ rest) = some (.string (.text s), rest) := by
  obtain ⟨us, hus, hread⟩ := exists_readUnits_escaped s.toList rest
  have htext : (renderText s).toList ++ rest =
      '"' :: (s.toList.flatMap escapeChar ++ '"' :: rest) := by
    simp [renderText]
  have hliteral : literalOf us = .text s := by
    rw [literalOf, pairUnits_of_stands hus]
    exact congrArg Literal.text String.ofList_toList
  rw [htext, readToken, hread, Option.map_some, hliteral]

/-! ## Numbers -/

/-- What follows cannot be part of a number: a separator, a closing bracket, or nothing. -/
def EndsNumber (rest : List Char) : Prop := ∀ c ∈ rest.head?, c = ',' ∨ c = ']' ∨ c = '\x7d'

theorem endsNumber_nil : EndsNumber [] := nofun

theorem endsNumber_cons {c : Char} (h : c = ',' ∨ c = ']' ∨ c = '\x7d') (rest : List Char) :
    EndsNumber (c :: rest) := by
  intro d hd
  obtain rfl : c = d := by simpa using hd
  exact h

theorem EndsNumber.cases {rest : List Char} (h : EndsNumber rest) :
    rest = [] ∨ ∃ c after, rest = c :: after ∧ (c = ',' ∨ c = ']' ∨ c = '\x7d') := by
  cases rest with
  | nil => exact .inl rfl
  | cons c after => exact .inr ⟨c, after, rfl, h c rfl⟩

theorem EndsNumber.takeWhile {rest : List Char} (h : EndsNumber rest) :
    rest.takeWhile isDigit = [] := by
  obtain rfl | ⟨c, after, rfl, rfl | rfl | rfl⟩ := h.cases <;> rfl

theorem EndsNumber.dropWhile {rest : List Char} (h : EndsNumber rest) :
    rest.dropWhile isDigit = rest := by
  obtain rfl | ⟨c, after, rfl, rfl | rfl | rfl⟩ := h.cases <;> rfl

theorem EndsNumber.readFraction {rest : List Char} (h : EndsNumber rest) :
    readFraction rest = some ([], rest) := by
  obtain rfl | ⟨c, after, rfl, rfl | rfl | rfl⟩ := h.cases <;> rfl

theorem EndsNumber.readExponent {rest : List Char} (h : EndsNumber rest) :
    readExponent rest = some (none, rest) := by
  obtain rfl | ⟨c, after, rfl, rfl | rfl | rfl⟩ := h.cases <;> rfl

theorem ofDigits_toDigits (n : Nat) : ofDigits (Nat.toDigits 10 n) = n := by
  have hfold : ofDigits (Nat.toDigits 10 n) = Nat.ofDigitChars 10 (Nat.toDigits 10 n) 0 := by
    unfold ofDigits Nat.ofDigitChars
    congr 1
    funext acc d
    rw [Nat.mul_comm]
    rfl
  rw [hfold, (Text.digits_toDigits n).value]

/-- No zero leads the digits of a positive number. -/
theorem toDigits_ne_zero_cons {n : Nat} (h : 0 < n) (ds : List Char) :
    Nat.toDigits 10 n ≠ '0' :: ds := by
  induction n using Nat.strongRecOn generalizing ds with
  | ind n ih =>
    intro hdigits
    by_cases hsmall : n < 10
    · have hall : ∀ m < 10, 0 < m → Nat.digitChar m ≠ '0' := by decide
      rw [Nat.toDigits_of_lt_base hsmall] at hdigits
      exact hall n hsmall h (List.cons.inj hdigits).1
    · rw [Nat.toDigits_of_base_le (by decide) (by omega)] at hdigits
      cases hrest : Nat.toDigits 10 (n / 10) with
      | nil => exact Nat.toDigits_ne_nil hrest
      | cons d rest =>
        rw [hrest] at hdigits
        obtain ⟨rfl, -⟩ := List.cons.inj hdigits
        exact ih (n / 10) (by omega) (by omega) rest hrest

theorem readWhole_toDigits (n : Nat) {rest : List Char} (h : EndsNumber rest) :
    readWhole (Nat.toDigits 10 n ++ rest) = some (n, rest) := by
  rcases Nat.eq_zero_or_pos n with rfl | hpos
  · rfl
  · have hdigits : ∀ c ∈ Nat.toDigits 10 n, isDigit c = true := (Text.digits_toDigits n).digits
    cases htext : Nat.toDigits 10 n with
    | nil => exact absurd htext Nat.toDigits_ne_nil
    | cons d ds =>
      rw [List.cons_append, readWhole]
      · rw [← List.cons_append, ← htext, List.takeWhile_append_of_pos hdigits,
          List.dropWhile_append_of_pos hdigits, h.takeWhile, h.dropWhile, List.append_nil, htext]
        simp only [List.isEmpty_cons, Bool.false_eq_true, if_false]
        rw [← htext, ofDigits_toDigits]
      · intro tail heq
        obtain ⟨rfl, -⟩ := List.cons.inj heq
        exact toDigits_ne_zero_cons hpos ds htext

/-- Decimal digits are read as their number where nothing continues them. -/
theorem readMagnitude_toDigits (negative : Bool) (n : Nat) {rest : List Char}
    (h : EndsNumber rest) :
    readMagnitude negative (Nat.toDigits 10 n ++ rest) = some (⟨negative, n, [], none⟩, rest) := by
  simp [readMagnitude, readWhole_toDigits n h, h.readFraction, h.readExponent]

/-- A text that begins with a digit begins with a number. -/
theorem readToken_digit {d : Char} (hd : d.isDigit = true) (s : List Char) :
    readToken (d :: s) = (readMagnitude false (d :: s)).map fun r => (.number r.1, r.2) := by
  unfold readToken
  split
  case h_12 => rfl
  all_goals
    rename_i heq
    rw [(List.cons.inj heq).1] at hd
    cases hd

/-- An integer is written without a point or an exponent. -/
theorem eq_of_isExact {n : Numeral} (h : n.isExact = true) :
    n = ⟨n.negative, n.whole, [], none⟩ := by
  obtain ⟨negative, whole, fraction, exponent⟩ := n
  simp only [Numeral.isExact, Numeral.isInteger, Bool.and_eq_true, List.isEmpty_iff,
    Option.isNone_iff_eq_none] at h
  rw [h.1.1.1, h.1.1.2]

/-- **An integer is read back from its digits.** -/
theorem readToken_render_numeral {n : Numeral} (h : n.isExact = true) {rest : List Char}
    (hrest : EndsNumber rest) :
    readToken (n.render.toList ++ rest) = some (.number n, rest) := by
  obtain ⟨negative, whole, fraction, exponent⟩ := n
  cases eq_of_isExact h
  rw [Numeral.render, if_pos h, String.toList_append, Nat.toList_repr]
  cases negative with
  | true =>
    have hsign : ("-" : String).toList = ['-'] := rfl
    rw [if_pos rfl, hsign, List.cons_append, List.nil_append, List.cons_append, readToken,
      readMagnitude_toDigits true whole hrest, Option.map_some]
  | false =>
    cases htext : Nat.toDigits 10 whole with
    | nil => exact absurd htext Nat.toDigits_ne_nil
    | cons d ds =>
      have hd := (Text.digits_toDigits whole).digits d (htext ▸ List.mem_cons_self)
      have hread := readMagnitude_toDigits false whole hrest
      rw [htext] at hread
      change readToken (d :: (ds ++ rest)) = _
      rw [readToken_digit hd, ← List.cons_append, hread, Option.map_some]

end Saboteur.Json
