import Mathlib.Data.List.Basic
import Saboteur.Proofs.Text.Ascii
import Saboteur.Text.Case

/-!
# Lowercase texts stay as they are

The lowercase form of a text is its own lowercase form. For a single character this rests on the
table: what a run of it leads to has no lowercase form in any run. Between characters it rests on
the two exceptions: neither the capital I with a dot nor the capital sigma is left in a lowercase
text, so it does not matter any more what stands around a character.

A character that is not blank stays so, and beyond ASCII only the kelvin sign has a lowercase form
within it, which is no hexadecimal digit.
-/

namespace Saboteur.Text

/-! ## The table -/

namespace CaseRun

/-- The lowercase form of the last code point of a run. -/
def lowerLast (r : CaseRun) : Nat := r.lower + (r.last - r.first)

/-- No lowercase form of the first run has one in the second. The two lie apart, or they alternate.
All pairs of runs are checked, so the comparisons are those that compute fastest. -/
def apart (r r' : CaseRun) : Bool :=
  r.lowerLast.blt r'.first || r'.last.blt r.lower ||
    (r.step.beq 2 || r.first.beq r.last) && r'.step.beq 2 && ((r.lower + r'.first) % 2).beq 1

variable {r r' : CaseRun} {n m : Nat}

theorem lower?_eq_some_iff :
    r.lower? n = some m ↔
      (r.first ≤ n ∧ n ≤ r.last ∧ (n - r.first) % r.step = 0) ∧ r.lower + (n - r.first) = m := by
  unfold lower?
  split <;> simp [*]

/-- What it means for runs to be apart, in numbers. -/
theorem apart_iff :
    r.apart r' = true ↔ (r.lowerLast < r'.first ∨ r'.last < r.lower) ∨
      ((r.step = 2 ∨ r.first = r.last) ∧ r'.step = 2) ∧ (r.lower + r'.first) % 2 = 1 := by
  simp only [apart, Bool.or_eq_true, Bool.and_eq_true, Nat.blt_eq, Nat.beq_eq]

/-- Of runs that are apart, the second has no lowercase form for what the first one leads to. -/
theorem lower?_eq_none_of_apart (h : r.apart r' = true) (hm : r.lower? n = some m) :
    r'.lower? m = none := by
  obtain ⟨⟨hfirst, hlast, hstep⟩, rfl⟩ := lower?_eq_some_iff.1 hm
  refine if_neg fun ⟨hfirst', hlast', hstep'⟩ => ?_
  rcases apart_iff.1 h with (h | h) | ⟨⟨h, htwo⟩, hodd⟩
  · unfold lowerLast at h
    omega
  · omega
  · rw [htwo] at hstep'
    rcases h with h | h
    · rw [h] at hstep
      omega
    · omega

end CaseRun

/-- Ranges that no run leads into: of what is blank beyond ASCII, of the capital I with a dot, and of
what is no code point. -/
def loweredGaps : List (Nat × Nat) :=
  [(0x80, 0xA0), (0x130, 0x130), (0x1680, 0x1680), (0x2000, 0x205F), (0x3000, 0x3000),
    (0xD800, 0xDFFF)]

/-- All runs of the table are apart, from each other and from themselves. -/
theorem caseRuns_apart {r r' : CaseRun} (hr : r ∈ caseRuns) (hr' : r' ∈ caseRuns) :
    r.apart r' = true := by
  have hall : (caseRuns.all fun r => caseRuns.all r.apart) = true := by decide +kernel
  exact List.all_eq_true.1 (List.all_eq_true.1 hall r hr) r' hr'

/-- No run leads into one of the gaps. -/
theorem caseRuns_gaps : ∀ r ∈ caseRuns, ∀ g ∈ loweredGaps, r.lowerLast < g.1 ∨ g.2 < r.lower := by
  decide +kernel

/-- Runs lead to code points beyond ASCII, except for that of the kelvin sign. -/
theorem caseRuns_bounds : ∀ r ∈ caseRuns, r.lowerLast < 0x110000 ∧
    (0x80 ≤ r.lower ∨ r.lower = 0x6B ∧ r.lowerLast = 0x6B) := by decide +kernel

/-- A code point that a run leads to. -/
def IsLowered (m : Nat) : Prop := ∃ r ∈ caseRuns, ∃ n, r.lower? n = some m

namespace IsLowered

variable {m : Nat}

theorem exists_bounds (h : IsLowered m) : ∃ r ∈ caseRuns, r.lower ≤ m ∧ m ≤ r.lowerLast := by
  obtain ⟨r, hr, n, hn⟩ := h
  obtain ⟨⟨hfirst, hlast, -⟩, rfl⟩ := CaseRun.lower?_eq_some_iff.1 hn
  refine ⟨r, hr, Nat.le_add_right _ _, ?_⟩
  unfold CaseRun.lowerLast
  omega

/-- What a run leads to has no lowercase form. -/
theorem findSome?_eq_none (h : IsLowered m) : caseRuns.findSome? (·.lower? m) = none := by
  obtain ⟨r, hr, n, hn⟩ := h
  refine List.findSome?_eq_none_iff.2 fun r' hr' => ?_
  exact CaseRun.lower?_eq_none_of_apart (caseRuns_apart hr hr') hn

theorem outside (h : IsLowered m) {g : Nat × Nat} (hg : g ∈ loweredGaps) : m < g.1 ∨ g.2 < m := by
  obtain ⟨r, hr, hle, hlast⟩ := h.exists_bounds
  have hgap := caseRuns_gaps r hr g hg
  omega

/-- What a run leads to is the letter of the kelvin sign or lies beyond ASCII. -/
theorem eq_or_le (h : IsLowered m) : m = 0x6B ∨ 0x80 ≤ m := by
  obtain ⟨r, hr, hle, hlast⟩ := h.exists_bounds
  have hbounds := (caseRuns_bounds r hr).2
  omega

theorem isValidChar (h : IsLowered m) : m.isValidChar := by
  obtain ⟨r, hr, -, hlast⟩ := h.exists_bounds
  have hmax := (caseRuns_bounds r hr).1
  have hsurrogates : m < 0xD800 ∨ 0xDFFF < m := h.outside (g := (0xD800, 0xDFFF)) (by decide)
  unfold Nat.isValidChar
  omega

end IsLowered

/-! ## Characters -/

variable {c d : Char}

/-- Beyond ASCII a character has a lowercase form in the table, or is its own. -/
theorem lowerChar_cases (h : 0x80 ≤ c.toNat) : lowerChar c = c ∨ IsLowered (lowerChar c).toNat := by
  have hwide : ¬ c.toNat < 0x80 := Nat.not_lt.2 h
  unfold lowerChar
  simp only [if_neg hwide]
  split
  case h_1 m hm =>
    obtain ⟨r, hr, hlower⟩ := List.exists_of_findSome?_eq_some hm
    have hlowered : IsLowered m := ⟨r, hr, _, hlower⟩
    have hvalue : (Char.ofNat m).toNat = m := by
      rw [Char.ofNat, dif_pos hlowered.isValidChar]
      rfl
    exact .inr (hvalue.symm ▸ hlowered)
  case h_2 => exact .inl rfl

/-- Beyond ASCII only the kelvin sign has a lowercase form within. -/
theorem lowerChar_eq_or_le (h : 0x80 ≤ c.toNat) :
    lowerChar c = 'k' ∨ 0x80 ≤ (lowerChar c).toNat := by
  rcases lowerChar_cases h with hself | hlowered
  · exact .inr (hself.symm ▸ h)
  · exact hlowered.eq_or_le.imp_left fun hk => Char.toNat_inj.1 hk

/-- The lowercase form of a character is its own. -/
theorem lowerChar_lowerChar (c : Char) : lowerChar (lowerChar c) = lowerChar c := by
  by_cases hascii : c.toNat < 0x80
  · exact of_forall_lt_128 (P := fun c => lowerChar (lowerChar c) = lowerChar c) (by decide) hascii
  have hwide : 0x80 ≤ c.toNat := Nat.not_lt.1 hascii
  rcases lowerChar_cases hwide with hself | hlowered
  · rw [hself, hself]
  rcases lowerChar_eq_or_le hwide with hk | hle
  · rw [hk]
    decide
  · generalize lowerChar c = d at hlowered hle
    have hnot : ¬ d.toNat < 0x80 := Nat.not_lt.2 hle
    simp only [lowerChar, if_neg hnot, hlowered.findSome?_eq_none]

/-- No character becomes blank. -/
theorem isBlank_lowerChar (h : isBlank c = false) : isBlank (lowerChar c) = false := by
  by_cases hascii : c.toNat < 0x80
  · exact of_forall_lt_128 (P := fun c => isBlank c = false → isBlank (lowerChar c) = false)
      (by decide) hascii h
  rcases lowerChar_cases (Nat.not_lt.1 hascii) with hself | hlowered
  · rwa [hself]
  · generalize lowerChar c = d at hlowered
    have hk := hlowered.eq_or_le
    have hall : ∀ g ∈ loweredGaps, d.toNat < g.1 ∨ g.2 < d.toNat := fun g => hlowered.outside
    simp only [loweredGaps, List.forall_mem_cons] at hall
    simp only [isBlank, Bool.or_eq_false_iff, Bool.and_eq_false_iff, decide_eq_false_iff_not,
      beq_eq_false_iff_ne, ne_eq]
    omega

/-- A character that is its own lowercase form, whatever stands around it. -/
structure IsLower (c : Char) : Prop where
  lowerChar_eq : lowerChar c = c
  ne_dottedI : c.toNat ≠ 0x130

instance (c : Char) : Decidable (IsLower c) :=
  decidable_of_iff (lowerChar c = c ∧ c.toNat ≠ 0x130) ⟨fun h => ⟨h.1, h.2⟩, fun h => ⟨h.1, h.2⟩⟩

/-- A capital sigma has a lowercase form in the table too. -/
theorem IsLower.ne_sigma (h : IsLower c) : c.toNat ≠ 0x3A3 := by
  intro hsigma
  have hc : c = Char.ofNat 0x3A3 := Char.toNat_inj.1 hsigma
  exact absurd (hc ▸ h.lowerChar_eq) (by decide)

theorem isLower_lowerChar (h : c.toNat ≠ 0x130) : IsLower (lowerChar c) := by
  refine ⟨lowerChar_lowerChar c, ?_⟩
  by_cases hascii : c.toNat < 0x80
  · exact of_forall_lt_128 (P := fun c => (lowerChar c).toNat ≠ 0x130) (by decide) hascii
  rcases lowerChar_cases (Nat.not_lt.1 hascii) with hself | hlowered
  · rwa [hself]
  · have hgap := hlowered.outside (g := (0x130, 0x130)) (by decide)
    omega

/-! ## Texts -/

variable {before s rest : List Char}

/-- The lowercase form of a character between others. -/
def lowerAt (before : List Char) (c : Char) (rest : List Char) : List Char :=
  if c.toNat = 0x130 then [Char.ofNat 0x69, Char.ofNat 0x307]
  else if c.toNat = 0x3A3 then
    [Char.ofNat (if meetsLetter before && !meetsLetter rest then 0x3C2 else 0x3C3)]
  else [lowerChar c]

theorem lowerAfter_cons (before : List Char) (c : Char) (rest : List Char) :
    lowerAfter before (c :: rest) = lowerAt before c rest ++ lowerAfter (c :: before) rest := rfl

theorem lowerAt_ne_nil : lowerAt before c rest ≠ [] := by
  unfold lowerAt
  split
  · simp
  · split <;> simp

/-- What the two exceptions leave in a lowercase text. -/
def irregularForms : List Char :=
  [Char.ofNat 0x69, Char.ofNat 0x307, Char.ofNat 0x3C2, Char.ofNat 0x3C3]

theorem irregularForms_lower (h : d ∈ irregularForms) : IsLower d ∧ isBlank d = false := by
  simp only [irregularForms, List.mem_cons, List.not_mem_nil, or_false] at h
  rcases h with rfl | rfl | rfl | rfl <;> exact ⟨by decide, by decide⟩

/-- What a character becomes is its lowercase form or one of the exceptions. -/
theorem mem_lowerAt (h : d ∈ lowerAt before c rest) :
    (c.toNat ≠ 0x130 ∧ d = lowerChar c) ∨ d ∈ irregularForms := by
  unfold lowerAt at h
  split at h
  case isTrue =>
    simp only [List.mem_cons, List.not_mem_nil, or_false] at h
    rcases h with rfl | rfl <;> exact .inr (by decide)
  case isFalse hdotted =>
    split at h
    case isTrue =>
      rw [List.mem_singleton] at h
      subst h
      refine .inr ?_
      split <;> decide
    case isFalse => exact .inl ⟨hdotted, List.mem_singleton.1 h⟩

theorem isLower_of_mem_lowerAt (h : d ∈ lowerAt before c rest) : IsLower d := by
  rcases mem_lowerAt h with ⟨hdotted, rfl⟩ | hd
  · exact isLower_lowerChar hdotted
  · exact (irregularForms_lower hd).1

theorem isBlank_of_mem_lowerAt (hc : isBlank c = false) (h : d ∈ lowerAt before c rest) :
    isBlank d = false := by
  rcases mem_lowerAt h with ⟨-, rfl⟩ | hd
  · exact isBlank_lowerChar hc
  · exact (irregularForms_lower hd).2

theorem lowerAt_of_ne (hdotted : c.toNat ≠ 0x130) (hsigma : c.toNat ≠ 0x3A3) :
    lowerAt before c rest = [lowerChar c] := by
  rw [lowerAt, if_neg hdotted, if_neg hsigma]

/-- Neither exception has a lowercase form within ASCII. -/
theorem exists_le_lowerAt (before rest : List Char) (h : c.toNat = 0x130 ∨ c.toNat = 0x3A3) :
    ∃ d ∈ lowerAt before c rest, 0x80 ≤ d.toNat := by
  unfold lowerAt
  rcases h with h | h
  · rw [if_pos h]
    exact ⟨Char.ofNat 0x307, by simp, by decide⟩
  · rw [h, if_neg (by decide), if_pos rfl]
    exact ⟨_, List.mem_singleton_self _, by split <;> decide⟩

/-- What stands around a character does not matter any more once it is lowercase. -/
theorem lowerAt_of_isLower (h : IsLower c) : lowerAt before c rest = [c] := by
  rw [lowerAt_of_ne h.ne_dottedI h.ne_sigma, h.lowerChar_eq]

theorem isLower_of_mem_lowerAfter (h : d ∈ lowerAfter before s) : IsLower d := by
  induction s generalizing before with
  | nil => cases h
  | cons c rest ih =>
    rw [lowerAfter_cons, List.mem_append] at h
    exact h.elim isLower_of_mem_lowerAt ih

/-- A lowercase text is left as it is, whatever stands before it. -/
theorem lowerAfter_eq_self (h : ∀ c ∈ s, IsLower c) : lowerAfter before s = s := by
  induction s generalizing before with
  | nil => rfl
  | cons c rest ih =>
    obtain ⟨hc, hrest⟩ := List.forall_mem_cons.1 h
    rw [lowerAfter_cons, lowerAt_of_isLower hc, ih hrest, List.singleton_append]

/-- **A lowercase text is its own lowercase form.** -/
theorem lowerList_lowerList (s : List Char) : lowerList (lowerList s) = lowerList s :=
  lowerAfter_eq_self fun _ => isLower_of_mem_lowerAfter

/-- A text that does not end in a blank does not do so in lowercase. -/
theorem endsUnblank_lowerAfter (h : EndsUnblank s) : EndsUnblank (lowerAfter before s) := by
  induction s generalizing before with
  | nil => exact h
  | cons c rest ih =>
    rw [lowerAfter_cons]
    cases rest with
    | nil =>
      have hc : isBlank c = false := h c rfl
      intro d hd
      rw [lowerAfter, List.append_nil] at hd
      exact isBlank_of_mem_lowerAt hc (List.mem_of_getLast? hd)
    | cons c' rest =>
      have hne : lowerAfter (c :: before) (c' :: rest) ≠ [] := by
        rw [lowerAfter_cons]
        exact List.append_ne_nil_of_left_ne_nil lowerAt_ne_nil _
      intro d hd
      rw [List.getLast?_append_of_ne_nil _ hne] at hd
      exact ih (endsUnblank_of_append (s := [c]) h) d hd

end Saboteur.Text
