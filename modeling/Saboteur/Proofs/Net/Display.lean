import Mathlib.Algebra.GroupWithZero.Nat
import Mathlib.Order.Lattice
import Saboteur.Net.Address

/-!
# What addresses are written with

The text of an address consists of digits, lowercase letters, points and colons. There are no colons
in one of the old version, and at most eight in one of the new.
-/

namespace Saboteur

/-- A text of letters, digits, points and colons, with bounds for the colons and the length. -/
structure Written (cs : List Char) (colons size : Nat) : Prop where
  glyph : ∀ c ∈ cs, c.isAlphanum = true ∨ c = '.' ∨ c = ':'
  count_le : cs.count ':' ≤ colons
  length_le : cs.length ≤ size

namespace Written

variable {cs ds : List Char} {k l m n : Nat}

theorem nil : Written [] 0 0 := ⟨by simp, by simp, by simp⟩

theorem colon : Written [':'] 1 1 := ⟨by simp, by simp, by simp⟩

theorem point : Written ['.'] 0 1 := ⟨by simp, by simp, by simp⟩

theorem mono (h : Written cs k n) (hk : k ≤ l) (hn : n ≤ m) : Written cs l m :=
  ⟨h.glyph, h.count_le.trans hk, h.length_le.trans hn⟩

theorem append (hcs : Written cs k n) (hds : Written ds l m) :
    Written (cs ++ ds) (k + l) (n + m) where
  glyph c hc := (List.mem_append.1 hc).elim (hcs.glyph c) (hds.glyph c)
  count_le := by
    rw [List.count_append]
    exact Nat.add_le_add hcs.count_le hds.count_le
  length_le := by
    rw [List.length_append]
    exact Nat.add_le_add hcs.length_le hds.length_le

/-- Pieces with a separator between them. -/
theorem intercalate {sep : List Char} {pieces : List (List Char)} (hsep : Written sep l m)
    (h : ∀ p ∈ pieces, Written p k n) :
    Written (sep.intercalate pieces) (pieces.length * (k + l)) (pieces.length * (n + m)) := by
  induction pieces with
  | nil => exact nil.mono (Nat.zero_le _) (Nat.zero_le _)
  | cons p pieces ih =>
    have hp := h p List.mem_cons_self
    have hrest := ih fun q hq => h q (List.mem_cons_of_mem p hq)
    cases pieces with
    | nil =>
      rw [List.intercalate_singleton]
      exact hp.mono (by simp) (by simp)
    | cons q pieces =>
      rw [List.intercalate_cons_cons]
      refine ((hp.append hsep).append hrest).mono (Eq.le ?_) (Eq.le ?_)
      · rw [List.length_cons (a := p), Nat.succ_mul, Nat.add_comm]
      · rw [List.length_cons (a := p), Nat.succ_mul, Nat.add_comm]

end Written

/-- Digits of a base up to sixteen are letters and digits. -/
theorem isAlphanum_of_mem_toDigits {b : Nat} (hb : 1 < b) (hle : b ≤ 16) {n : Nat} {c : Char}
    (h : c ∈ Nat.toDigits b n) : c.isAlphanum = true := by
  have hdigit : ∀ d < 16, (Nat.digitChar d).isAlphanum = true := by decide
  induction n using Nat.strongRecOn with
  | ind n ih =>
    rw [Nat.toDigits_eq_if hb] at h
    split at h
    · rw [List.mem_singleton.1 h]
      exact hdigit n (by omega)
    · rename_i hn
      rcases List.mem_append.1 h with h | h
      · exact ih (n / b) (Nat.div_lt_self (by omega) hb) h
      · rw [List.mem_singleton.1 h]
        exact hdigit (n % b) ((Nat.mod_lt n (Nat.zero_lt_of_lt hb)).trans_le hle)

/-- A number takes no more digits than its bound. -/
theorem written_toDigits {b k n : Nat} (hb : 1 < b) (hle : b ≤ 16) (hk : 0 < k) (h : n < b ^ k) :
    Written (Nat.toDigits b n) 0 k where
  glyph c hc := .inl (isAlphanum_of_mem_toDigits hb hle hc)
  count_le := by
    refine (List.count_eq_zero.2 fun hc => ?_).le
    exact absurd (isAlphanum_of_mem_toDigits hb hle hc) (by decide)
  length_le := (Nat.length_toDigits_le_iff hb hk).2 h

namespace IpAddress

theorem written_dotted (bytes : List UInt8) :
    Written (dotted bytes).toList 0 (bytes.length * 4) := by
  have hbyte : ∀ p ∈ (bytes.map fun b => Nat.repr b.toNat).map String.toList, Written p 0 3 := by
    simp only [List.map_map, List.mem_map, Function.comp_apply]
    rintro _ ⟨b, -, rfl⟩
    rw [Nat.toList_repr]
    exact written_toDigits (by decide) (by decide) (by decide) (b.toNat_lt.trans (by decide))
  have := Written.point.intercalate hbyte
  rw [dotted, String.toList_intercalate]
  simpa using this

/-! ## Groups -/

theorem length_groups (bytes : List UInt8) : (groups bytes).length = bytes.length / 2 := by
  induction bytes using groups.induct with
  | case1 a b rest ih =>
    rw [groups, List.length_cons, ih, List.length_cons, List.length_cons]
    omega
  | case2 bytes h =>
    match bytes, h with
    | [], _ => rfl
    | [_], _ => simp [groups]
    | a :: b :: rest, h => exact absurd rfl (h a b rest)

theorem lt_of_mem_groups {bytes : List UInt8} {g : Nat} (h : g ∈ groups bytes) : g < 16 ^ 4 := by
  induction bytes using groups.induct with
  | case1 a b rest ih =>
    rw [groups, List.mem_cons] at h
    rcases h with rfl | h
    · have := a.toNat_lt
      have := b.toNat_lt
      omega
    · exact ih h
  | case2 bytes hshort =>
    rw [groups] at h
    · cases h
    · exact hshort

/-- Groups are written with a colon behind each at the most. -/
theorem written_groupsText {gs : List Nat} (h : ∀ g ∈ gs, g < 16 ^ 4) :
    Written (groupsText gs).toList gs.length (gs.length * 5) := by
  have hgroup : ∀ p ∈ (gs.map groupText).map String.toList, Written p 0 4 := by
    simp only [List.map_map, List.mem_map, Function.comp_apply]
    rintro _ ⟨g, hg, rfl⟩
    rw [groupText, String.toList_ofList]
    exact written_toDigits (by decide) (by decide) (by decide) (h g hg)
  have := Written.colon.intercalate hgroup
  rw [groupsText, String.toList_intercalate]
  simpa using this

/-- The longest run of zeros lies in the list. -/
theorem longestZeros_le (place : Nat) (gs : List Nat) :
    place ≤ (longestZeros place gs).1 ∧
      (longestZeros place gs).1 + (longestZeros place gs).2 ≤ place + gs.length := by
  induction gs generalizing place with
  | nil => exact ⟨le_rfl, le_rfl⟩
  | cons g gs ih =>
    rw [longestZeros]
    have hhere : leadingZeros (g :: gs) ≤ (g :: gs).length := (List.takeWhile_sublist _).length_le
    have hlater := ih (place + 1)
    rw [List.length_cons] at *
    split
    · exact ⟨le_rfl, Nat.add_le_add_left hhere place⟩
    · omega

/-- At least two groups are left out for the two colons in their place. -/
theorem written_compressed {gs : List Nat} (hlength : gs.length = 8) (h : ∀ g ∈ gs, g < 16 ^ 4) :
    Written (compressed gs).toList 8 42 := by
  unfold compressed
  have hzeros := (longestZeros_le 0 gs).2
  generalize longestZeros 0 gs = zeros at *
  obtain ⟨start, length⟩ := zeros
  dsimp only at *
  split
  · exact (written_groupsText h).mono hlength.le (by omega)
  · have hfront : Written (groupsText (gs.take start)).toList _ _ :=
      written_groupsText fun g hg => h g (List.mem_of_mem_take hg)
    have hback : Written (groupsText (gs.drop (start + length))).toList _ _ :=
      written_groupsText fun g hg => h g (List.mem_of_mem_drop hg)
    rw [List.length_take] at hfront
    rw [List.length_drop] at hback
    have hgap : Written "::".toList 2 2 := Written.colon.append Written.colon
    rw [String.toList_append, String.toList_append]
    exact ((hfront.append hgap).append hback).mono (by omega) (by omega)

theorem written_display_v6 (b : Octets 16) : Written (v6 b).display.toList 8 42 := by
  rw [display]
  split
  · have hmark : Written "::ffff:".toList 3 7 := by
      refine ⟨fun c hc => ?_, by decide, by decide⟩
      have hall : "::ffff:".toList.all (fun c => c.isAlphanum || c = ':') = true := by decide
      have hglyph := List.all_eq_true.1 hall c hc
      rw [Bool.or_eq_true, decide_eq_true_eq] at hglyph
      exact hglyph.imp_right .inr
    have hdotted := written_dotted (b.toList.drop 12)
    rw [List.length_drop, b.length_toList] at hdotted
    rw [String.toList_append]
    exact (hmark.append hdotted).mono (by decide) (by decide)
  · refine written_compressed ?_ fun g hg => lt_of_mem_groups hg
    rw [length_groups, b.length_toList]

end IpAddress

end Saboteur
