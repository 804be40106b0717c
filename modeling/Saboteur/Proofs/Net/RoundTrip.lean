import Saboteur.Proofs.Net.Display
import Saboteur.Proofs.Text.Integer
import Saboteur.Proofs.Text.Pieces

/-!
# Addresses are read as they were written

A number is read off its digits in any base. An address of the new version is read as the bytes whose
groups were written: the two colons stand where groups were left out, and those are zeros.
-/

namespace Saboteur

/-! ## Digits in a base -/

namespace Text

theorem digitValue?_digitChar {b d : Nat} (hb : b ≤ 16) (h : d < b) :
    digitValue? b (Nat.digitChar d) = some d := by
  have hall : ∀ b < 17, ∀ d < b, digitValue? b (Nat.digitChar d) = some d := by decide
  exact hall b (Nat.lt_succ_of_le hb) d h

/-- **The digits of a number have its value.** -/
theorem exists_mapM_digitValue?_toDigits {b : Nat} (hb : 1 < b) (hle : b ≤ 16) (n : Nat) :
    ∃ ds, (Nat.toDigits b n).mapM (digitValue? b) = some ds ∧
      ds.foldl (fun acc d => acc * b + d) 0 = n := by
  induction n using Nat.strongRecOn with
  | ind n ih =>
    rw [Nat.toDigits_eq_if hb]
    split
    · rename_i hn
      refine ⟨[n], ?_, by simp⟩
      simp [digitValue?_digitChar hle hn]
    · obtain ⟨ds, hds, hvalue⟩ := ih (n / b) (Nat.div_lt_self (by omega) hb)
      refine ⟨ds ++ [n % b], ?_, ?_⟩
      · simp [List.mapM_append, hds, digitValue?_digitChar hle (Nat.mod_lt n (by omega))]
      · rw [List.foldl_append, hvalue, List.foldl_cons, List.foldl_nil, Nat.mul_comm,
          Nat.div_add_mod]

end Text

namespace IpAddress

/-! ## Groups -/

/-- The two bytes of a group. -/
def groupBytes (g : Nat) : List UInt8 := [UInt8.ofNat (g / 256), UInt8.ofNat (g % 256)]

theorem flatMap_groupBytes_groups {bytes : List UInt8} (h : bytes.length % 2 = 0) :
    (groups bytes).flatMap groupBytes = bytes := by
  induction bytes using groups.induct with
  | case1 a b rest ih =>
    have ha : (a.toNat * 256 + b.toNat) / 256 = a.toNat := by
      have := b.toNat_lt
      omega
    have hb : (a.toNat * 256 + b.toNat) % 256 = b.toNat := by
      have := b.toNat_lt
      omega
    have hrest : rest.length % 2 = 0 := by
      simp only [List.length_cons] at h
      omega
    rw [groups, List.flatMap_cons, ih hrest, groupBytes, ha, hb, UInt8.ofNat_toNat,
      UInt8.ofNat_toNat]
    rfl
  | case2 bytes hshort =>
    rcases bytes with _ | ⟨a, _ | ⟨b, rest⟩⟩
    · rfl
    · cases h
    · exact absurd rfl (hshort a b rest)

theorem length_flatMap_groupBytes (gs : List Nat) : (gs.flatMap groupBytes).length = 2 * gs.length := by
  induction gs with
  | nil => rfl
  | cons g gs ih =>
    rw [List.flatMap_cons, List.length_append, ih, List.length_cons]
    exact (Nat.add_comm _ _).trans (Nat.mul_succ 2 _).symm

theorem flatMap_groupBytes_replicate (n : Nat) :
    (List.replicate n 0).flatMap groupBytes = List.replicate (2 * n) 0 := by
  induction n with
  | zero => rfl
  | succ n ih =>
    rw [List.replicate_succ, List.flatMap_cons, ih, Nat.mul_succ, Nat.add_comm,
      ← List.replicate_append_replicate]
    rfl

/-- **A group is read as it was written.** -/
theorem readGroup?_groupText {g : Nat} (h : g < 16 ^ 4) :
    readGroup? (groupText g).toList = some (groupBytes g) := by
  obtain ⟨ds, hds, hvalue⟩ :=
    Text.exists_mapM_digitValue?_toDigits (b := 16) (by decide) (Nat.le_refl _) g
  have hlength : ¬ ((Nat.toDigits 16 g).length = 0 ∨ 4 < (Nat.toDigits 16 g).length) := by
    have hle := (Nat.length_toDigits_le_iff (b := 16) (k := 4) (by decide) (by decide)).2 h
    have hne : (Nat.toDigits 16 g).length ≠ 0 :=
      fun hzero => Nat.toDigits_ne_nil (List.length_eq_zero_iff.1 hzero)
    omega
  rw [readGroup?, groupText, String.toList_ofList, if_neg hlength]
  have hmapM : (Nat.toDigits 16 g).mapM Hex.value? = some ds := hds
  rw [hmapM, Option.map_some, hvalue]
  rfl

theorem isAlphanum_of_mem_groupText {g : Nat} {c : Char} (h : c ∈ (groupText g).toList) :
    c.isAlphanum = true := by
  rw [groupText, String.toList_ofList] at h
  exact isAlphanum_of_mem_toDigits (by decide) (Nat.le_refl _) h

theorem readGroupList?_map_groupText (dottedEnd : Bool) {gs : List Nat}
    (h : ∀ g ∈ gs, g < 16 ^ 4) :
    readGroupList? dottedEnd (gs.map fun g => (groupText g).toList) =
      some (gs.flatMap groupBytes) := by
  induction gs with
  | nil => rfl
  | cons g gs ih =>
    have hg := readGroup?_groupText (h g List.mem_cons_self)
    have hpoint : (groupText g).toList.contains '.' = false := by
      rw [List.contains_eq_mem, decide_eq_false_iff_not]
      exact fun hmem => absurd (isAlphanum_of_mem_groupText hmem) (by decide)
    have hrest := ih fun g' hg' => h g' (List.mem_cons_of_mem _ hg')
    cases gs with
    | nil =>
      simp only [List.map_cons, List.map_nil, readGroupList?, hpoint, Bool.and_false,
        Bool.false_eq_true, if_false, hg, List.flatMap_cons, List.flatMap_nil, List.append_nil]
    | cons g' gs =>
      rw [List.map_cons, List.map_cons, readGroupList?, hg]
      · rw [List.map_cons] at hrest
        rw [hrest]
        rfl
      · simp

/-- The pieces that groups are written with. -/
theorem toList_groupsText (gs : List Nat) :
    (groupsText gs).toList = [':'].intercalate (gs.map fun g => (groupText g).toList) := by
  rw [groupsText, String.toList_intercalate, List.map_map]
  rfl

theorem readGroups?_groupsText (dottedEnd : Bool) {gs : List Nat} (h : ∀ g ∈ gs, g < 16 ^ 4) :
    readGroups? dottedEnd (groupsText gs).toList = some (gs.flatMap groupBytes) := by
  by_cases hnil : gs = []
  · rw [hnil]
    rfl
  have hpieces : Text.splitList ':' (groupsText gs).toList =
      gs.map fun g => (groupText g).toList := by
    refine Text.splitList_eq_iff.2 ⟨by simpa using hnil, fun p hp => ?_, toList_groupsText gs⟩
    obtain ⟨g, -, rfl⟩ := List.mem_map.1 hp
    exact fun hmem => absurd (isAlphanum_of_mem_groupText hmem) (by decide)
  have hne : (groupsText gs).toList.isEmpty = false := by
    cases htext : (groupsText gs).toList with
    | cons c rest => rfl
    | nil =>
      rw [htext] at hpieces
      obtain ⟨g, gs', rfl⟩ := List.exists_cons_of_ne_nil hnil
      have hempty : (groupText g).toList = [] := (List.cons.inj hpieces).1.symm
      rw [groupText, String.toList_ofList] at hempty
      exact absurd hempty Nat.toDigits_ne_nil
  rw [readGroups?, hne, hpieces]
  exact readGroupList?_map_groupText dottedEnd h

/-! ## The gap -/

theorem cutAtGap?_cons {c : Char} {s : List Char} (h : ¬ (c = ':' ∧ s.head? = some ':')) :
    cutAtGap? (c :: s) = (cutAtGap? s).map fun p => (c :: p.1, p.2) := by
  rw [cutAtGap?]
  rintro rest rfl rfl
  exact h ⟨rfl, rfl⟩

theorem cutAtGap?_append {p s : List Char} (h : ':' ∉ p) :
    cutAtGap? (p ++ s) = (cutAtGap? s).map fun q => (p ++ q.1, q.2) := by
  induction p with
  | nil => simp
  | cons c p ih =>
    rw [List.mem_cons, not_or] at h
    rw [List.cons_append, cutAtGap?_cons fun hc => h.1 hc.1.symm, ih h.2, Option.map_map]
    rfl

/-- Pieces with one colon between them hold no gap. -/
theorem cutAtGap?_intercalate {pieces : List (List Char)} {s : List Char}
    (h : ∀ p ∈ pieces, p ≠ [] ∧ ':' ∉ p) :
    cutAtGap? ([':'].intercalate pieces ++ s) =
      (cutAtGap? s).map fun q => ([':'].intercalate pieces ++ q.1, q.2) := by
  induction pieces with
  | nil => simp [List.intercalate]
  | cons p pieces ih =>
    have hp := (h p List.mem_cons_self).2
    have hrest := ih fun q hq => h q (List.mem_cons_of_mem _ hq)
    cases pieces with
    | nil =>
      rw [List.intercalate_singleton]
      exact cutAtGap?_append hp
    | cons q pieces =>
      obtain ⟨hne, hcolon⟩ := h q (List.mem_cons_of_mem _ List.mem_cons_self)
      have hhead : ([':'].intercalate (q :: pieces) ++ s).head? ≠ some ':' := by
        obtain ⟨c, q, rfl⟩ := List.exists_cons_of_ne_nil hne
        have hc : c ≠ ':' := fun heq => hcolon (heq ▸ List.mem_cons_self)
        cases pieces <;> simpa [List.intercalate_cons_cons] using hc
      rw [List.intercalate_cons_cons, List.append_assoc, List.append_assoc,
        cutAtGap?_append hp, List.singleton_append, cutAtGap?_cons fun hc => hhead hc.2, hrest]
      simp [Option.map_map, Function.comp_def]

theorem cutAtGap?_groupsText (gs : List Nat) (s : List Char) :
    cutAtGap? ((groupsText gs).toList ++ s) =
      (cutAtGap? s).map fun q => ((groupsText gs).toList ++ q.1, q.2) := by
  rw [toList_groupsText]
  refine cutAtGap?_intercalate fun p hp => ?_
  obtain ⟨g, -, rfl⟩ := List.mem_map.1 hp
  refine ⟨?_, fun hmem => absurd (isAlphanum_of_mem_groupText hmem) (by decide)⟩
  rw [groupText, String.toList_ofList]
  exact Nat.toDigits_ne_nil

/-- **What is left out for a gap are zeros.** -/
theorem exists_eq_append_longestZeros (place : Nat) (gs : List Nat) :
    ∃ before after, gs = before ++ List.replicate (longestZeros place gs).2 0 ++ after ∧
      (longestZeros place gs).1 = place + before.length := by
  induction gs generalizing place with
  | nil => exact ⟨[], [], rfl, rfl⟩
  | cons g gs ih =>
    rw [longestZeros]
    split
    · refine ⟨[], (g :: gs).dropWhile (· == 0), ?_, rfl⟩
      have hzeros : (g :: gs).takeWhile (· == 0) = List.replicate (leadingZeros (g :: gs)) 0 :=
        List.eq_replicate_of_mem fun b hb => beq_iff_eq.1 (List.all_eq_true.1 List.all_takeWhile b hb)
      rw [List.nil_append, ← hzeros, List.takeWhile_append_dropWhile]
    · obtain ⟨before, after, heq, hplace⟩ := ih (place + 1)
      refine ⟨g :: before, after, ?_, ?_⟩
      · rw [List.cons_append, List.cons_append, ← heq]
      · rw [hplace, List.length_cons]
        omega

/-! ## The whole -/

/-- **An address of the new version is read as it was written.** -/
theorem readV6?_compressed (b : Octets 16) :
    readV6? (compressed (groups b.toList)).toList = some b := by
  have hbytes : (groups b.toList).flatMap groupBytes = b.toList :=
    flatMap_groupBytes_groups (by rw [b.length_toList])
  have hlength : (groups b.toList).length = 8 := by rw [length_groups, b.length_toList]
  have hgroups : ∀ g ∈ groups b.toList, g < 16 ^ 4 := fun g hg => lt_of_mem_groups hg
  generalize groups b.toList = gs at *
  obtain ⟨before, after, heq, hplace⟩ := exists_eq_append_longestZeros 0 gs
  unfold compressed
  generalize longestZeros 0 gs = zeros at *
  obtain ⟨start, count⟩ := zeros
  simp only [Nat.zero_add] at heq hplace ⊢
  split
  · have hcut := cutAtGap?_groupsText gs []
    rw [List.append_nil] at hcut
    rw [readV6?, hcut]
    simp only [cutAtGap?, Option.map_none, readGroups?_groupsText true hgroups, hbytes]
    exact Octets.ofList?_toList b
  · rename_i hcount
    have htake : gs.take start = before := by
      rw [heq, hplace, List.append_assoc, List.take_left]
    have hdrop : gs.drop (start + count) = after := by
      rw [heq]
      refine List.drop_left' ?_
      rw [List.length_append, List.length_replicate, hplace]
    have hsum : before.length + count + after.length = 8 := by
      rw [← hlength, heq]
      simp only [List.length_append, List.length_replicate]
    have hcut := cutAtGap?_groupsText before (':' :: ':' :: (groupsText after).toList)
    have hbefore : readGroups? false (groupsText before).toList = _ :=
      readGroups?_groupsText false fun g hg => hgroups g (by simp [heq, hg])
    have hafter : readGroups? true (groupsText after).toList = _ :=
      readGroups?_groupsText true fun g hg => hgroups g (by simp [heq, hg])
    have hgap : 16 - 2 * before.length - 2 * after.length = 2 * count := by omega
    rw [htake, hdrop, String.toList_append, String.toList_append, List.append_assoc]
    show readV6? ((groupsText before).toList ++ ':' :: ':' :: (groupsText after).toList) = _
    rw [readV6?, hcut]
    simp only [cutAtGap?, Option.map_some, List.append_nil, hbefore, hafter,
      length_flatMap_groupBytes, hgap]
    rw [if_neg (by omega), ← flatMap_groupBytes_replicate, ← List.flatMap_append,
      ← List.flatMap_append, ← heq, hbytes]
    exact Octets.ofList?_toList b

end IpAddress

end Saboteur
