import Mathlib.Data.List.Perm.Basic
import Saboteur.Attestation.Packing

/-!
# Groups of equal data

Grouping by the root of the data is a rearrangement: every attestation lands in the group of its
root, and in no other, since the roots of the groups are strictly ascending.
-/

namespace Saboteur

/-! ## The order of byte strings -/

theorem bytesLt_irrefl (as : List UInt8) : bytesLt as as = false := by
  induction as with
  | nil => rfl
  | cons a as ih => simpa [bytesLt] using ih

theorem bytesLt_trans {as bs cs : List UInt8} (h : bytesLt as bs = true)
    (h' : bytesLt bs cs = true) : bytesLt as cs = true := by
  induction as generalizing bs cs with
  | nil => cases bs <;> cases cs <;> simp_all [bytesLt]
  | cons a as ih =>
    cases bs with
    | nil => simp [bytesLt] at h
    | cons b bs =>
      cases cs with
      | nil => simp [bytesLt] at h'
      | cons c cs =>
        simp only [bytesLt] at h h' ⊢
        -- the first bytes decide, unless both pairs agree on them
        by_cases hab : a = b <;> by_cases hbc : b = c
        · subst hab hbc
          simp only [↓reduceIte] at h h' ⊢
          exact ih h h'
        · subst hab
          simpa [hbc] using h'
        · subst hbc
          simpa [hab] using h
        · have hac : a ≠ c := by
            rintro rfl
            simp only [if_neg hab, if_neg hbc, decide_eq_true_eq] at h h'
            omega
          simp only [if_neg hab, if_neg hbc, if_neg hac, decide_eq_true_eq] at h h' ⊢
          omega

/-- Of two different byte strings, one comes first. -/
theorem bytesLt_of_not_bytesLt {as bs : List UInt8} (hne : as ≠ bs)
    (h : bytesLt as bs = false) : bytesLt bs as = true := by
  induction as generalizing bs with
  | nil => cases bs <;> simp_all [bytesLt]
  | cons a as ih =>
    cases bs with
    | nil => rfl
    | cons b bs =>
      simp only [bytesLt] at h ⊢
      by_cases hab : a = b
      · subst hab
        simp only [↓reduceIte] at h ⊢
        exact ih (fun he => hne (by rw [he])) h
      · have hval : a.toNat ≠ b.toNat := fun he => hab (UInt8.toNat_inj.1 he)
        simp only [if_neg hab, if_neg (Ne.symm hab), decide_eq_false_iff_not,
          decide_eq_true_eq] at h ⊢
        omega

namespace Attestation

/-! ## Distinct roots -/

theorem mem_insertRoot {r s : Root} {rs : List Root} :
    s ∈ insertRoot r rs ↔ s = r ∨ s ∈ rs := by
  induction rs with
  | nil => simp [insertRoot]
  | cons t rs ih =>
    unfold insertRoot
    by_cases hrt : r = t
    · subst hrt
      simp
    · rw [if_neg hrt]
      split
      · exact List.mem_cons
      · rw [List.mem_cons, ih, List.mem_cons]
        tauto

theorem pairwise_insertRoot (r : Root) {rs : List Root}
    (h : rs.Pairwise fun a b => Root.lt a b = true) :
    (insertRoot r rs).Pairwise fun a b => Root.lt a b = true := by
  induction rs with
  | nil => exact List.pairwise_singleton _ _
  | cons t rs ih =>
    obtain ⟨ht, hrs⟩ := List.pairwise_cons.1 h
    unfold insertRoot
    by_cases hrt : r = t
    · rwa [if_pos hrt]
    · rw [if_neg hrt]
      split
      case isTrue hlt =>
        -- what comes after `t` comes after `r` too
        refine List.pairwise_cons.2 ⟨fun s hs => ?_, h⟩
        rcases List.mem_cons.1 hs with rfl | hs
        · exact hlt
        · exact bytesLt_trans hlt (ht s hs)
      case isFalse hlt =>
        refine List.pairwise_cons.2 ⟨fun s hs => ?_, ih hrs⟩
        rcases mem_insertRoot.1 hs with rfl | hs
        · exact bytesLt_of_not_bytesLt (fun he => hrt (Octets.ext_toList he))
            (Bool.eq_false_iff.2 hlt)
        · exact ht s hs

/-- Leaving out repetitions leaves out no root. -/
theorem mem_distinctRoots {r : Root} {rs : List Root} : r ∈ distinctRoots rs ↔ r ∈ rs := by
  induction rs with
  | nil => rfl
  | cons s rs ih =>
    show r ∈ insertRoot s (distinctRoots rs) ↔ r ∈ s :: rs
    rw [mem_insertRoot, ih, List.mem_cons]

/-- Distinct roots come in ascending order. -/
theorem pairwise_distinctRoots (rs : List Root) :
    (distinctRoots rs).Pairwise fun a b => Root.lt a b = true := by
  induction rs with
  | nil => exact List.Pairwise.nil
  | cons s rs ih => exact pairwise_insertRoot s ih

theorem ne_of_rootLt {r s : Root} (h : Root.lt r s = true) : r ≠ s := by
  rintro rfl
  rw [Root.lt, bytesLt_irrefl] at h
  cases h

theorem nodup_distinctRoots (rs : List Root) : (distinctRoots rs).Nodup :=
  (pairwise_distinctRoots rs).imp ne_of_rootLt

/-! ## Groups -/

/-- A group holds the attestations whose data have its root. -/
theorem groups_eq (xs : List Attestation) :
    groups xs = (distinctRoots (xs.map fun x => treeRoot x.data)).map fun r =>
      xs.filter fun x => treeRoot x.data = r := by
  simp [groups, List.filter_map, Function.comp_def]

/-- Attestations of one group have the same data. -/
theorem treeRoot_eq_of_mem_groups {xs g : List Attestation} {x y : Attestation}
    (hg : g ∈ groups xs) (hx : x ∈ g) (hy : y ∈ g) : treeRoot x.data = treeRoot y.data := by
  rw [groups_eq] at hg
  obtain ⟨r, -, rfl⟩ := List.mem_map.1 hg
  have hxr : treeRoot x.data = r := of_decide_eq_true (List.mem_filter.1 hx).2
  have hyr : treeRoot y.data = r := of_decide_eq_true (List.mem_filter.1 hy).2
  rw [hxr, hyr]

/-- Lists filtered for different keys make up the items with any of the keys. -/
theorem flatten_filter_perm {α κ : Type} [DecidableEq κ] (key : α → κ) (xs : List α)
    {ks : List κ} (hks : ks.Nodup) :
    (ks.map fun k => xs.filter fun x => key x = k).flatten.Perm
      (xs.filter fun x => key x ∈ ks) := by
  induction ks with
  | nil => simp
  | cons k ks ih =>
    obtain ⟨hk, hks⟩ := List.nodup_cons.1 hks
    rw [List.map_cons, List.flatten_cons]
    refine (List.Perm.append_left _ (ih hks)).trans ?_
    -- the items with one of the keys, split by whether the key is the first one
    have hsplit := List.filter_append_perm (fun x => decide (key x = k))
      (xs.filter fun x => key x ∈ k :: ks)
    rw [List.filter_filter, List.filter_filter] at hsplit
    refine List.Perm.trans (List.Perm.of_eq ?_) hsplit
    congr 1
    · refine List.filter_congr fun x _ => ?_
      by_cases hx : key x = k <;> simp [hx]
    · refine List.filter_congr fun x _ => ?_
      by_cases hx : key x = k
      · simp [hx, hk]
      · simp [hx]

/-- **The groups together are the list in another order.** -/
theorem flatten_groups_perm (xs : List Attestation) : (groups xs).flatten.Perm xs := by
  rw [groups_eq]
  refine (flatten_filter_perm (fun x => treeRoot x.data) xs (nodup_distinctRoots _)).trans ?_
  refine List.Perm.of_eq (List.filter_eq_self.2 fun x hx => ?_)
  simpa using mem_distinctRoots.2 (List.mem_map_of_mem hx)

/-- Every attestation is in a group. -/
theorem exists_group {xs : List Attestation} {x : Attestation} (hx : x ∈ xs) :
    ∃ g ∈ groups xs, x ∈ g :=
  List.mem_flatten.1 ((flatten_groups_perm xs).mem_iff.2 hx)

theorem largestFirst_perm (xs : List Attestation) : (largestFirst xs).Perm xs :=
  List.mergeSort_perm xs _

end Attestation

end Saboteur
