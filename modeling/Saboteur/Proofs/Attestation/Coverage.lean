import Mathlib.Data.List.Induction
import Saboteur.Proofs.Attestation.Provenance

/-!
# Packing loses no signer

An attestation that packing drops is covered by one that stays, and one that is merged is covered by
the aggregate. What covers it may be merged or dropped later in its turn, so the property that is
carried through the stages is `Covers`, which composes. Only the cut at the end can lose signers.
-/

namespace Saboteur.Attestation

/-! ## Covering -/

/-- Every attestation of `xs` has its signers within one attestation of `ys`. -/
def Covers (ys xs : List Attestation) : Prop :=
  ∀ x ∈ xs, ∃ y ∈ ys, x.signersWithin y = true

theorem signersWithin_refl (x : Attestation) : x.signersWithin x = true :=
  signersWithin_iff.2 fun _ h => h

theorem signersWithin_trans {x y z : Attestation} (h : x.signersWithin y = true)
    (h' : y.signersWithin z = true) : x.signersWithin z = true :=
  signersWithin_iff.2 fun i hi => signersWithin_iff.1 h' i (signersWithin_iff.1 h i hi)

theorem Covers.of_subset {xs ys : List Attestation} (h : xs ⊆ ys) : Covers ys xs :=
  fun x hx => ⟨x, h hx, signersWithin_refl x⟩

theorem Covers.trans {xs ys zs : List Attestation} (h : Covers ys xs) (h' : Covers zs ys) :
    Covers zs xs := by
  intro x hx
  obtain ⟨y, hy, hxy⟩ := h x hx
  obtain ⟨z, hz, hyz⟩ := h' y hy
  exact ⟨z, hz, signersWithin_trans hxy hyz⟩

theorem Covers.append {xs xs' ys : List Attestation} (h : Covers ys xs) (h' : Covers ys xs') :
    Covers ys (xs ++ xs') := by
  intro x hx
  rcases List.mem_append.1 hx with hx | hx
  · exact h x hx
  · exact h' x hx

/-- One attestation more is covered when one that is there covers it. -/
theorem Covers.concat {gs : List Attestation} {x : Attestation}
    (h : ∃ g ∈ gs, x.signersWithin g = true) : Covers gs (gs ++ [x]) := by
  refine Covers.append (Covers.of_subset (List.Subset.refl _)) fun y hy => ?_
  rw [List.mem_singleton.1 hy]
  exact h

/-- A loop covers what it has taken in when each step covers what was there and what came in. -/
theorem covers_foldl {step : List Attestation → Attestation → List Attestation}
    (hstep : ∀ gs x, Covers (step gs x) (gs ++ [x])) (xs : List Attestation) :
    Covers (xs.foldl step []) xs := by
  induction xs using List.reverseRecOn with
  | nil => exact Covers.of_subset (List.Subset.refl _)
  | append_singleton xs x ih =>
    rw [List.foldl_append]
    have hgrown := hstep (xs.foldl step []) x
    refine Covers.append (ih.trans fun y hy => hgrown y (List.mem_append_left _ hy)) ?_
    exact fun y hy => hgrown y (List.mem_append_right _ hy)

/-! ## The steps -/

theorem covers_keepUncovered (kept : List Attestation) (x : Attestation) :
    Covers (keepUncovered kept x) (kept ++ [x]) := by
  rcases keepUncovered_cases kept x with ⟨hcovered, he⟩ | ⟨-, he⟩
  · rw [he]
    exact Covers.concat hcovered
  · rw [he]
    exact Covers.of_subset (List.Subset.refl _)

/-- Both attestations of a merge have their signers in the result. -/
theorem signersWithin_aggregate {a b z : Attestation} (h : a.aggregate b = .ok z) :
    a.signersWithin z = true ∧ b.signersWithin z = true := by
  obtain ⟨-, -, s, -, rfl⟩ := aggregate_eq_ok_iff.1 h
  refine ⟨signersWithin_iff.2 fun i hi => ?_, signersWithin_iff.2 fun i hi => ?_⟩
  · show (a.aggregationBits.union b.aggregationBits).get i = true
    rw [BitList.get_union, hi, Bool.true_or]
  · show (a.aggregationBits.union b.aggregationBits).get i = true
    rw [BitList.get_union, hi, Bool.or_true]

theorem covers_absorb (gs : List Attestation) (x : Attestation) :
    Covers (absorb gs x) (gs ++ [x]) := by
  rcases absorb_cases gs x with ⟨hcovered, he⟩ | ⟨before, g, after, z, rfl, hz, he⟩ | ⟨-, he⟩
  · rw [he]
    exact Covers.concat hcovered
  · rw [he]
    -- the aggregate that grew stands in for itself and for the one merged in
    obtain ⟨hgz, hxz⟩ := signersWithin_aggregate hz
    have hmem : z ∈ before ++ z :: after := List.mem_append_right _ (List.mem_cons_self ..)
    intro y hy
    simp only [List.mem_append, List.mem_cons, List.not_mem_nil, or_false] at hy
    rcases hy with (hy | rfl | hy) | rfl
    · exact ⟨y, List.mem_append_left _ hy, signersWithin_refl y⟩
    · exact ⟨z, hmem, hgz⟩
    · exact ⟨y, List.mem_append_right _ (List.mem_cons_of_mem _ hy), signersWithin_refl y⟩
    · exact ⟨z, hmem, hxz⟩
  · rw [he]
    exact Covers.of_subset (List.Subset.refl _)

theorem covers_dedupGroup (group : List Attestation) : Covers (dedupGroup group) group :=
  (Covers.of_subset (largestFirst_perm group).symm.subset).trans
    (covers_foldl covers_keepUncovered _)

theorem covers_aggregateGroup (group : List Attestation) : Covers (aggregateGroup group) group :=
  (Covers.of_subset (largestFirst_perm group).symm.subset).trans (covers_foldl covers_absorb _)

/-! ## The stages -/

/-- Every attestation of `xs` has its signers within one attestation of `ys` whose data have the
same root. -/
def KeepsSigners (ys xs : List Attestation) : Prop :=
  ∀ x ∈ xs, ∃ y ∈ ys, treeRoot y.data = treeRoot x.data ∧ x.signersWithin y = true

theorem KeepsSigners.trans {xs ys zs : List Attestation} (h : KeepsSigners ys xs)
    (h' : KeepsSigners zs ys) : KeepsSigners zs xs := by
  intro x hx
  obtain ⟨y, hy, hroot, hxy⟩ := h x hx
  obtain ⟨z, hz, hroot', hyz⟩ := h' y hy
  exact ⟨z, hz, hroot'.trans hroot, signersWithin_trans hxy hyz⟩

/-- A stage works group by group. It keeps the signers when it covers each group and takes the data
of its results from the group. -/
theorem keepsSigners_groups {f : List Attestation → List Attestation}
    (hcovers : ∀ g, Covers (f g) g) (hdata : ∀ g, ∀ y ∈ f g, ∃ x ∈ g, y.data = x.data)
    (xs : List Attestation) : KeepsSigners ((groups xs).flatMap f) xs := by
  intro x hx
  obtain ⟨g, hg, hxg⟩ := exists_group hx
  obtain ⟨y, hy, hxy⟩ := hcovers g x hxg
  obtain ⟨w, hw, hyw⟩ := hdata g y hy
  refine ⟨y, List.mem_flatMap.2 ⟨g, hg, hy⟩, ?_, hxy⟩
  rw [hyw]
  exact treeRoot_eq_of_mem_groups hg hw hxg

theorem exists_data_eq_of_mem_dedupGroup {g : List Attestation} {y : Attestation}
    (hy : y ∈ dedupGroup g) : ∃ x ∈ g, y.data = x.data :=
  ⟨y, (dedupGroup_subperm g).subset hy, rfl⟩

theorem keepsSigners_dedup (xs : List Attestation) : KeepsSigners (dedup xs) xs :=
  keepsSigners_groups covers_dedupGroup (fun _ _ => exists_data_eq_of_mem_dedupGroup) xs

/-- An assembled attestation has the data of one it is assembled from. -/
theorem Assembled.exists_data_eq {xs ys : List Attestation} (h : Assembled xs ys)
    {y : Attestation} (hy : y ∈ ys) : ∃ x ∈ xs, y.data = x.data := by
  obtain ⟨parts, hparts, hsub⟩ := h.of_sublist_right (List.singleton_sublist.2 hy)
  obtain ⟨p, rest, hp, -, rfl⟩ := List.forall₂_cons_right_iff.1 hparts
  obtain ⟨x, hx⟩ := List.exists_mem_of_ne_nil p hp.nonempty
  exact ⟨x, hsub.subset (List.mem_append_left _ hx), (hp.data x hx).symm⟩

theorem keepsSigners_aggregate (xs : List Attestation) :
    KeepsSigners ((groups xs).flatMap aggregateGroup) xs :=
  keepsSigners_groups covers_aggregateGroup
    (fun g _ hy => (assembled_aggregateGroup g).exists_data_eq hy) xs

theorem keepsSigners_packAll (xs : List Attestation) : KeepsSigners (packAll xs) xs := by
  have h := ((keepsSigners_dedup xs).trans (keepsSigners_aggregate _)).trans
    (keepsSigners_dedup _)
  intro x hx
  obtain ⟨y, hy, hxy⟩ := h x hx
  exact ⟨y, (List.mergeSort_perm _ _).mem_iff.2 hy, hxy⟩

/-! ## The packed list -/

/-- Nothing is cut off when the given list has room, or when room is left. -/
theorem pack_eq_packAll {xs : List Attestation} {max : Nat}
    (h : xs.length ≤ max ∨ (pack xs max).length < max) : pack xs max = packAll xs := by
  refine List.take_of_length_le ?_
  rcases h with h | h
  · exact (assembled_packAll xs).length_le.trans h
  · unfold pack at h
    rw [List.length_take] at h
    omega

/-- **Unless the list is cut, the signers of each attestation stay together in one of the same
data.** -/
theorem exists_mem_pack_signers {xs : List Attestation} {max : Nat}
    (h : xs.length ≤ max ∨ (pack xs max).length < max) :
    ∀ x ∈ xs, ∃ y ∈ pack xs max, treeRoot y.data = treeRoot x.data ∧
      ∀ i, x.aggregationBits.get i = true → y.aggregationBits.get i = true := by
  intro x hx
  rw [pack_eq_packAll h]
  obtain ⟨y, hy, hroot, hxy⟩ := keepsSigners_packAll xs x hx
  exact ⟨y, hy, hroot, signersWithin_iff.1 hxy⟩

/-- Two votes for the same block by different signers. -/
def twoVotes : List Attestation :=
  [{ aggregationBits := ⟨[true, false], by decide⟩, data := .vote ⟨9⟩ 0 Root.zero,
     signature := .infinity },
   { aggregationBits := ⟨[false, true, true], by decide⟩, data := .vote ⟨9⟩ 0 Root.zero,
     signature := .infinity }]

theorem exists_mem_pack_signers_twoVotes :
    (twoVotes.length ≤ 2 ∨ (pack twoVotes 2).length < 2) ∧
      ∀ x ∈ twoVotes, ∃ y ∈ pack twoVotes 2, treeRoot y.data = treeRoot x.data ∧
        ∀ i, x.aggregationBits.get i = true → y.aggregationBits.get i = true :=
  ⟨.inl (by decide), exists_mem_pack_signers (.inl (by decide))⟩

end Saboteur.Attestation
