import Saboteur.Proofs.Attestation.Coverage

/-!
# The normal form of packed lists

A packed list is cut to its room and ordered, and nothing in it is superfluous: of attestations of
the same data neither covers the other, and disjoint ones are left side by side only for want of a
signature that can be decompressed.

What is decided when an attestation is taken in has to hold at the end, after other aggregates have
grown. Two facts carry it there. An aggregate only gains signers, so what overlaps it keeps doing so.
And an aggregate that grows has a readable signature, so one that could not be merged because of its
signature never grows.
-/

namespace Saboteur.Attestation

/-! ## Two attestations of a packed list -/

/-- The first attestation may stand before the second: later slots come first, and of one slot the
larger signer sets. -/
def Precedes (a b : Attestation) : Prop :=
  b.slot < a.slot ∨ b.slot = a.slot ∧ b.signerCount ≤ a.signerCount

/-- If the data have the same root, each of the two has a signer that the other lacks. -/
def Incomparable (a b : Attestation) : Prop :=
  treeRoot a.data = treeRoot b.data →
    (∃ i, a.aggregationBits.get i = true ∧ b.aggregationBits.get i = false) ∧
      ∃ i, b.aggregationBits.get i = true ∧ a.aggregationBits.get i = false

/-- If the data are the same and no signer is common, one of the two signatures cannot be
decompressed. -/
def Unmergeable (a b : Attestation) : Prop :=
  a.data = b.data →
    (∀ i, a.aggregationBits.get i = true → b.aggregationBits.get i = false) →
      ¬a.signature.Readable ∨ ¬b.signature.Readable

/-- A list to which packing has nothing to add. -/
structure InNormalForm (max : Nat) (ys : List Attestation) : Prop where
  length_le : ys.length ≤ max
  ordered : ys.Pairwise Precedes
  incomparable : ys.Pairwise Incomparable
  unmergeable : ys.Pairwise Unmergeable

theorem not_signersWithin_iff {a b : Attestation} :
    ¬a.signersWithin b = true ↔
      ∃ i, a.aggregationBits.get i = true ∧ b.aggregationBits.get i = false := by
  rw [signersWithin_iff]
  simp

theorem Incomparable.symm {a b : Attestation} (h : Incomparable a b) : Incomparable b a :=
  fun hroot => (h hroot.symm).symm

theorem Unmergeable.symm {a b : Attestation} (h : Unmergeable a b) : Unmergeable b a := by
  intro hdata hdisjoint
  refine (h hdata.symm fun i hi => ?_).symm
  -- a common signer would be a signer of `b` that `a` has
  by_contra hb
  rw [hdisjoint i (by simpa using hb)] at hi
  cases hi

/-- Not covering goes both ways when the attestation that does not cover is the smaller one. -/
theorem incomparable_of_not_signersWithin {a b : Attestation}
    (hcount : b.signerCount ≤ a.signerCount) (h : ¬b.signersWithin a = true) :
    Incomparable a b := by
  refine fun _ => ⟨not_signersWithin_iff.1 fun hab => h ?_, not_signersWithin_iff.1 h⟩
  exact BitList.subset_of_count_le hab hcount

/-- Attestations that cannot be aggregated are unmergeable. -/
theorem unmergeable_of_aggregate_ne_ok {a b : Attestation} (h : ∀ z, a.aggregate b ≠ .ok z) :
    Unmergeable a b := by
  intro hdata hdisjoint
  by_contra hreadable
  obtain ⟨ha, hb⟩ := not_or.1 hreadable
  obtain ⟨z, hz⟩ := exists_aggregate_iff.2
    ⟨hdata, signersDisjoint_iff.2 hdisjoint, not_not.1 ha, not_not.1 hb⟩
  exact h z hz

/-- **What is unmergeable with an attestation stays so when that one grows.** -/
theorem Unmergeable.aggregate {a b x z : Attestation} (h : Unmergeable a b)
    (hz : b.aggregate x = .ok z) : Unmergeable a z := by
  intro hdata hdisjoint
  obtain ⟨-, -, hb, -⟩ := exists_aggregate_iff.1 ⟨z, hz⟩
  have hbz : z.data = b.data := by
    obtain ⟨-, -, s, -, rfl⟩ := aggregate_eq_ok_iff.1 hz
    rfl
  have hwithin := signersWithin_iff.1 (signersWithin_aggregate hz).1
  have hdisjoint' : ∀ i, a.aggregationBits.get i = true → b.aggregationBits.get i = false := by
    intro i hi
    by_contra hbi
    have hzi := hwithin i (by simpa using hbi)
    rw [hdisjoint i hi] at hzi
    cases hzi
  -- the signature of `b` could be decompressed, or it would not have grown
  exact .inl ((h (hdata.trans hbz) hdisjoint').resolve_right fun hn => hn hb)

/-! ## The steps -/

/-- Of what is kept, nothing is covered by what was kept earlier. -/
theorem pairwise_foldl_keepUncovered (xs : List Attestation) :
    (xs.foldl keepUncovered []).Pairwise fun a b => ¬b.signersWithin a = true := by
  induction xs using List.reverseRecOn with
  | nil => exact List.Pairwise.nil
  | append_singleton xs x ih =>
    rw [List.foldl_append, List.foldl_cons, List.foldl_nil]
    rcases keepUncovered_cases (xs.foldl keepUncovered []) x with ⟨-, he⟩ | ⟨huncovered, he⟩
    · rwa [he]
    · rw [he]
      refine List.pairwise_append.2 ⟨ih, List.pairwise_singleton _ _, fun a ha b hb => ?_⟩
      rw [List.mem_singleton.1 hb]
      exact huncovered a ha

theorem signerCount_le_trans (a b c : Attestation) (hab : decide (b.signerCount ≤ a.signerCount) = true)
    (hbc : decide (c.signerCount ≤ b.signerCount) = true) :
    decide (c.signerCount ≤ a.signerCount) = true := by
  rw [decide_eq_true_eq] at *
  exact hbc.trans hab

theorem signerCount_le_total (a b : Attestation) :
    (decide (b.signerCount ≤ a.signerCount) || decide (a.signerCount ≤ b.signerCount)) = true := by
  rw [Bool.or_eq_true, decide_eq_true_eq, decide_eq_true_eq]
  exact Nat.le_total _ _

theorem pairwise_largestFirst (xs : List Attestation) :
    (largestFirst xs).Pairwise fun a b => b.signerCount ≤ a.signerCount :=
  (List.pairwise_mergeSort signerCount_le_trans signerCount_le_total _).imp of_decide_eq_true

theorem pairwise_dedupGroup (group : List Attestation) :
    (dedupGroup group).Pairwise Incomparable := by
  have hcount := (pairwise_largestFirst group).sublist (foldl_keepUncovered_sublist _)
  exact hcount.imp₂ (fun _ _ => incomparable_of_not_signersWithin) (pairwise_foldl_keepUncovered _)

theorem pairwise_absorb {gs : List Attestation} (h : gs.Pairwise Unmergeable) (x : Attestation) :
    (absorb gs x).Pairwise Unmergeable := by
  rcases absorb_cases gs x with ⟨-, he⟩ | ⟨before, g, after, z, rfl, hz, he⟩ | ⟨hfails, he⟩
  · rwa [he]
  · rw [he]
    -- the aggregate that grew stands where it stood, so only its pairs are looked at again
    obtain ⟨hbefore, hrest, hacross⟩ := List.pairwise_append.1 h
    obtain ⟨hg, hafter⟩ := List.pairwise_cons.1 hrest
    refine List.pairwise_append.2 ⟨hbefore, List.pairwise_cons.2 ⟨?after, hafter⟩, ?before⟩
    case after =>
      intro b hb
      exact ((hg b hb).symm.aggregate hz).symm
    case before =>
      intro a ha b hb
      rcases List.mem_cons.1 hb with rfl | hb
      · exact (hacross a ha g (List.mem_cons_self ..)).aggregate hz
      · exact hacross a ha b (List.mem_cons_of_mem _ hb)
  · rw [he]
    refine List.pairwise_append.2 ⟨h, List.pairwise_singleton _ _, fun a ha b hb => ?_⟩
    rw [List.mem_singleton.1 hb]
    exact unmergeable_of_aggregate_ne_ok (hfails a ha)

theorem pairwise_aggregateGroup (group : List Attestation) :
    (aggregateGroup group).Pairwise Unmergeable := by
  unfold aggregateGroup
  generalize largestFirst group = xs
  induction xs using List.reverseRecOn with
  | nil => exact List.Pairwise.nil
  | append_singleton xs x ih =>
    rw [List.foldl_append]
    exact pairwise_absorb ih x

/-! ## The stages -/

/-- Groups come in the order of their roots. -/
theorem pairwise_groups (xs : List Attestation) :
    (groups xs).Pairwise fun g h =>
      ∀ x ∈ g, ∀ y ∈ h, Root.lt (treeRoot x.data) (treeRoot y.data) = true := by
  rw [groups_eq, List.pairwise_map]
  refine (pairwise_distinctRoots _).imp fun hlt x hx y hy => ?_
  rw [of_decide_eq_true (List.mem_filter.1 hx).2, of_decide_eq_true (List.mem_filter.1 hy).2]
  exact hlt

/-- A stage that takes the data of its results from the group brings about for all pairs what it
brings about within each group, if that is so of data whose roots ascend. -/
theorem pairwise_flatMap_groups {R : Attestation → Attestation → Prop}
    {f : List Attestation → List Attestation} {xs : List Attestation}
    (hf : ∀ g ∈ groups xs, (f g).Pairwise R)
    (hdata : ∀ g, ∀ y ∈ f g, ∃ x ∈ g, y.data = x.data)
    (hroot : ∀ a b : Attestation, Root.lt (treeRoot a.data) (treeRoot b.data) = true → R a b) :
    ((groups xs).flatMap f).Pairwise R := by
  refine List.pairwise_flatMap.2 ⟨hf, (pairwise_groups xs).imp fun hlt a ha b hb => ?_⟩
  obtain ⟨x, hx, hax⟩ := hdata _ a ha
  obtain ⟨y, hy, hby⟩ := hdata _ b hb
  refine hroot a b ?_
  rw [hax, hby]
  exact hlt x hx y hy

theorem pairwise_dedup (xs : List Attestation) : (dedup xs).Pairwise Incomparable :=
  pairwise_flatMap_groups (fun g _ => pairwise_dedupGroup g)
    (fun _ _ => exists_data_eq_of_mem_dedupGroup)
    fun _ _ hlt he => absurd he (ne_of_rootLt hlt)

theorem pairwise_flatMap_aggregateGroup (xs : List Attestation) :
    ((groups xs).flatMap aggregateGroup).Pairwise Unmergeable :=
  pairwise_flatMap_groups (fun g _ => pairwise_aggregateGroup g)
    (fun g _ hy => (assembled_aggregateGroup g).exists_data_eq hy)
    fun _ _ hlt he => absurd (congrArg treeRoot he) (ne_of_rootLt hlt)

/-- A selection from a list inherits what all pairs of the list satisfy in both orders. -/
theorem pairwise_of_subperm {R : Attestation → Attestation → Prop} (hR : ∀ {a b}, R a b → R b a)
    {xs ys : List Attestation} (h : xs.Pairwise R) (hsub : ys.Subperm xs) : ys.Pairwise R := by
  obtain ⟨zs, hperm, hzs⟩ := hsub
  exact (hperm.pairwise_iff hR).1 (h.sublist hzs)

/-! ## The packed list -/

theorem packsBefore_iff {a b : Attestation} : packsBefore a b = true ↔ Precedes a b := by
  simp [packsBefore, Precedes]

theorem packsBefore_trans (a b c : Attestation) (hab : packsBefore a b = true)
    (hbc : packsBefore b c = true) : packsBefore a c = true := by
  rw [packsBefore_iff] at *
  rcases hab with hab | ⟨hab, hab'⟩ <;> rcases hbc with hbc | ⟨hbc, hbc'⟩
  · exact .inl (Nat.lt_trans hbc hab)
  · exact .inl (hbc ▸ hab)
  · exact .inl (hab ▸ hbc)
  · exact .inr ⟨hbc.trans hab, hbc'.trans hab'⟩

theorem packsBefore_total (a b : Attestation) : (packsBefore a b || packsBefore b a) = true := by
  rw [Bool.or_eq_true, packsBefore_iff, packsBefore_iff]
  rcases Nat.lt_trichotomy a.slot.toNat b.slot.toNat with h | h | h
  · exact .inr (.inl h)
  · have hslot := Slot.ext_toNat h
    exact (Nat.le_total b.signerCount a.signerCount).imp (fun hc => .inr ⟨hslot.symm, hc⟩)
      fun hc => .inr ⟨hslot, hc⟩
  · exact .inl (.inl h)

theorem pairwise_packAll_precedes (xs : List Attestation) : (packAll xs).Pairwise Precedes :=
  (List.pairwise_mergeSort packsBefore_trans packsBefore_total _).imp packsBefore_iff.1

theorem packed_subperm (xs : List Attestation) (max : Nat) :
    (pack xs max).Subperm (dedup ((groups (dedup xs)).flatMap aggregateGroup)) :=
  (List.take_sublist _ _).subperm.trans (List.mergeSort_perm _ _).subperm

/-- **Every packed list is in normal form.** -/
theorem pack_inNormalForm (xs : List Attestation) (max : Nat) : InNormalForm max (pack xs max) where
  length_le := List.length_take_le _ _
  ordered := (pairwise_packAll_precedes xs).sublist (List.take_sublist _ _)
  incomparable := pairwise_of_subperm Incomparable.symm (pairwise_dedup _) (packed_subperm xs max)
  unmergeable :=
    pairwise_of_subperm Unmergeable.symm (pairwise_flatMap_aggregateGroup _)
      ((packed_subperm xs max).trans (dedup_subperm _))

end Saboteur.Attestation
