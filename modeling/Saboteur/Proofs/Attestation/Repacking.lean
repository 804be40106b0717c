import Saboteur.Proofs.Attestation.NormalForm

/-!
# Packing a packed list

A list in normal form gives packing nothing to drop and nothing to merge: every stage only puts it in
another order, group by group, and the last stage has to find the old order again. Of two
attestations that this stage may put either way round, the one whose data have the smaller root came
first, since groups come by their roots and sorting is stable. Two of the same root come as they came
before, by the stability of every stage.

So a list that is packed once more does not change, whatever was cut off it.
-/

namespace Saboteur

/-! ## Stable sorting -/

section

variable {α : Type}

/-- Of two items of a list without repetition one comes first. -/
theorem not_sublist_swap {l : List α} (h : l.Nodup) {a b : α} (hab : [a, b].Sublist l) :
    ¬ [b, a].Sublist l := by
  induction l with
  | nil => exact absurd hab (by simp)
  | cons x l ih =>
    obtain ⟨hx, hl⟩ := List.nodup_cons.1 h
    intro hba
    -- an item that is matched with the head is not met again
    cases hab with
    | cons _ hab =>
      cases hba with
      | cons _ hba => exact ih hl hab hba
      | cons_cons _ _ => exact hx (hab.subset (by simp))
    | cons_cons _ hab =>
      cases hba with
      | cons _ hba => exact hx (hba.subset (by simp))
      | cons_cons _ hba => exact hx (hab.subset (by simp))

variable {le : α → α → Bool}

/-- Sorting leaves the items that tie with a given one in their order. -/
theorem filter_mergeSort_ties (htrans : ∀ a b c, le a b → le b c → le a c)
    (htotal : ∀ a b, le a b || le b a) (l : List α) (a : α) :
    (l.mergeSort le).filter (fun b => le a b && le b a) = l.filter fun b => le a b && le b a := by
  have hties : (l.filter fun b => le a b && le b a).Pairwise fun b c => le b c = true := by
    refine List.pairwise_of_forall_mem_list fun b hb c hc => ?_
    obtain ⟨-, hb⟩ := List.mem_filter.1 hb
    obtain ⟨-, hc⟩ := List.mem_filter.1 hc
    rw [Bool.and_eq_true] at hb hc
    exact htrans _ _ _ hb.2 hc.1
  -- the ties are a sorted part of the list, so they stay a part of it, and no others come in
  have hsub := (List.sublist_mergeSort htrans htotal hties List.filter_sublist).filter
    fun b => le a b && le b a
  simp only [List.filter_filter, Bool.and_self] at hsub
  refine (hsub.eq_of_length ?_).symm
  exact ((List.mergeSort_perm l le).filter _).length_eq.symm

/-- **Two items that tie come out of sorting in the order in which they went in.** -/
theorem pair_sublist_of_mergeSort (htrans : ∀ a b c, le a b → le b c → le a c)
    (htotal : ∀ a b, le a b || le b a) {l : List α} {a b : α}
    (h : [a, b].Sublist (l.mergeSort le)) (hba : le b a) : [a, b].Sublist l := by
  have hab : le a b = true := (List.pairwise_mergeSort htrans htotal l).forall_sublist h
  have haa : le a a = true := htrans _ _ _ hab hba
  have hpair : [a, b].filter (fun c => le a c && le c a) = [a, b] := by
    simp [haa, hab, hba]
  have hties := h.filter fun c => le a c && le c a
  rw [filter_mergeSort_ties htrans htotal, hpair] at hties
  exact hties.trans List.filter_sublist

end

namespace Attestation

/-! ## Stages with nothing to do -/

/-- A loop that puts each item at the end, given those before it, builds the list that it goes
over. -/
theorem foldl_eq_self {step : List Attestation → Attestation → List Attestation}
    {R : Attestation → Attestation → Prop}
    (hstep : ∀ {gs x}, (∀ g ∈ gs, R g x) → step gs x = gs ++ [x]) {xs : List Attestation}
    (h : xs.Pairwise R) : xs.foldl step [] = xs := by
  induction xs using List.reverseRecOn with
  | nil => rfl
  | append_singleton xs x ih =>
    obtain ⟨hxs, -, hx⟩ := List.pairwise_append.1 h
    rw [List.foldl_append, ih hxs]
    exact hstep fun g hg => hx g hg x (List.mem_singleton_self x)

theorem keepUncovered_eq_append {gs : List Attestation} {x : Attestation}
    (h : ∀ g ∈ gs, ¬x.signersWithin g = true) : keepUncovered gs x = gs ++ [x] := by
  rcases keepUncovered_cases gs x with ⟨⟨g, hg, hxg⟩, -⟩ | ⟨-, he⟩
  · exact absurd hxg (h g hg)
  · exact he

theorem absorb_eq_append {gs : List Attestation} {x : Attestation}
    (h : ∀ g ∈ gs, ¬x.signersWithin g = true ∧ ∀ z, g.aggregate x ≠ .ok z) :
    absorb gs x = gs ++ [x] := by
  rcases absorb_cases gs x with ⟨⟨g, hg, hxg⟩, -⟩ | ⟨before, g, after, z, rfl, hz, -⟩ | ⟨-, he⟩
  · exact absurd hxg (h g hg).1
  · exact absurd hz ((h g (List.mem_append_right _ (List.mem_cons_self ..))).2 z)
  · exact he

/-- Unmergeable attestations cannot be aggregated. -/
theorem Unmergeable.aggregate_ne_ok {a b : Attestation} (h : Unmergeable a b) (z : Attestation) :
    a.aggregate b ≠ .ok z := by
  intro hz
  obtain ⟨hdata, hdisjoint, ha, hb⟩ := exists_aggregate_iff.1 ⟨z, hz⟩
  exact (h hdata (signersDisjoint_iff.1 hdisjoint)).elim (fun hn => hn ha) fun hn => hn hb

section

variable {xs g : List Attestation}

/-- Where the attestations of a group are incomparable, no earlier one covers a later one, in
whatever order they come. -/
theorem pairwise_largestFirst_not_signersWithin (hg : g ∈ groups xs)
    (h : g.Pairwise Incomparable) :
    (largestFirst g).Pairwise fun a b => ¬b.signersWithin a = true := by
  refine (((largestFirst_perm g).pairwise_iff Incomparable.symm).2 h).imp_of_mem ?_
  intro a b ha hb hab
  have ha := (largestFirst_perm g).mem_iff.1 ha
  have hb := (largestFirst_perm g).mem_iff.1 hb
  exact not_signersWithin_iff.2 (hab (treeRoot_eq_of_mem_groups hg ha hb)).2

theorem dedupGroup_eq_largestFirst (hg : g ∈ groups xs) (h : g.Pairwise Incomparable) :
    dedupGroup g = largestFirst g :=
  foldl_eq_self keepUncovered_eq_append (pairwise_largestFirst_not_signersWithin hg h)

theorem aggregateGroup_eq_largestFirst (hg : g ∈ groups xs) (h : g.Pairwise Incomparable)
    (h' : g.Pairwise Unmergeable) : aggregateGroup g = largestFirst g := by
  refine foldl_eq_self absorb_eq_append ((pairwise_largestFirst_not_signersWithin hg h).and ?_)
  exact (((largestFirst_perm g).pairwise_iff Unmergeable.symm).2 h').imp
    Unmergeable.aggregate_ne_ok

theorem sublist_of_mem_groups (hg : g ∈ groups xs) : g.Sublist xs := by
  rw [groups_eq] at hg
  obtain ⟨r, -, rfl⟩ := List.mem_map.1 hg
  exact List.filter_sublist

end

/-! ## What the stages do instead -/

/-- The groups one after the other, the largest signer sets of each first. -/
def regrouped (xs : List Attestation) : List Attestation := (groups xs).flatMap largestFirst

theorem regrouped_perm (xs : List Attestation) : (regrouped xs).Perm xs := by
  refine (List.Perm.flatMap_left _ fun g _ => largestFirst_perm g).trans ?_
  rw [List.flatMap_id']
  exact flatten_groups_perm xs

theorem dedup_eq_regrouped {xs : List Attestation} (h : xs.Pairwise Incomparable) :
    dedup xs = regrouped xs :=
  List.flatMap_congr fun _ hg => dedupGroup_eq_largestFirst hg (h.sublist (sublist_of_mem_groups hg))

theorem aggregate_eq_regrouped {xs : List Attestation} (h : xs.Pairwise Incomparable)
    (h' : xs.Pairwise Unmergeable) : (groups xs).flatMap aggregateGroup = regrouped xs :=
  List.flatMap_congr fun _ hg =>
    aggregateGroup_eq_largestFirst hg (h.sublist (sublist_of_mem_groups hg))
      (h'.sublist (sublist_of_mem_groups hg))

/-- The roots ascend, and attestations of the same root change places only if the later one has more
signers. -/
theorem pairwise_regrouped (xs : List Attestation) :
    (regrouped xs).Pairwise fun a b =>
      Root.lt (treeRoot a.data) (treeRoot b.data) = true ∨
        treeRoot a.data = treeRoot b.data ∧
          (a.signerCount ≤ b.signerCount → [a, b].Sublist xs) := by
  refine pairwise_flatMap_groups (fun g hg => ?_) (fun g y hy => ?_) fun _ _ => .inl
  · refine List.pairwise_of_forall_sublist fun {a b} hab => .inr ⟨?_, fun hle => ?_⟩
    · have ha : a ∈ g := (largestFirst_perm g).mem_iff.1 (hab.subset (by simp))
      have hb : b ∈ g := (largestFirst_perm g).mem_iff.1 (hab.subset (by simp))
      exact treeRoot_eq_of_mem_groups hg ha hb
    · have hpair := pair_sublist_of_mergeSort signerCount_le_trans signerCount_le_total hab
        (decide_eq_true hle)
      exact hpair.trans (sublist_of_mem_groups hg)
  · exact ⟨y, (largestFirst_perm g).mem_iff.1 hy, rfl⟩

/-! ## The order of a packed list -/

/-- Of attestations that may stand either way round, the first is the one whose data have the
smaller root. -/
def TiesByRoot (a b : Attestation) : Prop :=
  Precedes b a →
    Root.lt (treeRoot a.data) (treeRoot b.data) = true ∨ treeRoot a.data = treeRoot b.data

theorem pairwise_dedup_roots (xs : List Attestation) :
    (dedup xs).Pairwise fun a b =>
      Root.lt (treeRoot a.data) (treeRoot b.data) = true ∨ treeRoot a.data = treeRoot b.data := by
  refine pairwise_flatMap_groups (fun g hg => ?_) (fun _ _ => exists_data_eq_of_mem_dedupGroup)
    fun _ _ => .inl
  have hsub := (dedupGroup_subperm g).subset
  exact List.pairwise_of_forall_mem_list fun a ha b hb =>
    .inr (treeRoot_eq_of_mem_groups hg (hsub ha) (hsub hb))

theorem pairwise_packAll_tiesByRoot (xs : List Attestation) :
    (packAll xs).Pairwise TiesByRoot := by
  refine List.pairwise_of_forall_sublist fun hab hba => ?_
  exact (pairwise_dedup_roots _).forall_sublist
    (pair_sublist_of_mergeSort packsBefore_trans packsBefore_total hab (packsBefore_iff.2 hba))

theorem signerCount_le_of_precedes {a b : Attestation} (hab : Precedes a b) (hba : Precedes b a) :
    a.signerCount ≤ b.signerCount := by
  rcases hba with hlt | ⟨-, hle⟩
  · rcases hab with hlt' | ⟨heq, -⟩
    · exact absurd hlt (Nat.lt_asymm hlt')
    · rw [heq] at hlt
      exact absurd hlt (Nat.lt_irrefl _)
  · exact hle

theorem nodup_of_incomparable {ys : List Attestation} (h : ys.Pairwise Incomparable) :
    ys.Nodup := by
  refine h.imp fun {a b} hab he => ?_
  subst he
  obtain ⟨⟨i, hi, hn⟩, -⟩ := hab rfl
  rw [hi] at hn
  cases hn

/-- The first attestation has its place before the second in a list that is in order: by the order
of packed lists, then by the root, then as the two stand in `ys`. -/
def Placed (ys : List Attestation) (a b : Attestation) : Prop :=
  Precedes a b ∧
    (Precedes b a →
      Root.lt (treeRoot a.data) (treeRoot b.data) = true ∨
        treeRoot a.data = treeRoot b.data ∧ [a, b].Sublist ys)

theorem Placed.asymm {ys : List Attestation} (h : ys.Nodup) {a b : Attestation}
    (hab : Placed ys a b) : ¬ Placed ys b a := by
  intro hba
  rcases hab.2 hba.1 with hlt | ⟨heq, hsub⟩
  · rcases hba.2 hab.1 with hlt' | ⟨heq', -⟩
    · exact ne_of_rootLt (bytesLt_trans hlt hlt') rfl
    · exact ne_of_rootLt hlt heq'.symm
  · rcases hba.2 hab.1 with hlt' | ⟨-, hsub'⟩
    · exact ne_of_rootLt hlt' heq.symm
    · exact not_sublist_swap h hsub hsub'

theorem pairwise_placed {ys : List Attestation} (h : ys.Pairwise Precedes)
    (hties : ys.Pairwise TiesByRoot) : ys.Pairwise (Placed ys) := by
  refine List.pairwise_of_forall_sublist fun hab => ⟨h.forall_sublist hab, fun hba => ?_⟩
  exact (hties.forall_sublist hab hba).imp_right fun heq => ⟨heq, hab⟩

/-- Regrouping any number of times and sorting at the end keeps the places. -/
theorem pairwise_placed_mergeSort_regrouped (ys : List Attestation) :
    ((regrouped (regrouped (regrouped ys))).mergeSort packsBefore).Pairwise (Placed ys) := by
  refine List.pairwise_of_forall_sublist fun {a b} hab => ?_
  have hprecedes : Precedes a b := packsBefore_iff.1
    ((List.pairwise_mergeSort packsBefore_trans packsBefore_total _).forall_sublist hab)
  refine ⟨hprecedes, fun hba => ?_⟩
  have hle := signerCount_le_of_precedes hprecedes hba
  have hthird := pair_sublist_of_mergeSort packsBefore_trans packsBefore_total hab
    (packsBefore_iff.2 hba)
  rcases (pairwise_regrouped _).forall_sublist hthird with hlt | ⟨heq, hsecond⟩
  · exact .inl hlt
  · rcases (pairwise_regrouped _).forall_sublist (hsecond hle) with hlt | ⟨-, hfirst⟩
    · exact .inl hlt
    · exact ((pairwise_regrouped _).forall_sublist (hfirst hle)).imp_right
        fun h => ⟨h.1, h.2 hle⟩

/-! ## Packing again -/

/-- **Packing leaves a list in normal form as it is, if its ties are in the order of the roots.** -/
theorem pack_eq_self {max : Nat} {ys : List Attestation} (h : InNormalForm max ys)
    (hties : ys.Pairwise TiesByRoot) : pack ys max = ys := by
  have hperm := regrouped_perm ys
  have hperm' := (regrouped_perm (regrouped ys)).trans hperm
  have hperm'' := (regrouped_perm (regrouped (regrouped ys))).trans hperm'
  have hincomparable {zs : List Attestation} (hzs : zs.Perm ys) : zs.Pairwise Incomparable :=
    (hzs.pairwise_iff Incomparable.symm).2 h.incomparable
  have hall : packAll ys = ys := by
    rw [packAll, dedup_eq_regrouped h.incomparable,
      aggregate_eq_regrouped (hincomparable hperm)
        ((hperm.pairwise_iff Unmergeable.symm).2 h.unmergeable),
      dedup_eq_regrouped (hincomparable hperm')]
    refine ((List.mergeSort_perm _ _).trans hperm'').eq_of_pairwise ?_
      (pairwise_placed_mergeSort_regrouped ys) (pairwise_placed h.ordered hties)
    intro a b _ _ hab hba
    exact absurd hba (hab.asymm (nodup_of_incomparable h.incomparable))
  rw [pack, hall]
  exact List.take_of_length_le h.length_le

/-- **Packing a packed list again changes nothing.** -/
theorem pack_pack (xs : List Attestation) (max : Nat) : pack (pack xs max) max = pack xs max :=
  pack_eq_self (pack_inNormalForm xs max)
    ((pairwise_packAll_tiesByRoot xs).sublist (List.take_sublist _ _))

end Attestation

end Saboteur
