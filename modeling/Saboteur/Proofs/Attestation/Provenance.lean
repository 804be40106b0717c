import Mathlib.Data.List.Flatten
import Mathlib.Data.List.Forall2
import Mathlib.Data.List.Induction
import Saboteur.Proofs.Attestation.Groups
import Saboteur.Proofs.Attestation.Merging
import Saboteur.Proofs.Positions

/-!
# Where packed attestations come from

Packing makes nothing up and uses nothing twice. A list is `Assembled` from another when every item
is merged from parts and the parts of all items together are a selection from the other list, as
multisets. Each stage of packing keeps this, so the packed list is assembled from the given one, and
a selection of multisets is turned into positions at the end.
-/

namespace Saboteur.Attestation

/-! ## Lists made of parts of another -/

/-- Every attestation of `ys` is merged from attestations of `xs`, and no position of `xs` is used
twice. -/
def Assembled (xs ys : List Attestation) : Prop :=
  ∃ parts : List (List Attestation),
    List.Forall₂ MergedFrom parts ys ∧ parts.flatten.Subperm xs

theorem Assembled.nil (xs : List Attestation) : Assembled xs [] :=
  ⟨[], List.Forall₂.nil, List.nil_subperm⟩

/-- A longer list to take parts from does no harm. -/
theorem Assembled.of_subperm_left {xs xs' ys : List Attestation} (h : Assembled xs ys)
    (hxs : xs.Subperm xs') : Assembled xs' ys := by
  obtain ⟨parts, hparts, hsub⟩ := h
  exact ⟨parts, hparts, hsub.trans hxs⟩

theorem Assembled.of_perm_right {xs ys ys' : List Attestation} (h : Assembled xs ys)
    (hys : ys'.Perm ys) : Assembled xs ys' := by
  obtain ⟨parts, hparts, hsub⟩ := h
  -- the lemma rearranges the left list, so the pairs are turned round
  have hflip : List.Forall₂ (flip MergedFrom) ys parts := hparts.flip
  obtain ⟨parts', hparts', hperm⟩ := List.perm_comp_forall₂ hys hflip
  exact ⟨parts', hparts'.flip, hperm.flatten.subperm.trans hsub⟩

/-- Pairs survive when items are left out on one side. -/
theorem exists_forall₂_of_sublist {α β : Type} {R : α → β → Prop} {as : List α} {bs bs' : List β}
    (h : List.Forall₂ R as bs) (hbs : bs'.Sublist bs) :
    ∃ as', List.Forall₂ R as' bs' ∧ as'.Sublist as := by
  induction hbs generalizing as with
  | slnil => exact ⟨[], List.Forall₂.nil, List.nil_sublist _⟩
  | cons b _ ih =>
    obtain ⟨a, rest, -, hrest, rfl⟩ := List.forall₂_cons_right_iff.1 h
    obtain ⟨as', has', hsub⟩ := ih hrest
    exact ⟨as', has', hsub.cons a⟩
  | cons_cons b _ ih =>
    obtain ⟨a, rest, ha, hrest, rfl⟩ := List.forall₂_cons_right_iff.1 h
    obtain ⟨as', has', hsub⟩ := ih hrest
    exact ⟨a :: as', has'.cons ha, hsub.cons_cons a⟩

theorem Assembled.of_sublist_right {xs ys ys' : List Attestation} (h : Assembled xs ys)
    (hys : ys'.Sublist ys) : Assembled xs ys' := by
  obtain ⟨parts, hparts, hsub⟩ := h
  obtain ⟨parts', hparts', hsub'⟩ := exists_forall₂_of_sublist hparts hys
  exact ⟨parts', hparts', hsub'.flatten.subperm.trans hsub⟩

theorem Assembled.of_subperm_right {xs ys ys' : List Attestation} (h : Assembled xs ys)
    (hys : ys'.Subperm ys) : Assembled xs ys' := by
  obtain ⟨l, hperm, hsub⟩ := hys
  exact (h.of_sublist_right hsub).of_perm_right hperm.symm

theorem Assembled.append {xs xs' ys ys' : List Attestation} (h : Assembled xs ys)
    (h' : Assembled xs' ys') : Assembled (xs ++ xs') (ys ++ ys') := by
  obtain ⟨parts, hparts, hsub⟩ := h
  obtain ⟨parts', hparts', hsub'⟩ := h'
  refine ⟨parts ++ parts', List.rel_append hparts hparts', ?_⟩
  rw [List.flatten_append]
  exact hsub.append hsub'

/-- Lists that are assembled one by one are assembled together. -/
theorem Assembled.flatMap {f : List Attestation → List Attestation}
    (hf : ∀ g, Assembled g (f g)) (gs : List (List Attestation)) :
    Assembled gs.flatten (gs.flatMap f) := by
  induction gs with
  | nil => exact Assembled.nil _
  | cons g gs ih => exact (hf g).append ih

/-- What is assembled is no longer than what it is assembled from. -/
theorem Assembled.length_le {xs ys : List Attestation} (h : Assembled xs ys) :
    ys.length ≤ xs.length := by
  obtain ⟨parts, hparts, hsub⟩ := h
  refine le_trans ?_ hsub.length_le
  clear hsub
  induction hparts with
  | nil => exact Nat.zero_le _
  | cons hp _ ih =>
    have hpos := List.length_pos_iff.2 hp.nonempty
    rw [List.length_cons, List.flatten_cons, List.length_append]
    omega

/-! ## Merging -/

/-- An attestation that is merged in becomes a part of one aggregate. -/
theorem Assembled.merge {xs before after : List Attestation} {g x z : Attestation}
    (h : Assembled xs (before ++ g :: after)) (hz : g.aggregate x = .ok z) :
    Assembled (xs ++ [x]) (before ++ z :: after) := by
  obtain ⟨parts, hparts, hsub⟩ := h
  have hbefore := List.forall₂_take_append parts before (g :: after) hparts
  have hafter := List.forall₂_drop_append parts before (g :: after) hparts
  obtain ⟨p, rest, hp, hrest, hdrop⟩ := List.forall₂_cons_right_iff.1 hafter
  -- the parts of `g` stand where `g` stands
  have hsplit : parts = parts.take before.length ++ p :: rest := by
    rw [← hdrop, List.take_append_drop]
  refine ⟨parts.take before.length ++ (p ++ [x]) :: rest,
    List.rel_append hbefore (hrest.cons (hp.aggregate hz)), ?_⟩
  rw [hsplit] at hsub
  refine List.Subperm.trans (List.Perm.subperm ?_) (hsub.append (List.Subperm.refl [x]))
  simp only [List.flatten_append, List.flatten_cons, List.append_assoc]
  exact ((List.perm_append_comm.append_left p)).append_left _

theorem Assembled.absorb {xs gs : List Attestation} (h : Assembled xs gs) (x : Attestation) :
    Assembled (xs ++ [x]) (absorb gs x) := by
  rcases absorb_cases gs x with ⟨-, he⟩ | ⟨before, g, after, z, rfl, hz, he⟩ | ⟨-, he⟩
  · rw [he]
    exact h.of_subperm_left (List.sublist_append_left _ _).subperm
  · rw [he]
    exact h.merge hz
  · rw [he]
    exact h.append ⟨[[x]], .cons (.single x) .nil, List.Subperm.refl _⟩

/-- What a group has been aggregated to so far is assembled from what was taken in. -/
theorem assembled_foldl_absorb (xs : List Attestation) :
    Assembled xs (xs.foldl Attestation.absorb []) := by
  induction xs using List.reverseRecOn with
  | nil => exact Assembled.nil _
  | append_singleton xs x ih =>
    rw [List.foldl_append]
    exact ih.absorb x

theorem assembled_aggregateGroup (group : List Attestation) :
    Assembled group (aggregateGroup group) :=
  (assembled_foldl_absorb _).of_subperm_left (largestFirst_perm group).subperm

/-! ## Dropping -/

theorem foldl_keepUncovered_sublist (xs : List Attestation) :
    (xs.foldl keepUncovered []).Sublist xs := by
  induction xs using List.reverseRecOn with
  | nil => exact List.Sublist.refl _
  | append_singleton xs x ih =>
    rw [List.foldl_append, List.foldl_cons, List.foldl_nil]
    rcases keepUncovered_cases (xs.foldl keepUncovered []) x with ⟨-, he⟩ | ⟨-, he⟩
    · rw [he]
      exact ih.trans (List.sublist_append_left _ _)
    · rw [he]
      exact ih.append_right _

theorem dedupGroup_subperm (group : List Attestation) : (dedupGroup group).Subperm group :=
  (foldl_keepUncovered_sublist _).subperm.trans (largestFirst_perm group).subperm

theorem flatMap_dedupGroup_subperm (gs : List (List Attestation)) :
    (gs.flatMap dedupGroup).Subperm gs.flatten := by
  induction gs with
  | nil => exact List.Subperm.refl _
  | cons g gs ih => exact (dedupGroup_subperm g).append ih

theorem dedup_subperm (xs : List Attestation) : (dedup xs).Subperm xs :=
  (flatMap_dedupGroup_subperm _).trans (flatten_groups_perm xs).subperm

/-! ## The packed list -/

theorem assembled_packAll (xs : List Attestation) : Assembled xs (packAll xs) := by
  have hgroups := Assembled.flatMap assembled_aggregateGroup (groups (dedup xs))
  have hfrom : (groups (dedup xs)).flatten.Subperm xs :=
    (flatten_groups_perm _).subperm.trans (dedup_subperm xs)
  exact ((hgroups.of_subperm_left hfrom).of_subperm_right (dedup_subperm _)).of_perm_right
    (List.mergeSort_perm _ _)

theorem assembled_pack (xs : List Attestation) (max : Nat) : Assembled xs (pack xs max) :=
  (assembled_packAll xs).of_sublist_right (List.take_sublist _ _)

/-! ## Positions -/

/-- **Every packed attestation is merged from given ones, and no position is used twice.** -/
theorem pack_mergedFrom_positions (xs : List Attestation) (max : Nat) :
    ∃ places : List (List (Fin xs.length)), places.flatten.Nodup ∧
      List.Forall₂ (fun ps y => MergedFrom (ps.map xs.get) y) places (pack xs max) := by
  obtain ⟨parts, hparts, hsub⟩ := assembled_pack xs max
  obtain ⟨is, hnodup, his⟩ := exists_positions_of_subperm hsub
  obtain ⟨places, rfl, hplaces⟩ := exists_map_map_eq xs.get his
  refine ⟨places, hnodup, ?_⟩
  rw [← hplaces] at hparts
  exact List.forall₂_map_left_iff.1 hparts

end Saboteur.Attestation
