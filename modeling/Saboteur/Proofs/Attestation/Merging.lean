import Mathlib.Algebra.GroupWithZero.Nat
import Saboteur.Attestation.Packing
import Saboteur.Proofs.Signature.Points
import Saboteur.Proofs.Ssz.BitSet

/-!
# Merged attestations

An aggregate is worth something only while its signature belongs to its signers. `MergedFrom` says
that it does: the aggregate has the data of its parts, exactly their signers, none of them twice,
and the signature that comes from adding the signatures of the parts one after the other. Merging in
one more attestation keeps this.
-/

namespace Saboteur

namespace Attestation

/-! ## One merge -/

theorem signersWithin_iff {a b : Attestation} :
    a.signersWithin b = true ↔
      ∀ i, a.aggregationBits.get i = true → b.aggregationBits.get i = true :=
  BitList.subset_iff _ _

theorem signersDisjoint_iff {a b : Attestation} :
    a.signersDisjoint b = true ↔
      ∀ i, a.aggregationBits.get i = true → b.aggregationBits.get i = false :=
  BitList.disjoint_iff _ _

/-- What a merge needs, and what it gives. -/
theorem aggregate_eq_ok_iff {a b z : Attestation} :
    a.aggregate b = .ok z ↔
      a.data = b.data ∧ a.signersDisjoint b = true ∧
        ∃ s, Signature.aggregate [a.signature, b.signature] = .ok s ∧
          z = { a with aggregationBits := a.aggregationBits.union b.aggregationBits,
                       signature := s } := by
  unfold aggregate
  by_cases hdata : a.data = b.data
  · rw [if_neg (Classical.not_not.2 hdata)]
    by_cases hdisjoint : a.signersDisjoint b = true
    · rw [if_neg (by simp [hdisjoint])]
      cases hs : Signature.aggregate [a.signature, b.signature] with
      | error e => simp
      | ok s => simp [hdata, hdisjoint, eq_comm]
    · rw [if_pos (by simpa using hdisjoint)]
      simp [hdisjoint]
  · rw [if_pos hdata]
    simp [hdata]

/-- Two attestations can be aggregated when they vote for the same, by different signers, and both
signatures can be decompressed. -/
theorem exists_aggregate_iff {a b : Attestation} :
    (∃ z, a.aggregate b = .ok z) ↔
      a.data = b.data ∧ a.signersDisjoint b = true ∧ a.signature.Readable ∧
        b.signature.Readable := by
  rw [← Signature.exists_aggregate_pair_iff]
  constructor
  · rintro ⟨z, hz⟩
    obtain ⟨hdata, hdisjoint, s, hs, -⟩ := aggregate_eq_ok_iff.1 hz
    exact ⟨hdata, hdisjoint, s, hs⟩
  · rintro ⟨hdata, hdisjoint, s, hs⟩
    exact ⟨_, aggregate_eq_ok_iff.2 ⟨hdata, hdisjoint, s, hs, rfl⟩⟩

/-! ## The signature of many -/

/-- The signature that adding the signatures of attestations one after the other gives. -/
def joinedSignature : List Attestation → Except Signature.AggregateError Signature
  | [] => .error .noSignatures
  | x :: rest => rest.foldlM (fun s y => Signature.aggregate [s, y.signature]) x.signature

theorem joinedSignature_concat {parts : List Attestation} {s : Signature}
    (h : joinedSignature parts = .ok s) (x : Attestation) :
    joinedSignature (parts ++ [x]) = Signature.aggregate [s, x.signature] := by
  cases parts with
  | nil => cases h
  | cons y rest =>
    have hrest : rest.foldlM (fun s y => Signature.aggregate [s, y.signature]) y.signature =
      .ok s := h
    show (rest ++ [x]).foldlM _ _ = _
    rw [List.foldlM_append, hrest]
    show (Signature.aggregate [s, x.signature] >>= pure) = _
    exact bind_pure _

/-! ## Aggregates and their parts -/

/-- An attestation comes from merging these, in this order. -/
structure MergedFrom (parts : List Attestation) (y : Attestation) : Prop where
  nonempty : parts ≠ []
  data : ∀ x ∈ parts, x.data = y.data
  /-- No signer signs two of the parts. -/
  apart : parts.Pairwise fun a b =>
    ∀ i, a.aggregationBits.get i = true → b.aggregationBits.get i = false
  signers : ∀ i, y.aggregationBits.get i = true ↔ ∃ x ∈ parts, x.aggregationBits.get i = true
  signerCount : y.signerCount = (parts.map signerCount).sum
  signature : joinedSignature parts = .ok y.signature
  /-- An attestation that was not merged is unchanged. -/
  alone : ∀ x, parts = [x] → y = x

/-- An attestation on its own comes from itself. -/
theorem MergedFrom.single (x : Attestation) : MergedFrom [x] x where
  nonempty := List.cons_ne_nil _ _
  data := by simp
  apart := List.pairwise_singleton _ _
  signers := by simp
  signerCount := by simp
  signature := rfl
  alone := by
    rintro y h
    exact (List.cons.inj h).1

/-- **Merging in one more attestation adds it to the parts.** -/
theorem MergedFrom.aggregate {parts : List Attestation} {y x z : Attestation}
    (h : MergedFrom parts y) (hz : y.aggregate x = .ok z) : MergedFrom (parts ++ [x]) z := by
  obtain ⟨hdata, hdisjoint, s, hs, rfl⟩ := aggregate_eq_ok_iff.1 hz
  have hapart := signersDisjoint_iff.1 hdisjoint
  refine ⟨?nonempty, ?data, ?apart, ?signers, ?signerCount, ?signature, ?alone⟩
  case nonempty => exact List.append_ne_nil_of_right_ne_nil _ (List.cons_ne_nil _ _)
  case data =>
    intro w hw
    rcases List.mem_append.1 hw with hw | hw
    · exact h.data w hw
    · rw [List.mem_singleton.1 hw]
      exact hdata.symm
  case apart =>
    refine List.pairwise_append.2 ⟨h.apart, List.pairwise_singleton _ _, fun a ha b hb i hi => ?_⟩
    -- a signer of a part is a signer of the aggregate, so not of the one merged in
    rw [List.mem_singleton.1 hb]
    exact hapart i ((h.signers i).2 ⟨a, ha, hi⟩)
  case signers =>
    intro i
    show (y.aggregationBits.union x.aggregationBits).get i = true ↔ _
    rw [BitList.get_union, Bool.or_eq_true, h.signers i]
    simp [or_and_right, exists_or]
  case signerCount =>
    show (y.aggregationBits.union x.aggregationBits).count = _
    rw [BitList.count_union hdisjoint, List.map_append, List.sum_append]
    show y.signerCount + x.signerCount = _
    rw [h.signerCount]
    simp
  case signature =>
    show joinedSignature (parts ++ [x]) = .ok s
    rw [joinedSignature_concat h.signature, hs]
  case alone =>
    intro w hw
    have hlength := congrArg List.length hw
    have hpos := List.length_pos_iff.2 h.nonempty
    rw [List.length_append, List.length_singleton, List.length_singleton] at hlength
    omega

/-! ## The steps of packing -/

/-- An attestation is covered by one that is kept, or it is kept as well. -/
theorem keepUncovered_cases (kept : List Attestation) (x : Attestation) :
    ((∃ g ∈ kept, x.signersWithin g = true) ∧ keepUncovered kept x = kept) ∨
      ((∀ g ∈ kept, ¬x.signersWithin g = true) ∧ keepUncovered kept x = kept ++ [x]) := by
  unfold keepUncovered
  split
  case isTrue h => exact .inl ⟨List.any_eq_true.1 h, rfl⟩
  case isFalse h => exact .inr ⟨fun g hg hxg => h (List.any_eq_true.2 ⟨g, hg, hxg⟩), rfl⟩

/-- A merge replaces one aggregate and leaves the others where they are. -/
theorem mergeFirst?_eq_some {x : Attestation} {gs out : List Attestation}
    (h : mergeFirst? x gs = some out) :
    ∃ before g after z, gs = before ++ g :: after ∧ g.aggregate x = .ok z ∧
      out = before ++ z :: after := by
  induction gs generalizing out with
  | nil => cases h
  | cons g rest ih =>
    unfold mergeFirst? at h
    split at h
    case h_1 merged hmerged =>
      cases h
      exact ⟨[], g, rest, merged, rfl, hmerged, rfl⟩
    case h_2 =>
      obtain ⟨out', hout', rfl⟩ := Option.map_eq_some_iff.1 h
      obtain ⟨before, g', after, z, rfl, hz, rfl⟩ := ih hout'
      exact ⟨g :: before, g', after, z, rfl, hz, rfl⟩

/-- Without a merge no aggregate can take the attestation. -/
theorem aggregate_ne_ok_of_mergeFirst?_eq_none {x : Attestation} {gs : List Attestation}
    (h : mergeFirst? x gs = none) : ∀ g ∈ gs, ∀ z, g.aggregate x ≠ .ok z := by
  induction gs with
  | nil => exact fun g hg => absurd hg List.not_mem_nil
  | cons g rest ih =>
    unfold mergeFirst? at h
    split at h
    case h_1 => cases h
    case h_2 e he =>
      intro g' hg' z hz
      rcases List.mem_cons.1 hg' with rfl | hg'
      · rw [he] at hz
        cases hz
      · exact ih (Option.map_eq_none_iff.1 h) g' hg' z hz

/-- An attestation is covered already, or merged into one aggregate, or a new aggregate since none
can take it. -/
theorem absorb_cases (gs : List Attestation) (x : Attestation) :
    ((∃ g ∈ gs, x.signersWithin g = true) ∧ absorb gs x = gs) ∨
      (∃ before g after z, gs = before ++ g :: after ∧ g.aggregate x = .ok z ∧
        absorb gs x = before ++ z :: after) ∨
      ((∀ g ∈ gs, ∀ z, g.aggregate x ≠ .ok z) ∧ absorb gs x = gs ++ [x]) := by
  unfold absorb
  split
  case isTrue h => exact .inl ⟨List.any_eq_true.1 h, rfl⟩
  case isFalse =>
    right
    cases hm : mergeFirst? x gs with
    | none => exact .inr ⟨aggregate_ne_ok_of_mergeFirst?_eq_none hm, rfl⟩
    | some out => exact .inl (mergeFirst?_eq_some hm)

end Attestation

end Saboteur
