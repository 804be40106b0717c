import Saboteur.Proofs.Attestation.Merging

/-!
# Aggregation in place

An attestation takes another one in by writing over its own signers and its own signature. Two
writes could leave it half done, with signers that its signature does not cover. They do not: both
come after the last check, so an attestation either is the aggregate or is what it was.

`aggregate` gives the same aggregate as a new attestation, and `run_aggregateInPlace` says so. All
that is shown here of the writes comes from there.
-/

namespace Saboteur.Attestation

/-! ## The writes -/

theorem run_get_bind {α : Type}
    (next : Attestation → ExceptT AggregateError (StateM Attestation) α) (a : Attestation) :
    (get >>= next).run.run a = (next a).run.run a := rfl

/-- **Writing in place leaves behind the aggregate, or nothing at all.** -/
theorem run_aggregateInPlace (a b : Attestation) :
    (aggregateInPlace b).run.run a =
      match a.aggregate b with
      | .ok z => (.ok (), z)
      | .error e => (.error e, a) := by
  rw [aggregateInPlace, run_get_bind, aggregate]
  by_cases hdata : a.data ≠ b.data
  · rw [if_pos hdata, if_pos hdata]
    rfl
  · rw [if_neg hdata, if_neg hdata, run_get_bind]
    by_cases hdisjoint : (!a.signersDisjoint b) = true
    · rw [if_pos hdisjoint, if_pos hdisjoint]
      rfl
    · rw [if_neg hdisjoint, if_neg hdisjoint, run_get_bind]
      cases Signature.aggregate [a.signature, b.signature] with
      | error e => rfl
      | ok signature => rfl

/-! ## Success -/

/-- Two attestations have a signer in common. -/
def ShareSigner (a b : Attestation) : Prop :=
  ∃ i, a.aggregationBits.get i = true ∧ b.aggregationBits.get i = true

theorem signersDisjoint_iff_not_shareSigner {a b : Attestation} :
    a.signersDisjoint b = true ↔ ¬ ShareSigner a b := by
  rw [signersDisjoint_iff, ShareSigner, not_exists]
  refine forall_congr' fun i => ?_
  rw [not_and, Bool.not_eq_true]

/-- An attestation is one with the signers of two others. The lists of signers may have different
lengths. -/
structure Joins (a b after : Attestation) : Prop where
  data : after.data = a.data
  signers : ∀ i, after.aggregationBits.get i = true ↔
    a.aggregationBits.get i = true ∨ b.aggregationBits.get i = true
  signerCount : after.signerCount = a.signerCount + b.signerCount
  left : a.signersWithin after = true
  right : b.signersWithin after = true
  length : after.aggregationBits.bits.length =
    max a.aggregationBits.bits.length b.aggregationBits.bits.length
  signature : Signature.aggregate [a.signature, b.signature] = .ok after.signature

theorem joins_of_aggregate {a b z : Attestation} (h : a.aggregate b = .ok z) : Joins a b z := by
  obtain ⟨-, hdisjoint, s, hs, rfl⟩ := aggregate_eq_ok_iff.1 h
  have hsigners : ∀ i, (a.aggregationBits.union b.aggregationBits).get i = true ↔
      a.aggregationBits.get i = true ∨ b.aggregationBits.get i = true := by
    intro i
    rw [BitList.get_union, Bool.or_eq_true]
  refine ⟨rfl, hsigners, BitList.count_union hdisjoint, ?left, ?right, ?length, hs⟩
  case left => exact signersWithin_iff.2 fun i hi => (hsigners i).2 (.inl hi)
  case right => exact signersWithin_iff.2 fun i hi => (hsigners i).2 (.inr hi)
  case length => exact BitList.length_orBits _ _

/-! ## Failure -/

/-- The error applies to two attestations, and none that comes before it does. The data come first,
then the signers, then the signatures. -/
def FailsWith (a b : Attestation) : AggregateError → Prop
  | .dataMismatch => a.data ≠ b.data
  | .signersNotDisjoint => a.data = b.data ∧ ShareSigner a b
  | .signature e =>
    a.data = b.data ∧ ¬ ShareSigner a b ∧
      Signature.aggregate [a.signature, b.signature] = .error e

theorem aggregate_eq_error_iff {a b : Attestation} {e : AggregateError} :
    a.aggregate b = .error e ↔ FailsWith a b e := by
  rw [aggregate]
  by_cases hdata : a.data = b.data
  · rw [if_neg (Classical.not_not.2 hdata)]
    by_cases hdisjoint : a.signersDisjoint b = true
    · have hshare := signersDisjoint_iff_not_shareSigner.1 hdisjoint
      rw [if_neg (by simp [hdisjoint])]
      cases hs : Signature.aggregate [a.signature, b.signature] with
      | error s => cases e <;> simp [FailsWith, hdata, hshare, hs]
      | ok s => cases e <;> simp [FailsWith, hdata, hshare, hs]
    · have hshare : ShareSigner a b :=
        not_not.1 (mt signersDisjoint_iff_not_shareSigner.2 hdisjoint)
      rw [if_pos (by simpa using hdisjoint)]
      cases e <;> simp [FailsWith, hdata, hshare]
  · rw [if_pos hdata]
    cases e <;> simp [FailsWith, hdata]

/-! ## Both together -/

/-- **Aggregation in place is exact and all or nothing.** It succeeds exactly for the same data, no
common signer and two signatures that can be read; then the attestation has the signers of both and
the sum of their signatures. Otherwise the attestation is what it was, and the error is the first
that applies. -/
theorem aggregateInPlace_joins_or_unchanged (a b : Attestation) :
    let (result, after) := (aggregateInPlace b).run.run a
    (result = .ok () ↔
      a.data = b.data ∧ ¬ ShareSigner a b ∧ a.signature.Readable ∧ b.signature.Readable) ∧
    (result = .ok () → Joins a b after) ∧
    ∀ e, (result = .error e ↔ FailsWith a b e) ∧ (result = .error e → after = a) := by
  have hok : (∃ z, a.aggregate b = .ok z) ↔
      a.data = b.data ∧ ¬ ShareSigner a b ∧ a.signature.Readable ∧ b.signature.Readable := by
    rw [exists_aggregate_iff, signersDisjoint_iff_not_shareSigner]
  simp only [run_aggregateInPlace, ← hok, ← aggregate_eq_error_iff]
  cases h : a.aggregate b with
  | ok z => simp [joins_of_aggregate h]
  | error e => simp

/-- A vote with these signers, and with the signature of no signer. -/
def voteBy (bits : List Bool) (h : bits.length ≤ committeeCapacity) : Attestation :=
  { aggregationBits := ⟨bits, h⟩, data := .vote ⟨9⟩ 0 Root.zero, signature := .infinity }

example :
    (aggregateInPlace (voteBy [false, true, true] (by decide))).run.run
        (voteBy [true, false] (by decide)) =
      (.ok (), voteBy [true, true, true] (by decide)) := rfl

end Saboteur.Attestation
