import Mathlib.Data.List.Perm.Basic
import Saboteur.Proofs.Bls.Compression
import Saboteur.Proofs.Signature.Points

/-!
# The order of signatures

Attestations are merged two by two, in whatever order they come, and their signatures with them; who
checks a merged signature adds up those of the committee in its own order. Both get the same bytes:
points are added in a group, and a sum that was written down in between is read back as the point
that it was.
-/

namespace Saboteur.Signature

open Bls (Point)

theorem valid_of_mem_points {ss : List Signature} {ps : List Point} (h : points ss = .ok ps) :
    ∀ p ∈ ps, p.Valid := by
  rw [points_eq_ok_iff] at h
  induction h with
  | nil => exact List.forall_mem_nil _
  | cons hs _ ih => exact List.forall_mem_cons.2 ⟨Point.valid_of_decompress hs, ih⟩

/-- The signature that is written for a point of the curve can be read. -/
theorem point_compress {p : Point} (hp : p.Valid) : point ⟨p.compress⟩ = .ok p :=
  Point.decompress_compress hp

/-! ## Other orders -/

theorem points_perm {ss ts : List Signature} {ps : List Point} (h : points ss = .ok ps)
    (hperm : ts.Perm ss) : ∃ qs, points ts = .ok qs ∧ qs.Perm ps := by
  obtain ⟨qs, hqs, hqsps⟩ := List.perm_comp_forall₂ hperm (points_eq_ok_iff.1 h)
  exact ⟨qs, points_eq_ok_iff.2 hqs, hqsps⟩

/-- **The order makes no difference.** -/
theorem aggregate_perm {ss ts : List Signature} {ps : List Point} (hss : ss ≠ [])
    (h : points ss = .ok ps) (hperm : ts.Perm ss) : aggregate ts = aggregate ss := by
  obtain ⟨qs, hqs, hqsps⟩ := points_perm h hperm
  have hts : ts ≠ [] := fun hnil => hss (hnil ▸ hperm).symm.eq_nil
  rw [aggregate_of_points hss h, aggregate_of_points hts hqs,
    Point.sum_perm hqsps (valid_of_mem_points hqs)]

/-! ## Groups -/

/-- **Signatures that were added up first count as what they were.** -/
theorem aggregate_cons_aggregate {first rest : List Signature} {part : Signature}
    {ps qs : List Point} (hfirst : points first = .ok ps) (hrest : points rest = .ok qs)
    (hpart : aggregate first = .ok part) :
    aggregate (part :: rest) = aggregate (first ++ rest) := by
  have hne : first ≠ [] := (exists_aggregate_iff.1 ⟨part, hpart⟩).1
  obtain rfl : part = ⟨(Point.sum ps).compress⟩ :=
    Except.ok.inj (hpart.symm.trans (aggregate_of_points hne hfirst))
  have hps := valid_of_mem_points hfirst
  have hqs := valid_of_mem_points hrest
  have hread : points (⟨(Point.sum ps).compress⟩ :: rest) = .ok (Point.sum ps :: qs) :=
    points_eq_ok_iff.2 (.cons (point_compress (Point.valid_sum hps)) (points_eq_ok_iff.1 hrest))
  rw [aggregate_of_points (List.cons_ne_nil _ _) hread,
    aggregate_of_points (List.append_ne_nil_of_left_ne_nil hne _) (points_append hfirst hrest),
    Point.sum_cons_sum hps hqs]

/-- **The signature of no signer adds nothing.** -/
theorem aggregate_insert_infinity {before after : List Signature} {ps qs : List Point}
    (hne : before ++ after ≠ []) (hbefore : points before = .ok ps)
    (hafter : points after = .ok qs) :
    aggregate (before ++ infinity :: after) = aggregate (before ++ after) := by
  have hread : points (before ++ infinity :: after) = .ok (ps ++ .infinity :: qs) :=
    points_append hbefore
      (points_eq_ok_iff.2 (.cons (point_compress .infinity) (points_eq_ok_iff.1 hafter)))
  rw [aggregate_of_points (List.append_ne_nil_of_right_ne_nil _ (List.cons_ne_nil _ _)) hread,
    aggregate_of_points hne (points_append hbefore hafter),
    Point.sum_insert_infinity (valid_of_mem_points hbefore) (valid_of_mem_points hafter)]

/-- **What signatures add up to depends neither on their order nor on how they are grouped.**
Adding up fails exactly if there is no signature or one cannot be read, and then the first of those
is to blame. -/
theorem aggregate_order_and_grouping (ss : List Signature) :
    (ss ≠ [] → (∀ s ∈ ss, s.Readable) →
      ∃ total, aggregate ss = .ok total ∧
        (∀ ts, ts.Perm ss → aggregate ts = .ok total) ∧
        (∀ first rest, first ++ rest = ss → first ≠ [] →
          ∃ part, aggregate first = .ok part ∧ aggregate (part :: rest) = .ok total) ∧
        ∀ before after, before ++ after = ss →
          aggregate (before ++ infinity :: after) = .ok total) ∧
    ((∃ e, aggregate ss = .error e) ↔ ss = [] ∨ ∃ s ∈ ss, ¬s.Readable) ∧
    ∀ e, aggregate ss = .error e ↔
      (ss = [] ∧ e = .noSignatures) ∨
        ∃ before s after fault, ss = before ++ s :: after ∧ (∀ r ∈ before, r.Readable) ∧
          s.point = .error fault ∧ e = .invalid fault := by
  refine ⟨fun hne hread => ?_, ?_, fun e => aggregate_eq_error_iff⟩
  · obtain ⟨total, htotal⟩ := exists_aggregate_iff.2 ⟨hne, hread⟩
    obtain ⟨ps, hps⟩ := exists_points_iff.2 hread
    refine ⟨total, htotal, fun ts hperm => ?_, ?_, ?_⟩
    · rw [aggregate_perm hne hps hperm, htotal]
    · rintro first rest rfl hfirst
      obtain ⟨hreadfirst, hreadrest⟩ := List.forall_mem_append.1 hread
      obtain ⟨part, hpart⟩ := exists_aggregate_iff.2 ⟨hfirst, hreadfirst⟩
      obtain ⟨ps, hps⟩ := exists_points_iff.2 hreadfirst
      obtain ⟨qs, hqs⟩ := exists_points_iff.2 hreadrest
      exact ⟨part, hpart, (aggregate_cons_aggregate hps hqs hpart).trans htotal⟩
    · rintro before after rfl
      obtain ⟨hreadbefore, hreadafter⟩ := List.forall_mem_append.1 hread
      obtain ⟨ps, hps⟩ := exists_points_iff.2 hreadbefore
      obtain ⟨qs, hqs⟩ := exists_points_iff.2 hreadafter
      exact (aggregate_insert_infinity hne hps hqs).trans htotal
  · have hsome : (∃ e, aggregate ss = .error e) ↔ ¬∃ total, aggregate ss = .ok total := by
      cases aggregate ss <;> simp
    rw [hsome, exists_aggregate_iff, not_and_or, not_not]
    simp only [not_forall, exists_prop]

/-- A point of the curve. -/
def somePoint : Point := .affine ⟨2, 1⟩ ⟨
  0x82b95a5b7241be6e2b581a2d5d91c5c67b197400602914879aef30a565535825c3bbc70165b18a65e1252d7b98e580d,
  0x4f0e2be2f9d6956e890a15fcc71632cc8ee88bdd387daeddf980ef9b8597131762c3997c36f0d8f5ed079e44e35044⟩

/-- Another point of the curve. -/
def otherPoint : Point := .affine ⟨3, 1⟩ ⟨
  0x938e4fbf018479e71ef389953a622333d8611014bc9ce164f5ec4289d7a6a08f385ede267ba6fd161f404376c72798c,
  0x246662e8fffe1bdb969f607e2ce74a7f0a522b38d1cc35ebb47a499b959882cfad4ae5d318506f679a5d9e568e3ca58⟩

/-- Three signatures, of which two are the same. -/
def threeSignatures : List Signature :=
  [⟨somePoint.compress⟩, ⟨somePoint.compress⟩, ⟨otherPoint.compress⟩]

theorem aggregate_order_and_grouping_threeSignatures :
    threeSignatures ≠ [] ∧ (∀ s ∈ threeSignatures, s.Readable) ∧
      ∃ total, aggregate threeSignatures = .ok total ∧
        aggregate threeSignatures.reverse = .ok total ∧
        (∃ part, aggregate (threeSignatures.take 2) = .ok part ∧
          aggregate (part :: threeSignatures.drop 2) = .ok total) ∧
        aggregate (infinity :: threeSignatures) = .ok total := by
  have hne : threeSignatures ≠ [] := List.cons_ne_nil _ _
  have hsome : Readable ⟨somePoint.compress⟩ :=
    ⟨_, point_compress (.affine (by decide) (by decide) (by unfold Point.OnCurve; decide +kernel))⟩
  have hother : Readable ⟨otherPoint.compress⟩ :=
    ⟨_, point_compress (.affine (by decide) (by decide) (by unfold Point.OnCurve; decide +kernel))⟩
  have hread : ∀ s ∈ threeSignatures, s.Readable := by
    simp only [threeSignatures, List.forall_mem_cons]
    exact ⟨hsome, hsome, hother, List.forall_mem_nil _⟩
  obtain ⟨total, htotal, horder, hgroups, hinsert⟩ :=
    (aggregate_order_and_grouping threeSignatures).1 hne hread
  exact ⟨hne, hread, total, htotal, horder _ (List.reverse_perm _),
    hgroups _ _ (List.take_append_drop 2 _) (List.cons_ne_nil _ _), hinsert [] _ rfl⟩

end Saboteur.Signature
