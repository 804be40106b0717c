import Mathlib.Data.List.Forall2
import Saboteur.Signature

/-!
# Signatures that stand for points

Aggregation reads each signature as a point, one after the other, and stops at the first that cannot
be read. So it succeeds exactly if there is a signature and every one can be read, and otherwise it
fails with the error of the first that cannot.
-/

namespace Saboteur.Signature

/-- A signature can be decompressed. -/
def Readable (s : Signature) : Prop := ∃ p, s.point = .ok p

theorem readable_iff {s : Signature} : s.Readable ↔ ∀ e, s.point ≠ .error e := by
  unfold Readable
  cases s.point <;> simp

/-! ## Reading one by one -/

/-- The points are those of the signatures, one by one. -/
theorem points_eq_ok_iff {ss : List Signature} {ps : List Bls.Point} :
    points ss = .ok ps ↔ List.Forall₂ (fun s p => s.point = .ok p) ss ps := by
  induction ss generalizing ps with
  | nil =>
    rw [List.forall₂_nil_left_iff]
    exact ⟨fun h => (Except.ok.inj h).symm, fun h => h ▸ rfl⟩
  | cons s rest ih =>
    rw [points]
    constructor
    · intro h
      split at h
      case h_1 => cases h
      case h_2 p hp =>
        cases hrest : points rest with
        | error e => rw [hrest] at h; cases h
        | ok qs =>
          rw [hrest] at h
          cases h
          exact .cons hp (ih.1 hrest)
    · intro h
      cases h with
      | cons hp hrest =>
        rw [hp, ih.2 hrest]
        rfl

/-- **Reading fails with the error of the first signature that cannot be read.** -/
theorem points_eq_error_iff {ss : List Signature} {e : Bls.Point.EncodingError} :
    points ss = .error e ↔
      ∃ before s after, ss = before ++ s :: after ∧ (∀ r ∈ before, r.Readable) ∧
        s.point = .error e := by
  induction ss with
  | nil => simp [points]
  | cons s rest ih =>
    rw [points]
    cases hs : s.point with
    | error fault =>
      show Except.error fault = .error e ↔ _
      constructor
      · rintro ⟨⟩
        exact ⟨[], s, rest, rfl, List.forall_mem_nil _, hs⟩
      · rintro ⟨before, t, after, hsplit, hbefore, ht⟩
        cases before with
        | nil =>
          obtain ⟨rfl, rfl⟩ := List.cons.inj hsplit
          rw [Except.error.inj (hs.symm.trans ht)]
        | cons r before =>
          obtain ⟨rfl, rfl⟩ := List.cons.inj hsplit
          exact absurd hs (readable_iff.1 (hbefore s List.mem_cons_self) fault)
    | ok p =>
      have hmap : (points rest).map (p :: ·) = .error e ↔ points rest = .error e := by
        cases points rest <;> simp [Except.map]
      refine hmap.trans (ih.trans ?_)
      constructor
      · rintro ⟨before, t, after, rfl, hbefore, ht⟩
        exact ⟨s :: before, t, after, rfl, List.forall_mem_cons.2 ⟨⟨p, hs⟩, hbefore⟩, ht⟩
      · rintro ⟨before, t, after, hsplit, hbefore, ht⟩
        cases before with
        | nil =>
          obtain ⟨rfl, rfl⟩ := List.cons.inj hsplit
          rw [hs] at ht
          cases ht
        | cons r before =>
          obtain ⟨rfl, rfl⟩ := List.cons.inj hsplit
          exact ⟨before, t, after, rfl, (List.forall_mem_cons.1 hbefore).2, ht⟩

theorem exists_points_iff {ss : List Signature} :
    (∃ ps, points ss = .ok ps) ↔ ∀ s ∈ ss, s.Readable := by
  induction ss with
  | nil => exact iff_of_true ⟨[], rfl⟩ (List.forall_mem_nil _)
  | cons s rest ih =>
    rw [List.forall_mem_cons, ← ih]
    constructor
    · rintro ⟨ps, hps⟩
      cases points_eq_ok_iff.1 hps with
      | cons hp hrest => exact ⟨⟨_, hp⟩, _, points_eq_ok_iff.2 hrest⟩
    · rintro ⟨⟨p, hp⟩, ps, hps⟩
      exact ⟨_, points_eq_ok_iff.2 (.cons hp (points_eq_ok_iff.1 hps))⟩

theorem points_append {ss ts : List Signature} {ps qs : List Bls.Point} (hps : points ss = .ok ps)
    (hqs : points ts = .ok qs) : points (ss ++ ts) = .ok (ps ++ qs) :=
  points_eq_ok_iff.2 (List.rel_append (points_eq_ok_iff.1 hps) (points_eq_ok_iff.1 hqs))

/-! ## Adding up -/

theorem aggregate_of_points {ss : List Signature} {ps : List Bls.Point} (hss : ss ≠ [])
    (hps : points ss = .ok ps) : aggregate ss = .ok ⟨(Bls.Point.sum ps).compress⟩ := by
  cases ps with
  | nil => exact absurd (List.forall₂_nil_right_iff.1 (points_eq_ok_iff.1 hps)) hss
  | cons p rest => rw [aggregate, hps]

/-- **Aggregation fails if there is no signature, and with the error of the first that cannot be
read.** -/
theorem aggregate_eq_error_iff {ss : List Signature} {e : AggregateError} :
    aggregate ss = .error e ↔
      (ss = [] ∧ e = .noSignatures) ∨
        ∃ before s after fault, ss = before ++ s :: after ∧ (∀ r ∈ before, r.Readable) ∧
          s.point = .error fault ∧ e = .invalid fault := by
  have hfirst : (∃ before s after fault, ss = before ++ s :: after ∧
      (∀ r ∈ before, r.Readable) ∧ s.point = .error fault ∧ e = .invalid fault) ↔
        ∃ fault, points ss = .error fault ∧ e = .invalid fault := by
    simp only [points_eq_error_iff]
    constructor
    · rintro ⟨before, s, after, fault, hsplit, hbefore, hs, he⟩
      exact ⟨fault, ⟨before, s, after, hsplit, hbefore, hs⟩, he⟩
    · rintro ⟨fault, ⟨before, s, after, hsplit, hbefore, hs⟩, he⟩
      exact ⟨before, s, after, fault, hsplit, hbefore, hs, he⟩
  rw [hfirst]
  cases hps : points ss with
  | error fault =>
    have hne : ss ≠ [] := by
      rintro rfl
      cases hps
    simp [aggregate, hps, hne, eq_comm]
  | ok ps =>
    by_cases hss : ss = []
    · subst hss
      simp [aggregate, points, eq_comm]
    · simp [aggregate_of_points hss hps, hss]

/-- **Signatures have a sum when there is one and every one can be read.** -/
theorem exists_aggregate_iff {ss : List Signature} :
    (∃ total, aggregate ss = .ok total) ↔ ss ≠ [] ∧ ∀ s ∈ ss, s.Readable := by
  rw [← exists_points_iff]
  constructor
  · rintro ⟨total, htotal⟩
    refine ⟨?_, ?_⟩
    · rintro rfl
      cases htotal
    · cases hps : points ss with
      | error fault =>
        rw [aggregate, hps] at htotal
        cases htotal
      | ok ps => exact ⟨ps, rfl⟩
  · rintro ⟨hss, ps, hps⟩
    exact ⟨_, aggregate_of_points hss hps⟩

/-- Two signatures have a sum when both can be decompressed. -/
theorem exists_aggregate_pair_iff {s t : Signature} :
    (∃ sum, aggregate [s, t] = .ok sum) ↔ s.Readable ∧ t.Readable := by
  rw [exists_aggregate_iff]
  simp

end Saboteur.Signature
