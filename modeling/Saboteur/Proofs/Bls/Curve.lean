import Mathlib.AlgebraicGeometry.EllipticCurve.Affine.Point
import Saboteur.Bls.Point
import Saboteur.Proofs.Bls.Field

/-!
# Points are a group

The points with reduced coordinates that satisfy the equation are those of an elliptic curve over
the extension, and adding them is adding in the group of that curve. So the sum of a list of points
depends neither on their order nor on how they are grouped.
-/

namespace Saboteur.Bls

open WeierstrassCurve.Affine (addX addY negAddY negY)

/-! ## The curve -/

/-- The curve `y² = x³ + 4(1 + i)`. -/
def curve : WeierstrassCurve.Affine Extension := ⟨0, 0, 0, 0, ⟨4, 4⟩⟩

@[simp] theorem curve_a₁ : curve.a₁ = 0 := rfl

@[simp] theorem curve_a₂ : curve.a₂ = 0 := rfl

@[simp] theorem curve_a₃ : curve.a₃ = 0 := rfl

@[simp] theorem curve_a₄ : curve.a₄ = 0 := rfl

@[simp] theorem curve_a₆ : curve.a₆ = ⟨4, 4⟩ := rfl

@[simp] theorem curve_negY (x y : Extension) : curve.negY x y = -y := by
  simp [negY]

@[simp] theorem curve_addX (x₁ x₂ slope : Extension) :
    curve.addX x₁ x₂ slope = slope ^ 2 - x₁ - x₂ := by
  simp [addX]

@[simp] theorem curve_addY (x₁ x₂ y₁ slope : Extension) :
    curve.addY x₁ x₂ y₁ slope = slope * (x₁ - (slope ^ 2 - x₁ - x₂)) - y₁ := by
  simp only [addY, negAddY, curve_negY, curve_addX]
  ring

/-- The curve has no singular point. -/
theorem curve_nonsingular_iff {x y : Extension} :
    curve.Nonsingular x y ↔ y ^ 2 = x ^ 3 + ⟨4, 4⟩ := by
  have hdiscriminant : curve.Δ = -432 * (⟨4, 4⟩ : Extension) ^ 2 := by
    simp only [WeierstrassCurve.Δ, WeierstrassCurve.b₂, WeierstrassCurve.b₄, WeierstrassCurve.b₆,
      WeierstrassCurve.b₈, curve_a₁, curve_a₂, curve_a₃, curve_a₄, curve_a₆]
    ring
  have hne : curve.Δ ≠ 0 := by
    rw [hdiscriminant]
    decide +kernel
  rw [← WeierstrassCurve.Affine.equation_iff_nonsingular_of_Δ_ne_zero hne,
    WeierstrassCurve.Affine.equation_iff]
  simp

namespace Point

/-- A point that is written as it is read: its coordinates are reduced and satisfy the equation. -/
inductive Valid : Point → Prop
  | infinity : Valid infinity
  | affine {x y : Fp2} : x.Reduced → y.Reduced → OnCurve (affine x y) → Valid (affine x y)

theorem onCurve_affine_iff {x y : Fp2} :
    OnCurve (affine x y) ↔ curve.Nonsingular x.val y.val := by
  have hconstant : curveConstant.val = ⟨4, 4⟩ := by
    simp [Fp2.val, curveConstant]
  rw [curve_nonsingular_iff, OnCurve, curveRhs,
    ← Fp2.val_inj (Fp2.reduced_square y) (Fp2.reduced_add _ _)]
  simp [hconstant, pow_succ]

/-- The point of the curve, as an element of its group. -/
noncomputable def val : Point → curve.Point
  | infinity => 0
  | affine x y =>
    if h : y.square = curveRhs x then .some x.val y.val (onCurve_affine_iff.1 h) else 0

theorem val_affine {x y : Fp2} (h : OnCurve (affine x y)) :
    val (affine x y) = .some x.val y.val (onCurve_affine_iff.1 h) := dif_pos h

theorem val_inj {p q : Point} (hp : p.Valid) (hq : q.Valid) : p.val = q.val ↔ p = q := by
  refine ⟨fun h => ?_, fun h => h ▸ rfl⟩
  cases hp with
  | infinity =>
    cases hq with
    | infinity => rfl
    | affine hx hy hon =>
      rw [val_affine hon] at h
      exact absurd h.symm (WeierstrassCurve.Affine.Point.some_ne_zero _)
  | affine hx hy hon =>
    rw [val_affine hon] at h
    cases hq with
    | infinity => exact absurd h (WeierstrassCurve.Affine.Point.some_ne_zero _)
    | affine hx' hy' hon' =>
      rw [val_affine hon', WeierstrassCurve.Affine.Point.some.injEq, Fp2.val_inj hx hx',
        Fp2.val_inj hy hy'] at h
      rw [h.1, h.2]

/-! ## Adding two points -/

/-- The line through two points, or the tangent of one, meets the curve again in the opposite of
their sum. -/
theorem val_chord {x₁ y₁ x₂ y₂ slope : Fp2} (h₁ : OnCurve (affine x₁ y₁))
    (h₂ : OnCurve (affine x₂ y₂))
    (hxy : ¬(x₁.val = x₂.val ∧ y₁.val = curve.negY x₂.val y₂.val))
    (hslope : slope.val = curve.slope x₁.val x₂.val y₁.val y₂.val) :
    (chord slope x₁ y₁ x₂).Valid ∧
      (chord slope x₁ y₁ x₂).val = (affine x₁ y₁).val + (affine x₂ y₂).val := by
  have hsum := WeierstrassCurve.Affine.nonsingular_add (onCurve_affine_iff.1 h₁)
    (onCurve_affine_iff.1 h₂) hxy
  rw [← hslope, curve_addX, curve_addY] at hsum
  have hx : (((slope.square).sub x₁).sub x₂).val = slope.val ^ 2 - x₁.val - x₂.val := by simp
  have hy : ((slope.mul (x₁.sub ((slope.square).sub x₁ |>.sub x₂))).sub y₁).val =
      slope.val * (x₁.val - (slope.val ^ 2 - x₁.val - x₂.val)) - y₁.val := by simp
  have hon : OnCurve (chord slope x₁ y₁ x₂) := by
    rw [chord, onCurve_affine_iff, hx, hy]
    exact hsum
  refine ⟨.affine (Fp2.reduced_sub _ _) (Fp2.reduced_sub _ _) hon, ?_⟩
  rw [val_affine h₁, val_affine h₂, WeierstrassCurve.Affine.Point.add_some hxy]
  refine (val_affine hon).trans ?_
  simp only [hx, hy, ← hslope, curve_addX, curve_addY]

/-- The tangent at a point. -/
theorem val_tangent {x y : Fp2} (hy : y.Reduced) (h : OnCurve (affine x y)) (hne : y ≠ Fp2.zero) :
    let slope := (Fp2.mul ⟨3, 0⟩ x.square).mul (y.add y).inv
    (chord slope x y x).Valid ∧ (chord slope x y x).val = (affine x y).val + (affine x y).val := by
  have hyval : y.val ≠ curve.negY x.val y.val := by
    intro hopposite
    rw [curve_negY, eq_neg_iff_add_eq_zero, ← two_mul] at hopposite
    have htwo : (2 : Extension) ≠ 0 := by decide +kernel
    have hzero : y.val = Fp2.zero.val :=
      ((mul_eq_zero.1 hopposite).resolve_left htwo).trans Fp2.val_zero.symm
    exact hne ((Fp2.val_inj hy Fp2.reduced_zero).1 hzero)
  have hthree : Fp2.val ⟨3, 0⟩ = 3 := by decide +kernel
  refine val_chord h h (fun hxy => hyval hxy.2) ?_
  rw [WeierstrassCurve.Affine.slope_of_Y_ne rfl hyval]
  simp [hthree, div_eq_mul_inv]

/-- The line through two points. -/
theorem val_secant {x₁ y₁ x₂ y₂ : Fp2} (h₁ : OnCurve (affine x₁ y₁)) (h₂ : OnCurve (affine x₂ y₂))
    (hne : x₁.val ≠ x₂.val) :
    let slope := (y₂.sub y₁).mul (x₂.sub x₁).inv
    (chord slope x₁ y₁ x₂).Valid ∧
      (chord slope x₁ y₁ x₂).val = (affine x₁ y₁).val + (affine x₂ y₂).val := by
  refine val_chord h₁ h₂ (fun h => hne h.1) ?_
  rw [WeierstrassCurve.Affine.slope_of_X_ne hne, ← neg_sub, ← neg_sub x₂.val, neg_div_neg_eq,
    div_eq_mul_inv]
  simp

/-- **The sum of two points of the curve is one, and is their sum in the group.** -/
theorem val_add {p q : Point} (hp : p.Valid) (hq : q.Valid) :
    (p.add q).Valid ∧ (p.add q).val = p.val + q.val := by
  cases hp with
  | infinity => exact ⟨hq, (zero_add _).symm⟩
  | @affine x₁ y₁ hx₁ hy₁ h₁ =>
    cases hq with
    | infinity => exact ⟨.affine hx₁ hy₁ h₁, (add_zero _).symm⟩
    | @affine x₂ y₂ hx₂ hy₂ h₂ =>
      rw [add]
      by_cases hx : x₁ = x₂
      · subst hx
        rw [if_pos rfl]
        by_cases hy : y₁ = y₂ ∧ y₁ ≠ Fp2.zero
        · obtain ⟨rfl, hne⟩ := hy
          rw [if_pos ⟨rfl, hne⟩]
          exact val_tangent hy₁ h₁ hne
        · -- the points are opposite: equal ones whose `y` is zero, or ones with different `y`
          have hopposite : y₁.val = curve.negY x₁.val y₂.val := by
            by_cases heq : y₁ = y₂
            · have hzero : y₁ = Fp2.zero := Classical.not_not.1 fun hne => hy ⟨heq, hne⟩
              rw [← heq, hzero, curve_negY, Fp2.val_zero, neg_zero]
            · have heither := WeierstrassCurve.Affine.Y_eq_of_X_eq
                (onCurve_affine_iff.1 h₁).1 (onCurve_affine_iff.1 h₂).1 rfl
              exact heither.resolve_left fun h => heq ((Fp2.val_inj hy₁ hy₂).1 h)
          rw [if_neg hy]
          refine ⟨.infinity, ?_⟩
          rw [val_affine h₁, val_affine h₂]
          exact (WeierstrassCurve.Affine.Point.add_of_Y_eq rfl hopposite).symm
      · rw [if_neg hx]
        exact val_secant h₁ h₂ fun h => hx ((Fp2.val_inj hx₁ hx₂).1 h)

/-! ## Adding many points -/

theorem val_foldl_add {ps : List Point} (hps : ∀ p ∈ ps, p.Valid) {start : Point}
    (hstart : start.Valid) :
    (ps.foldl add start).Valid ∧ (ps.foldl add start).val = start.val + (ps.map val).sum := by
  induction ps generalizing start with
  | nil => exact ⟨hstart, (add_zero _).symm⟩
  | cons p rest ih =>
    obtain ⟨hp, hrest⟩ := List.forall_mem_cons.1 hps
    obtain ⟨hvalid, hval⟩ := val_add hstart hp
    obtain ⟨hvalid', hval'⟩ := ih hrest hvalid
    refine ⟨hvalid', hval'.trans ?_⟩
    rw [hval, List.map_cons, List.sum_cons, add_assoc]

theorem valid_sum {ps : List Point} (hps : ∀ p ∈ ps, p.Valid) : (sum ps).Valid :=
  (val_foldl_add hps .infinity).1

/-- **The sum of points is their sum in the group.** -/
theorem val_sum {ps : List Point} (hps : ∀ p ∈ ps, p.Valid) : (sum ps).val = (ps.map val).sum :=
  (val_foldl_add hps .infinity).2.trans (zero_add _)

/-- **The sum does not depend on the order.** -/
theorem sum_perm {ps qs : List Point} (hperm : ps.Perm qs) (hps : ∀ p ∈ ps, p.Valid) :
    sum ps = sum qs := by
  have hqs : ∀ q ∈ qs, q.Valid := fun q hq => hps q (hperm.mem_iff.2 hq)
  rw [← val_inj (valid_sum hps) (valid_sum hqs), val_sum hps, val_sum hqs]
  exact (hperm.map val).sum_eq

/-- **The sum of some points and the rest is the sum of all.** -/
theorem sum_cons_sum {ps qs : List Point} (hps : ∀ p ∈ ps, p.Valid) (hqs : ∀ q ∈ qs, q.Valid) :
    sum (sum ps :: qs) = sum (ps ++ qs) := by
  have hleft : ∀ p ∈ sum ps :: qs, p.Valid := List.forall_mem_cons.2 ⟨valid_sum hps, hqs⟩
  have hright : ∀ p ∈ ps ++ qs, p.Valid := List.forall_mem_append.2 ⟨hps, hqs⟩
  rw [← val_inj (valid_sum hleft) (valid_sum hright), val_sum hleft, val_sum hright]
  simp [val_sum hps]

/-- The point at infinity adds nothing. -/
theorem sum_insert_infinity {ps qs : List Point} (hps : ∀ p ∈ ps, p.Valid)
    (hqs : ∀ q ∈ qs, q.Valid) : sum (ps ++ infinity :: qs) = sum (ps ++ qs) := by
  have hvalid : ∀ p ∈ ps ++ infinity :: qs, p.Valid :=
    List.forall_mem_append.2 ⟨hps, List.forall_mem_cons.2 ⟨.infinity, hqs⟩⟩
  calc sum (ps ++ infinity :: qs)
      = sum (infinity :: (ps ++ qs)) := sum_perm List.perm_middle hvalid
    _ = sum (ps ++ qs) := rfl

end Point

end Saboteur.Bls
