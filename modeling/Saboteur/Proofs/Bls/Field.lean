import Mathlib.Algebra.QuadraticAlgebra.Basic
import Mathlib.NumberTheory.LegendreSymbol.Basic
import Mathlib.Tactic.FieldSimp
import Mathlib.Tactic.LinearCombination
import Saboteur.Proofs.Bls.Primality

/-!
# The extension is a field

The numbers that points are reckoned with stand for elements of a field, and every operation stands
for the one of the field. An element has one number, so what holds in the field holds of the
numbers. A square root is found for every square.
-/

namespace Saboteur.Bls

/-! ## The prime field -/

theorem modulus_odd : modulus % 2 = 1 := by decide

theorem zmod_two_ne_zero : (2 : ZMod modulus) ≠ 0 := by decide +kernel

/-- The power that is computed stands for the power in the field. -/
theorem cast_power (b e : Nat) : (power b e : ZMod modulus) = (b : ZMod modulus) ^ e := by
  induction e using Nat.strongRecOn generalizing b with
  | ind e ih =>
    rw [power]
    split
    case isTrue hzero => rw [hzero, pow_zero, Nat.cast_one]
    case isFalse hpos =>
      have hhalf : (power (b * b % modulus) (e / 2) : ZMod modulus) =
          (b : ZMod modulus) ^ (2 * (e / 2)) := by
        rw [ih _ (Nat.div_lt_self (Nat.pos_of_ne_zero hpos) one_lt_two), ZMod.natCast_mod,
          Nat.cast_mul, pow_mul, pow_two]
      dsimp only
      split
      case isTrue hodd =>
        rw [ZMod.natCast_mod, Nat.cast_mul, hhalf, ← pow_succ', ← hodd, Nat.div_add_mod]
      case isFalse heven =>
        rw [hhalf, show 2 * (e / 2) = e by omega]

theorem power_lt (b e : Nat) : power b e < modulus := by
  induction e using Nat.strongRecOn generalizing b with
  | ind e ih =>
    rw [power]
    split
    case isTrue => decide
    case isFalse hpos =>
      dsimp only
      split
      · exact Nat.mod_lt _ modulus_prime.out.pos
      · exact ih _ (Nat.div_lt_self (Nat.pos_of_ne_zero hpos) one_lt_two) _

theorem cast_difference (a b : Nat) : (difference a b : ZMod modulus) = a - b := by
  have hle : b % modulus ≤ modulus := (Nat.mod_lt _ modulus_prime.out.pos).le
  rw [difference, ZMod.natCast_mod, Nat.cast_add, Nat.cast_sub hle, ZMod.natCast_mod,
    ZMod.natCast_self, zero_sub, sub_eq_add_neg]

/-- The inverse that is computed stands for the inverse in the field; that of zero is zero. -/
theorem cast_inverse (a : Nat) : (inverse a : ZMod modulus) = (a : ZMod modulus)⁻¹ := by
  rw [inverse, cast_power]
  by_cases hzero : (a : ZMod modulus) = 0
  · rw [hzero, inv_zero, zero_pow (by decide)]
  · refine eq_inv_of_mul_eq_one_left ?_
    rw [← pow_succ]
    exact ZMod.pow_card_sub_one_eq_one hzero

/-- Reduced numbers stand for different elements. -/
theorem cast_inj {a b : Nat} (ha : a < modulus) (hb : b < modulus) :
    (a : ZMod modulus) = b ↔ a = b := by
  rw [ZMod.natCast_eq_natCast_iff', Nat.mod_eq_of_lt ha, Nat.mod_eq_of_lt hb]

/-- A root that is found is one. -/
theorem sq_of_sqrt? {a r : Nat} (h : sqrt? a = some r) :
    (r : ZMod modulus) ^ 2 = a ∧ r < modulus := by
  rw [sqrt?] at h
  split at h
  case isTrue hsquare =>
    obtain rfl := Option.some.inj h
    refine ⟨?_, power_lt _ _⟩
    rw [pow_two, ← Nat.cast_mul]
    exact (ZMod.natCast_eq_natCast_iff' _ _ _).2 hsquare
  case isFalse => cases h

/-- **Every square has a square root.** -/
theorem exists_sqrt? {a : Nat} {t : ZMod modulus} (h : t ^ 2 = a) : ∃ r, sqrt? a = some r := by
  have hexponent : 2 * ((modulus + 1) / 4 * 2) = modulus - 1 + 2 := by decide
  refine ⟨_, if_pos ?_⟩
  rw [← ZMod.natCast_eq_natCast_iff', Nat.cast_mul, ← pow_two, cast_power, ← h, ← pow_mul,
    ← pow_mul, hexponent, pow_add]
  by_cases hzero : t = 0
  · rw [hzero]
    simp
  · rw [ZMod.pow_card_sub_one_eq_one hzero, one_mul]

/-! ## The extension -/

/-- The quadratic extension of the prime field by a square root of minus one. -/
abbrev Extension : Type := QuadraticAlgebra (ZMod modulus) (-1) 0

/-- Minus one has no square root in the prime field. -/
instance : Fact (∀ r : ZMod modulus, r ^ 2 ≠ -1 + 0 * r) := by
  refine ⟨fun r hr => ?_⟩
  rw [zero_mul, add_zero] at hr
  have hsquare : IsSquare (-1 : ZMod modulus) := ⟨r, by rw [← hr, pow_two]⟩
  exact ZMod.exists_sq_eq_neg_one_iff.1 hsquare (by decide)

namespace Fp2

/-- The element of the field that a number stands for. -/
def val (a : Fp2) : Extension := ⟨a.re, a.im⟩

/-- Both parts are below the modulus. -/
structure Reduced (a : Fp2) : Prop where
  re_lt : a.re < modulus
  im_lt : a.im < modulus

instance (a : Fp2) : Decidable a.Reduced :=
  decidable_of_iff (a.re < modulus ∧ a.im < modulus) ⟨fun h => ⟨h.1, h.2⟩, fun h => ⟨h.1, h.2⟩⟩

/-- Reduced pairs stand for different elements. -/
theorem val_inj {a b : Fp2} (ha : a.Reduced) (hb : b.Reduced) : a.val = b.val ↔ a = b := by
  obtain ⟨re, im⟩ := a
  obtain ⟨re', im'⟩ := b
  rw [val, val, QuadraticAlgebra.mk.injEq, cast_inj ha.re_lt hb.re_lt, cast_inj ha.im_lt hb.im_lt,
    Fp2.mk.injEq]

theorem reduced_mod (re im : Nat) : Reduced ⟨re % modulus, im % modulus⟩ :=
  ⟨Nat.mod_lt _ modulus_prime.out.pos, Nat.mod_lt _ modulus_prime.out.pos⟩

theorem reduced_zero : zero.Reduced := by decide

theorem reduced_add (a b : Fp2) : (a.add b).Reduced := reduced_mod _ _

theorem reduced_sub (a b : Fp2) : (a.sub b).Reduced := reduced_mod _ _

theorem reduced_neg (a : Fp2) : a.neg.Reduced := reduced_sub _ _

theorem reduced_mul (a b : Fp2) : (a.mul b).Reduced := reduced_mod _ _

theorem reduced_square (a : Fp2) : a.square.Reduced := reduced_mul _ _

@[simp] theorem val_zero : zero.val = 0 := by
  ext <;> simp [val, zero]

@[simp] theorem val_add (a b : Fp2) : (a.add b).val = a.val + b.val := by
  ext <;> simp [val, add]

@[simp] theorem val_sub (a b : Fp2) : (a.sub b).val = a.val - b.val := by
  ext <;> simp [val, sub, cast_difference]

@[simp] theorem val_neg (a : Fp2) : a.neg.val = -a.val := by
  rw [neg, val_sub, val_zero, zero_sub]

@[simp] theorem val_mul (a b : Fp2) : (a.mul b).val = a.val * b.val := by
  ext
  · simp [val, mul, cast_difference, sub_eq_add_neg]
  · simp [val, mul]

@[simp] theorem val_square (a : Fp2) : a.square.val = a.val ^ 2 := by
  rw [square, val_mul, pow_two]

/-- The norm that is computed stands for the norm of the extension. -/
theorem cast_norm (a : Fp2) : (a.norm : ZMod modulus) = a.val.norm := by
  simp [norm, val, QuadraticAlgebra.norm_def]

@[simp] theorem val_inv (a : Fp2) : a.inv.val = a.val⁻¹ := by
  rw [QuadraticAlgebra.inv_def]
  ext
  · simp [val, inv, cast_inverse, cast_norm, mul_comm]
  · simp [val, inv, cast_inverse, cast_norm, cast_difference, mul_comm]

/-! ## Square roots -/

theorem sq_eq_val_iff {y : Extension} {a : Fp2} :
    y ^ 2 = a.val ↔ y.re ^ 2 - y.im ^ 2 = a.re ∧ 2 * (y.re * y.im) = a.im := by
  have hre : (y ^ 2).re = y.re ^ 2 - y.im ^ 2 := by
    rw [pow_two, QuadraticAlgebra.re_mul]
    ring
  have him : (y ^ 2).im = 2 * (y.re * y.im) := by
    rw [pow_two, QuadraticAlgebra.im_mul]
    ring
  rw [QuadraticAlgebra.ext_iff, hre, him]
  exact Iff.rfl

/-- The real part of a candidate is a root, and the imaginary part is the one that goes with it. -/
theorem mem_rootFrom_iff {im s : Nat} {r : Fp2} :
    r ∈ rootFrom im s ↔
      ∃ re, Bls.sqrt? s = some re ∧ r = ⟨re, im * inverse (2 * re % modulus) % modulus⟩ := by
  rw [rootFrom, Option.mem_def]
  cases Bls.sqrt? s with
  | none => simp
  | some re => simp [eq_comm]

theorem reduced_of_mem_rootFrom {im s : Nat} {r : Fp2} (h : r ∈ rootFrom im s) : r.Reduced := by
  obtain ⟨re, hre, rfl⟩ := mem_rootFrom_iff.1 h
  exact ⟨(sq_of_sqrt? hre).2, Nat.mod_lt _ modulus_prime.out.pos⟩

/-- A root is found from the square of its real part. -/
theorem exists_mem_rootFrom {a : Fp2} {y : Extension} (hy : y ^ 2 = a.val) (hre : y.re ≠ 0)
    {s : Nat} (hs : (s : ZMod modulus) = y.re ^ 2) :
    ∃ r ∈ rootFrom a.im s, r.val ^ 2 = a.val := by
  obtain ⟨c, hc⟩ := exists_sqrt? hs.symm
  have hsquare : (c : ZMod modulus) ^ 2 = y.re ^ 2 := (sq_of_sqrt? hc).1.trans hs
  have hne : (c : ZMod modulus) ≠ 0 := by
    intro hzero
    rw [hzero, zero_pow two_ne_zero] at hsquare
    exact hre (pow_eq_zero_iff two_ne_zero |>.1 hsquare.symm)
  refine ⟨_, mem_rootFrom_iff.2 ⟨c, hc, rfl⟩, ?_⟩
  obtain ⟨hdiff, hprod⟩ := sq_eq_val_iff.1 hy
  have him : ((a.im * inverse (2 * c % modulus) % modulus : Nat) : ZMod modulus) =
      y.re * y.im / c := by
    have h2 := zmod_two_ne_zero
    rw [ZMod.natCast_mod, Nat.cast_mul, cast_inverse, ZMod.natCast_mod, Nat.cast_mul, ← hprod,
      Nat.cast_ofNat]
    field_simp
  rw [sq_eq_val_iff, val, him, ← hdiff, ← hprod]
  refine ⟨?_, ?_⟩
  · field_simp
    linear_combination (c ^ 2 + y.im ^ 2) * hsquare
  · field_simp

theorem reduced_of_mem_rootCandidates {a r : Fp2} (h : r ∈ a.rootCandidates) : r.Reduced := by
  have hpos : 0 < modulus := modulus_prime.out.pos
  rw [rootCandidates] at h
  split at h
  · rcases List.mem_append.1 h with h | h
    · obtain ⟨c, hc, rfl⟩ := by simpa using h
      exact ⟨(sq_of_sqrt? hc).2, hpos⟩
    · obtain ⟨c, hc, rfl⟩ := by simpa using h
      exact ⟨hpos, (sq_of_sqrt? hc).2⟩
  · split at h
    · cases h
    · rcases List.mem_append.1 h with h | h
      · exact reduced_of_mem_rootFrom (Option.mem_toList.1 h)
      · exact reduced_of_mem_rootFrom (Option.mem_toList.1 h)

/-- Without an imaginary part one part of the root is zero, and the other is a root of the real part
or of its opposite. -/
theorem exists_root_of_im_eq_zero {a : Fp2} {y : Extension} (hy : y ^ 2 = a.val) (him : a.im = 0) :
    ∃ r ∈ a.rootCandidates, r.val ^ 2 = a.val := by
  obtain ⟨hdiff, hprod⟩ := sq_eq_val_iff.1 hy
  rw [him, Nat.cast_zero] at hprod
  rw [rootCandidates, if_pos him]
  rcases mul_eq_zero.1 ((mul_eq_zero.1 hprod).resolve_left zmod_two_ne_zero) with hre | himag
  · have hopposite : y.im ^ 2 = (difference 0 a.re : Nat) := by
      rw [cast_difference, ← hdiff, hre]
      ring
    obtain ⟨c, hc⟩ := exists_sqrt? hopposite
    refine ⟨⟨0, c⟩, by simp [hc], ?_⟩
    rw [sq_eq_val_iff, val, him, (sq_of_sqrt? hc).1, cast_difference]
    simp
  · have hreal : y.re ^ 2 = (a.re : ZMod modulus) := by
      rw [← hdiff, himag]
      ring
    obtain ⟨c, hc⟩ := exists_sqrt? hreal
    refine ⟨⟨c, 0⟩, by simp [hc], ?_⟩
    rw [sq_eq_val_iff, val, him, (sq_of_sqrt? hc).1]
    simp

/-- The norm has a root, and with one of its two signs it gives the square of the real part. -/
theorem exists_root_of_im_ne_zero {a : Fp2} (ha : a.Reduced) {y : Extension} (hy : y ^ 2 = a.val)
    (him : a.im ≠ 0) : ∃ r ∈ a.rootCandidates, r.val ^ 2 = a.val := by
  obtain ⟨hdiff, hprod⟩ := sq_eq_val_iff.1 hy
  have hhalf : ((inverse 2 : Nat) : ZMod modulus) = 2⁻¹ := by rw [cast_inverse, Nat.cast_ofNat]
  have hre : y.re ≠ 0 := by
    intro hzero
    rw [hzero, zero_mul, mul_zero] at hprod
    exact him ((cast_inj ha.im_lt modulus_prime.out.pos).1 (hprod.symm.trans Nat.cast_zero.symm))
  have hnorm : (y.re ^ 2 + y.im ^ 2) ^ 2 = (a.norm : ZMod modulus) := by
    rw [cast_norm, ← hy, map_pow, QuadraticAlgebra.norm_def]
    ring
  obtain ⟨n, hn⟩ := exists_sqrt? hnorm
  rw [rootCandidates, if_neg him, hn]
  have hsign : (n : ZMod modulus) = y.re ^ 2 + y.im ^ 2 ∨
      (n : ZMod modulus) = -(y.re ^ 2 + y.im ^ 2) :=
    sq_eq_sq_iff_eq_or_eq_neg.1 ((sq_of_sqrt? hn).1.trans hnorm.symm)
  rcases hsign with hplus | hminus
  · have hs : (((a.re + n) * inverse 2 % modulus : Nat) : ZMod modulus) = y.re ^ 2 := by
      rw [ZMod.natCast_mod, Nat.cast_mul, Nat.cast_add, hhalf, hplus, ← hdiff]
      field_simp [zmod_two_ne_zero]
      ring
    obtain ⟨r, hr, hsquare⟩ := exists_mem_rootFrom hy hre hs
    exact ⟨r, List.mem_append_left _ (Option.mem_toList.2 hr), hsquare⟩
  · have hs : ((difference a.re n * inverse 2 % modulus : Nat) : ZMod modulus) = y.re ^ 2 := by
      rw [ZMod.natCast_mod, Nat.cast_mul, cast_difference, hhalf, hminus, ← hdiff]
      field_simp [zmod_two_ne_zero]
      ring
    obtain ⟨r, hr, hsquare⟩ := exists_mem_rootFrom hy hre hs
    exact ⟨r, List.mem_append_right _ (Option.mem_toList.2 hr), hsquare⟩

/-- **Every square has a square root.** -/
theorem exists_sqrt?_of_sq {a : Fp2} (ha : a.Reduced) {y : Extension} (hy : y ^ 2 = a.val) :
    ∃ r, a.sqrt? = some r := by
  obtain ⟨r, hr, hsquare⟩ : ∃ r ∈ a.rootCandidates, r.val ^ 2 = a.val := by
    by_cases him : a.im = 0
    · exact exists_root_of_im_eq_zero hy him
    · exact exists_root_of_im_ne_zero ha hy him
  refine Option.isSome_iff_exists.1 (List.find?_isSome.2 ⟨r, hr, decide_eq_true ?_⟩)
  rw [← val_inj (reduced_square r) ha, val_square, hsquare]

/-- A root that is found is reduced. -/
theorem reduced_of_sqrt? {a r : Fp2} (h : a.sqrt? = some r) : r.Reduced :=
  reduced_of_mem_rootCandidates (List.mem_of_find?_eq_some h)

/-! ## Larger and smaller -/

theorem difference_zero {x : Nat} (hx : x < modulus) :
    difference 0 x = if x = 0 then 0 else modulus - x := by
  rw [difference, Nat.zero_add, Nat.mod_eq_of_lt hx]
  split
  case isTrue hzero => rw [hzero, Nat.sub_zero, Nat.mod_self]
  case isFalse hpos => exact Nat.mod_eq_of_lt (by omega)

/-- **Of a number and its opposite one is the larger.** -/
theorem isLarger_neg {a : Fp2} (ha : a.Reduced) (hzero : a ≠ zero) :
    a.neg.isLarger = !a.isLarger := by
  obtain ⟨re, im⟩ := a
  have hre : re < modulus := ha.re_lt
  have him : im < modulus := ha.im_lt
  have hodd := modulus_odd
  rw [ne_eq, zero, Fp2.mk.injEq] at hzero
  simp only [neg, sub, zero, isLarger, difference_zero hre, difference_zero him]
  by_cases him0 : im = 0
  · have hre0 : re ≠ 0 := fun h => hzero ⟨h, him0⟩
    simp only [him0, hre0, if_true, if_false, ← decide_not, decide_eq_decide]
    omega
  · have himag : modulus - im ≠ 0 := by omega
    simp only [him0, himag, if_false, ← decide_not, decide_eq_decide]
    omega

end Fp2

end Saboteur.Bls
