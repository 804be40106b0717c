import Mathlib.FieldTheory.Finite.Basic
import Mathlib.Tactic.NormNum.Prime
import Saboteur.Bls.Field

/-!
# The modulus is prime

Everything that is said about points rests on it. Large numbers are shown to be prime by a
certificate: some prime factors of the number before, with a base whose powers tell that the product
of these factors divides one less than any prime factor of the number. Where the product is large
enough no two such factors fit into the number.

The powers are reckoned by squaring, in a form that the kernel can evaluate.
-/

namespace Saboteur.Bls

/-! ## Powers -/

/-- A power modulo `n` whose exponent has at most so many binary digits. -/
def powMod (n : ℕ) : ℕ → ℕ → ℕ → ℕ
  | 0, _, _ => 1 % n
  | digits + 1, a, e =>
    let rest := powMod n digits (a * a % n) (e / 2)
    if e % 2 = 1 then rest * a % n else rest

theorem powMod_eq {n digits e : ℕ} (a : ℕ) (h : e < 2 ^ digits) :
    powMod n digits a e = a ^ e % n := by
  induction digits generalizing a e with
  | zero =>
    rw [pow_zero, Nat.lt_one_iff] at h
    rw [h, powMod, pow_zero]
  | succ digits ih =>
    have hhalf : e / 2 < 2 ^ digits := by omega
    have hsquares : (a * a % n) ^ (e / 2) % n = a ^ (2 * (e / 2)) % n := by
      rw [← Nat.pow_mod, pow_mul, pow_two]
    simp only [powMod, ih _ hhalf, hsquares]
    split
    case isTrue hodd => rw [Nat.mod_mul_mod, ← pow_succ, ← hodd, Nat.div_add_mod]
    case isFalse heven => rw [show 2 * (e / 2) = e by omega]

/-! ## Certificates -/

/-- What shows that a number is prime. -/
structure Certificate (n : ℕ) where
  /-- Prime factors of the number before. -/
  factors : List ℕ
  prime_of_mem : ∀ q ∈ factors, q.Prime
  cofactor : ℕ
  eq_succ : n = factors.prod * cofactor + 1 := by decide +kernel
  /-- The product of the factors is large. -/
  large : cofactor / factors.prod + 1 < cofactor % factors.prod := by decide +kernel
  digits : ℕ
  le_pow : n ≤ 2 ^ digits := by decide +kernel
  base : ℕ
  power_eq_one : powMod n digits base (n - 1) = 1 := by decide +kernel
  /-- A root of that power is one modulo no factor of the number. -/
  root_coprime : ∀ q ∈ factors, (powMod n digits base ((n - 1) / q) - 1).Coprime n := by
    decide +kernel

namespace Certificate

/-- Two factors that leave one when divided by `d` need a large quotient. -/
theorem mod_le_of_mul_eq {d i k s : ℕ} (hd : 0 < d) (hi : i ≠ 0) (hs : 0 < s) (hone : s ≠ 1)
    (h : d * k + 1 = (d * i + 1) * s) : k % d ≤ k / d + 1 := by
  obtain ⟨j, hj⟩ : d ∣ s - 1 := by
    have hsum : d * k = d * (i * s) + (s - 1) := by
      rw [Nat.add_one_mul, mul_assoc] at h
      omega
    exact (Nat.dvd_add_right (Dvd.intro _ rfl)).1 (hsum ▸ Dvd.intro _ rfl)
  obtain rfl : s = d * j + 1 := Nat.eq_add_of_sub_eq hs hj
  have hj0 : j ≠ 0 := fun hzero => hone (by rw [hzero, mul_zero])
  obtain rfl : k = d * (i * j) + (i + j) := by
    refine Nat.eq_of_mul_eq_mul_left hd ?_
    linarith
  have hdiv : i * j ≤ (d * (i * j) + (i + j)) / d := by
    rw [Nat.le_div_iff_mul_le hd, mul_comm]
    exact Nat.le_add_right _ _
  have hmod : (d * (i * j) + (i + j)) % d ≤ i + j := by
    rw [Nat.mul_add_mod]
    exact Nat.mod_le _ _
  have hsum : i + j ≤ i * j + 1 := by
    have := Nat.one_le_iff_ne_zero.2 hi
    have := Nat.one_le_iff_ne_zero.2 hj0
    nlinarith
  omega

variable {n : ℕ} (c : Certificate n)

include c

theorem prod_pos : 0 < c.factors.prod := List.prod_pos fun q hq => (c.prime_of_mem q hq).pos

theorem cofactor_pos : 0 < c.cofactor := by
  refine Nat.pos_of_ne_zero fun hzero => ?_
  have hlarge := c.large
  rw [hzero, Nat.zero_mod] at hlarge
  exact Nat.not_lt_zero _ hlarge

theorem one_lt : 1 < n := by
  rw [c.eq_succ]
  exact Nat.succ_lt_succ (Nat.mul_pos c.prod_pos c.cofactor_pos)

theorem sub_one_eq : n - 1 = c.factors.prod * c.cofactor := Nat.sub_eq_of_eq_add c.eq_succ

theorem cast_powMod {r e : ℕ} (hr : r ∣ n) (he : e < n) :
    ((powMod n c.digits c.base e : ℕ) : ZMod r) = (c.base : ZMod r) ^ e := by
  rw [powMod_eq _ (he.trans_le c.le_pow), ← Nat.cast_pow, ZMod.natCast_eq_natCast_iff',
    Nat.mod_mod_of_dvd _ hr]

/-- The order of a power of the base is the product of the factors, modulo each prime factor of the
number. -/
theorem orderOf_eq {r : ℕ} (hr : r.Prime) (hrn : r ∣ n) :
    orderOf ((c.base : ZMod r) ^ c.cofactor) = c.factors.prod := by
  have hfact : Fact r.Prime := ⟨hr⟩
  have hlt : n - 1 < n := Nat.sub_one_lt_of_lt c.one_lt
  refine orderOf_eq_of_pow_and_pow_div_prime c.prod_pos ?_ fun q hq hdvd heq => ?_
  · rw [← pow_mul, mul_comm, ← c.sub_one_eq, ← c.cast_powMod hrn hlt, c.power_eq_one,
      Nat.cast_one]
  · have hmem : q ∈ c.factors :=
      mem_list_primes_of_dvd_prod hq.prime (fun p hp => (c.prime_of_mem p hp).prime) hdvd
    have hroot : ((powMod n c.digits c.base ((n - 1) / q) : ℕ) : ZMod r) = 1 := by
      rw [c.cast_powMod hrn ((Nat.div_le_self _ _).trans_lt hlt), c.sub_one_eq, mul_comm,
        Nat.mul_div_assoc _ hdvd, pow_mul, heq]
    have hpos : 1 ≤ powMod n c.digits c.base ((n - 1) / q) := by
      refine Nat.one_le_iff_ne_zero.2 fun hzero => ?_
      rw [hzero, Nat.cast_zero] at hroot
      exact zero_ne_one hroot
    -- a factor of the number would divide a root less one, and the two are coprime
    have hdiv : r ∣ powMod n c.digits c.base ((n - 1) / q) - 1 := by
      rw [← ZMod.natCast_eq_zero_iff, Nat.cast_sub hpos, hroot, Nat.cast_one, sub_self]
    exact hr.one_lt.ne' (Nat.eq_one_of_dvd_coprimes (c.root_coprime q hmem) hdiv hrn)

/-- **The product of the factors divides one less than any prime factor of the number.** -/
theorem prod_dvd_sub_one {r : ℕ} (hr : r.Prime) (hrn : r ∣ n) : c.factors.prod ∣ r - 1 := by
  have hfact : Fact r.Prime := ⟨hr⟩
  rw [← c.orderOf_eq hr hrn]
  refine ZMod.orderOf_dvd_card_sub_one fun hzero => ?_
  have horder := c.orderOf_eq hr hrn
  rw [hzero, orderOf_zero] at horder
  exact c.prod_pos.ne horder

/-- **A number with a certificate is prime.** -/
theorem prime : n.Prime := by
  obtain ⟨r, hr, s, hs⟩ := Nat.exists_prime_and_dvd c.one_lt.ne'
  by_cases hone : s = 1
  · rwa [hs, hone, mul_one]
  have hpos : 0 < s := Nat.pos_of_mul_pos_left (hs ▸ zero_lt_one.trans c.one_lt)
  obtain ⟨i, hi⟩ := c.prod_dvd_sub_one hr ⟨s, hs⟩
  have hproduct : c.factors.prod * c.cofactor + 1 = (c.factors.prod * i + 1) * s := by
    rw [← c.eq_succ, ← hi, Nat.sub_add_cancel hr.one_le, hs]
  refine absurd c.large (Nat.not_lt_of_le (mod_le_of_mul_eq c.prod_pos ?_ hpos hone hproduct))
  rintro rfl
  exact hr.one_lt.ne' (Nat.le_antisymm (Nat.sub_eq_zero_iff_le.1 hi) hr.one_le)

end Certificate

/-! ## The modulus -/

/-- Certificates for the prime factors in the certificate of the modulus, smallest first. -/
def certificate₁ : Certificate 9272813673901 where
  factors := [582767]
  prime_of_mem := by norm_num
  cofactor := 15911700
  digits := 44
  base := 2

def certificate₂ : Certificate 1928745244171409 where
  factors := [9272813673901]
  prime_of_mem := by simpa using certificate₁.prime
  cofactor := 208
  digits := 51
  base := 3

def certificate₃ : Certificate 7259797099061183477 where
  factors := [1928745244171409]
  prime_of_mem := by simpa using certificate₂.prime
  cofactor := 3764
  digits := 63
  base := 2

def certificate₄ : Certificate 2584487767265781317813 where
  factors := [7259797099061183477]
  prime_of_mem := by simpa using certificate₃.prime
  cofactor := 356
  digits := 72
  base := 2

def modulusCertificate : Certificate modulus where
  factors := [10177, 859267, 52437899, 2584487767265781317813]
  prime_of_mem := by
    simp only [List.forall_mem_cons]
    exact ⟨by norm_num, by norm_num, by norm_num, certificate₄.prime, List.forall_mem_nil _⟩
  cofactor := 3377177252905055060729329715378333121866931200904087765894858504534390183042
  digits := 381
  base := 2

/-- **The modulus is prime.** -/
instance modulus_prime : Fact modulus.Prime := ⟨modulusCertificate.prime⟩

end Saboteur.Bls
