/-!
# The fields of BLS12-381

The prime field and its quadratic extension by a square root of minus one. Elements of the prime
field are natural numbers below the modulus; every operation reduces its result.

Because the modulus leaves three when divided by four, a square root in the prime field is a power,
and a square root in the extension is found from square roots in the prime field.
-/

namespace Saboteur.Bls

/-- The modulus of the prime field. -/
def modulus : Nat :=
  0x1a0111ea397fe69a4b1ba7b6434bacd764774b84f38512bf6730d2a0f6b0f6241eabfffeb153ffffb9feffffffffaaab

/-- A power in the prime field. -/
def power (b e : Nat) : Nat :=
  if e = 0 then 1
  else
    let half := power (b * b % modulus) (e / 2)
    if e % 2 = 1 then b * half % modulus else half
termination_by e

/-- The inverse of an element, and zero for zero. -/
def inverse (a : Nat) : Nat := power a (modulus - 2)

/-- The difference of two elements. -/
def difference (a b : Nat) : Nat := (a + (modulus - b % modulus)) % modulus

/-- A square root of an element, if it has one. -/
def sqrt? (a : Nat) : Option Nat :=
  let r := power a ((modulus + 1) / 4)
  if r * r % modulus = a % modulus then some r else none

/-- An element of the extension: a real part and a multiple of the square root of minus one. -/
structure Fp2 where
  re : Nat
  im : Nat
  deriving DecidableEq

namespace Fp2

/-- The element zero. -/
def zero : Fp2 := ⟨0, 0⟩

/-- Sum of two elements. -/
def add (a b : Fp2) : Fp2 := ⟨(a.re + b.re) % modulus, (a.im + b.im) % modulus⟩

/-- Difference of two elements. -/
def sub (a b : Fp2) : Fp2 := ⟨difference a.re b.re, difference a.im b.im⟩

/-- The opposite of an element. -/
def neg (a : Fp2) : Fp2 := sub zero a

/-- Product of two elements. -/
def mul (a b : Fp2) : Fp2 :=
  ⟨difference (a.re * b.re % modulus) (a.im * b.im % modulus),
    (a.re * b.im + a.im * b.re) % modulus⟩

/-- The square of an element. -/
def square (a : Fp2) : Fp2 := mul a a

/-- The product of an element and its conjugate. -/
def norm (a : Fp2) : Nat := (a.re * a.re + a.im * a.im) % modulus

/-- The inverse of an element, and zero for zero. -/
def inv (a : Fp2) : Fp2 :=
  let n := inverse a.norm
  ⟨a.re * n % modulus, difference 0 (a.im * n % modulus)⟩

/-- The root whose real part squares to `s`, for an element with this imaginary part. -/
def rootFrom (im s : Nat) : Option Fp2 := do
  let re ← sqrt? s
  return ⟨re, im * inverse (2 * re % modulus) % modulus⟩

/-- Candidates for a square root: from either choice of the root of the norm, and the two kinds of
root that an element without an imaginary part may have. -/
def rootCandidates (a : Fp2) : List Fp2 :=
  if a.im = 0 then
    ((sqrt? a.re).map fun r => (⟨r, 0⟩ : Fp2)).toList ++
      ((sqrt? (difference 0 a.re)).map fun r => (⟨0, r⟩ : Fp2)).toList
  else
    match sqrt? a.norm with
    | none => []
    | some n =>
      let half := inverse 2
      (rootFrom a.im ((a.re + n) * half % modulus)).toList ++
        (rootFrom a.im (difference a.re n * half % modulus)).toList

/-- A square root of an element, if it has one. -/
def sqrt? (a : Fp2) : Option Fp2 := a.rootCandidates.find? fun r => r.square = a

theorem square_of_sqrt? {a r : Fp2} (h : a.sqrt? = some r) : r.square = a := by
  simpa using List.find?_some h

/-- Whether an element is the larger of itself and its opposite: by the imaginary parts, and by the
real parts where those vanish. -/
def isLarger (a : Fp2) : Bool :=
  if a.im = 0 then (modulus - 1) / 2 < a.re else (modulus - 1) / 2 < a.im

end Fp2

end Saboteur.Bls
