/-!
# The shortest decimal of a double

A double stands for a whole interval of reals: those that round to it. Its shortest decimal is the
one with the fewest digits in that interval, and the nearest of those where there are several. The
search tries one digit, two digits, and so on, and looks at the two neighbours of the value on the
grid of that many digits. All arithmetic is exact.
-/

namespace Saboteur.Decimal

/-- A number of digits and the power of ten that they are multiplied by. -/
structure Digits where
  digits : Nat
  exponent : Int
  deriving DecidableEq, Repr

/-- A positive double `mantissa · 2 ^ exponent`. -/
structure Binary where
  mantissa : Nat
  exponent : Int
  /-- The gap to the next smaller double is half the gap to the next larger one. -/
  narrowBelow : Bool

/-- The leading bit of a mantissa, which the bits of a double leave out: `2 ^ 52`. -/
def leadingBit : Nat := 4503599627370496

/-- The parts of the bits of a positive, finite double. -/
def Binary.ofBits (bits : Nat) : Binary :=
  let fraction : Nat := bits % leadingBit
  let biased : Nat := bits / leadingBit % 2048
  if biased = 0 then ⟨fraction, -1074, false⟩
  else ⟨leadingBit + fraction, (biased : Int) - 1075, fraction == 0 && decide (1 < biased)⟩

/-- Two to a power, and one if the exponent is negative. -/
def two (p : Int) : Nat := Nat.pow 2 p.toNat

/-- Ten to a power, and one if the exponent is negative. -/
def ten (p : Int) : Nat := Nat.pow 10 p.toNat

/-- How `a · 2 ^ p` compares with a decimal. -/
def compareScaled (a : Nat) (p : Int) (d : Digits) : Ordering :=
  let left := a * two p * ten (-d.exponent)
  let right := d.digits * ten d.exponent * two (-p)
  if left < right then .lt else if left = right then .eq else .gt

/-- The number of decimal digits of a natural number. -/
def digitCount (n : Nat) : Nat := (Nat.repr n).length

/-- The power of ten of the first digit of a positive double. -/
def leadingExponent (b : Binary) : Int :=
  let num := b.mantissa * two b.exponent
  let den := two (-b.exponent)
  let guess := (digitCount num : Int) - digitCount den
  if compareScaled b.mantissa b.exponent ⟨1, guess⟩ = .lt then guess - 1 else guess

/-- Whether a decimal lies in the interval of a double. Quarters of the last place are counted, and
the ends belong to the interval of an even mantissa. -/
def rounds (b : Binary) (d : Digits) : Bool :=
  let low := compareScaled (4 * b.mantissa - (if b.narrowBelow then 1 else 2)) (b.exponent - 2) d
  let high := compareScaled (4 * b.mantissa + 2) (b.exponent - 2) d
  let even := b.mantissa % 2 == 0
  (low == .lt || (even && low == .eq)) && (high == .gt || (even && high == .eq))

/-- The decimal of `n` digits in the interval of a double that is nearest to it, if there is one. -/
def ofLength? (b : Binary) (n : Nat) : Option Digits :=
  let e := leadingExponent b - (n : Int) + 1
  let below := b.mantissa * two b.exponent * ten (-e) / (ten e * two (-b.exponent))
  let down : Digits := ⟨below, e⟩
  let up : Digits := ⟨below + 1, e⟩
  match rounds b down, rounds b up with
  | true, true =>
    -- twice the value against the sum of both neighbours
    if compareScaled (2 * b.mantissa) b.exponent ⟨2 * below + 1, e⟩ = .gt then some up
    else some down
  | true, false => some down
  | false, true => some up
  | false, false => none

/-- The shortest decimal in the interval of a positive double. -/
def shortest (b : Binary) : Digits :=
  (((List.range 17).map (· + 1)).findSome? (ofLength? b)).getD ⟨0, 0⟩

/-- A decimal without zeros at its end. -/
def trimZeros (d : Digits) : Digits :=
  if d.digits ≠ 0 ∧ d.digits % 10 = 0 then trimZeros ⟨d.digits / 10, d.exponent + 1⟩ else d
termination_by d.digits
decreasing_by exact Nat.div_lt_self (Nat.pos_of_ne_zero (by simp_all)) (by omega)

end Saboteur.Decimal
