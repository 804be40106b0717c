import Saboteur.Bls.Field
import Saboteur.Bytes.Octets

/-!
# Points of signatures

Signatures are points of the curve `y² = x³ + 4(1 + i)` over the extension field, or the point at
infinity. A point is written as its `x` in 96 bytes. The three high bits of the first byte say that
the form is compressed, whether the point is the one at infinity, and which of the two possible `y`
it has.

Reading checks that the point lies on the curve, and not that it lies in the prime-order subgroup.
-/

namespace Saboteur.Bls

/-- A point of the curve. -/
inductive Point where
  | infinity
  | affine (x y : Fp2)
  deriving DecidableEq

namespace Point

/-- The constant of the curve. -/
def curveConstant : Fp2 := ⟨4, 4⟩

/-- The right-hand side of the curve's equation. -/
def curveRhs (x : Fp2) : Fp2 := ((x.square).mul x).add curveConstant

/-- Whether a point satisfies the curve's equation. -/
def OnCurve : Point → Prop
  | infinity => True
  | affine x y => y.square = curveRhs x

/-- The third intersection of a line of this slope with the curve, reflected. -/
def chord (slope x₁ y₁ x₂ : Fp2) : Point :=
  let x := ((slope.square).sub x₁).sub x₂
  affine x ((slope.mul (x₁.sub x)).sub y₁)

/-- The sum of two points. -/
def add : Point → Point → Point
  | infinity, q => q
  | p, infinity => p
  | affine x₁ y₁, affine x₂ y₂ =>
    if x₁ = x₂ then
      if y₁ = y₂ ∧ y₁ ≠ Fp2.zero then
        let slope := (Fp2.mul ⟨3, 0⟩ x₁.square).mul (y₁.add y₁).inv
        chord slope x₁ y₁ x₁
      else infinity
    else chord ((y₂.sub y₁).mul (x₂.sub x₁).inv) x₁ y₁ x₂

/-- The sum of a list of points. -/
def sum (ps : List Point) : Point := ps.foldl add infinity

/-! ## The compressed form -/

/-- Why 96 bytes are no compressed point. -/
inductive EncodingError where
  /-- The flags or the coordinates have no meaning. -/
  | badEncoding
  /-- No point of the curve has this `x`. -/
  | notOnCurve
  deriving DecidableEq

/-- The name of an encoding error. -/
def EncodingError.name : EncodingError → String
  | .badEncoding => "BLST_BAD_ENCODING"
  | .notOnCurve => "BLST_POINT_NOT_ON_CURVE"

/-- The bytes of the point at infinity. -/
def infinityBytes : List UInt8 := 0xc0 :: List.replicate 95 0

/-- The point with this `x` and the larger or smaller of its two `y`. -/
def lift (x : Fp2) (larger : Bool) : Except EncodingError Point :=
  match (curveRhs x).sqrt? with
  | none => .error .notOnCurve
  | some y => .ok (affine x (if y.isLarger = larger then y else y.neg))

/-- Reads the compressed form. -/
def decompress (bytes : Octets 96) : Except EncodingError Point :=
  match bytes.toList with
  | [] => .error .badEncoding
  | flags :: rest =>
    let f := flags.toNat
    if f < 0x80 then .error .badEncoding
    else if 0x40 ≤ f % 0x80 then
      if bytes.toList = infinityBytes then .ok infinity else .error .badEncoding
    else
      let im := ofBigEndian (UInt8.ofNat (f % 0x20) :: rest.take 47)
      let re := ofBigEndian (rest.drop 47)
      if modulus ≤ im ∨ modulus ≤ re then .error .badEncoding
      else lift ⟨re, im⟩ (0x20 ≤ f % 0x40)

/-- Adds flags to the first of some bytes. -/
def flagged (flags : Nat) : List UInt8 → List UInt8
  | [] => []
  | b :: rest => UInt8.ofNat (b.toNat + flags) :: rest

theorem length_flagged (flags : Nat) (bytes : List UInt8) :
    (flagged flags bytes).length = bytes.length := by
  cases bytes <;> rfl

/-- The compressed form of a point. -/
def compress : Point → Octets 96
  | infinity => ⟨infinityBytes, rfl⟩
  | affine x y =>
    ⟨flagged (if y.isLarger then 0xa0 else 0x80) (bigEndian 48 x.im) ++ bigEndian 48 x.re, by
      simp [length_flagged, bigEndian, length_littleEndian]⟩

end Point

end Saboteur.Bls
