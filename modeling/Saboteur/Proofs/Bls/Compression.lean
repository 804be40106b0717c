import Saboteur.Proofs.Bls.Curve
import Saboteur.Proofs.Bytes.Reading

/-!
# Compressed points

What is read from the compressed form is a point of the curve, and every point of the curve is read
back from its compressed form.
-/

namespace Saboteur.Bls.Point

/-! ## Lifting -/

theorem valid_of_lift {x : Fp2} {larger : Bool} {p : Point} (hx : x.Reduced)
    (h : lift x larger = .ok p) : p.Valid := by
  unfold lift at h
  split at h
  case h_1 => cases h
  case h_2 y hy =>
    cases h
    have hreduced : y.Reduced := Fp2.reduced_of_sqrt? hy
    have hsquare : y.square = curveRhs x := Fp2.square_of_sqrt? hy
    split
    · exact .affine hx hreduced hsquare
    · refine .affine hx (Fp2.reduced_neg y) ?_
      show y.neg.square = curveRhs x
      rw [← hsquare, ← Fp2.val_inj (Fp2.reduced_square _) (Fp2.reduced_square _)]
      simp

/-- **A point is found again from its `x` and from which of the two `y` it has.** -/
theorem lift_isLarger {x y : Fp2} (hy : y.Reduced) (h : OnCurve (affine x y)) :
    lift x y.isLarger = .ok (affine x y) := by
  have hsquare : y.square = curveRhs x := h
  obtain ⟨r, hr⟩ : ∃ r, (curveRhs x).sqrt? = some r := by
    refine Fp2.exists_sqrt?_of_sq (y := y.val) (Fp2.reduced_add _ _) ?_
    rw [← hsquare, Fp2.val_square]
  have hreduced : r.Reduced := Fp2.reduced_of_sqrt? hr
  have hroots : r.val ^ 2 = y.val ^ 2 := by
    rw [← Fp2.val_square, ← Fp2.val_square, Fp2.square_of_sqrt? hr, hsquare]
  suffices hchosen : (if r.isLarger = y.isLarger then r else r.neg) = y by
    rw [lift, hr]
    exact congrArg (fun y => Except.ok (affine x y)) hchosen
  by_cases hsame : r = y
  · rw [hsame, if_pos rfl]
  · -- the root that was found is the opposite of `y`, and only one of the two is the larger
    have hneg : y = r.neg := by
      rw [← Fp2.val_inj hy (Fp2.reduced_neg r), Fp2.val_neg]
      rcases sq_eq_sq_iff_eq_or_eq_neg.1 hroots with heq | hopposite
      · exact absurd ((Fp2.val_inj hreduced hy).1 heq) hsame
      · rw [hopposite, neg_neg]
    have hzero : r ≠ Fp2.zero := by
      rintro rfl
      exact hsame (hneg ▸ rfl)
    rw [hneg, Fp2.isLarger_neg hreduced hzero, if_neg (by simp)]

/-! ## Reading -/

/-- **What is read is a point of the curve.** -/
theorem valid_of_decompress {bytes : Octets 96} {p : Point} (h : decompress bytes = .ok p) :
    p.Valid := by
  unfold decompress at h
  split at h
  case h_1 => cases h
  case h_2 flags rest _ =>
    dsimp only at h
    split at h
    case isTrue => cases h
    case isFalse =>
      split at h
      case isTrue =>
        split at h
        case isTrue =>
          cases h
          exact .infinity
        case isFalse => cases h
      case isFalse =>
        split at h
        case isTrue => cases h
        case isFalse hsmall =>
          rw [not_or, Nat.not_le, Nat.not_le] at hsmall
          exact valid_of_lift ⟨hsmall.2, hsmall.1⟩ h

/-- The first byte of a coordinate leaves room for the flags. -/
theorem bigEndian_modulus {v : Nat} (hv : v < modulus) :
    ∃ b : UInt8, b.toNat < 0x20 ∧ bigEndian 48 v = b :: bigEndian 47 v := by
  refine ⟨_, ?_, bigEndian_succ 47 v⟩
  have hhigh : v / Nat.pow 256 47 < 0x20 := by
    refine Nat.div_lt_of_lt_mul (hv.trans ?_)
    decide +kernel
  show v / Nat.pow 256 47 % 256 % 256 < 0x20
  rw [Nat.mod_mod]
  exact (Nat.mod_le _ _).trans_lt hhigh

/-- Reading cuts the flags off and puts the coordinates together. -/
theorem decompress_of_flags {bytes : Octets 96} {flags : UInt8} {rest : List UInt8} {x : Fp2}
    {larger : Bool} (hbytes : bytes.toList = flags :: rest) (hcompressed : 0x80 ≤ flags.toNat)
    (hfinite : flags.toNat % 0x80 < 0x40) (hlarger : larger = decide (0x20 ≤ flags.toNat % 0x40))
    (hx : x.Reduced)
    (him : ofBigEndian (UInt8.ofNat (flags.toNat % 0x20) :: rest.take 47) = x.im)
    (hre : ofBigEndian (rest.drop 47) = x.re) : decompress bytes = lift x larger := by
  have hsmall : ¬(modulus ≤ x.im ∨ modulus ≤ x.re) := by
    rw [not_or, Nat.not_le, Nat.not_le]
    exact ⟨hx.im_lt, hx.re_lt⟩
  rw [decompress, hbytes]
  simp only [Nat.not_lt_of_le hcompressed, Nat.not_le_of_lt hfinite, him, hre, hsmall, hlarger,
    if_false]

/-- **A point of the curve is read back from its compressed form.** -/
theorem decompress_compress {p : Point} (hp : p.Valid) : decompress p.compress = .ok p := by
  cases hp with
  | infinity => rfl
  | @affine x y hx hy hon =>
    obtain ⟨b, hb, him⟩ := bigEndian_modulus hx.im_lt
    have hlength : (bigEndian 47 x.im).length = 47 := by
      rw [bigEndian, List.length_reverse, length_littleEndian]
    have hread : ∀ {v : Nat}, v < modulus → ofBigEndian (bigEndian 48 v) = v := fun hv =>
      ofBigEndian_bigEndian (hv.trans (by decide +kernel))
    rw [← lift_isLarger hy hon]
    have hbytes : (compress (affine x y)).toList =
        UInt8.ofNat (b.toNat + if y.isLarger then 0xa0 else 0x80) ::
          (bigEndian 47 x.im ++ bigEndian 48 x.re) := by
      show flagged _ (bigEndian 48 x.im) ++ _ = _
      rw [him]
      rfl
    have hflags : (UInt8.ofNat (b.toNat + if y.isLarger then 0xa0 else 0x80)).toNat =
        b.toNat + if y.isLarger then 0xa0 else 0x80 := by
      refine Nat.mod_eq_of_lt ?_
      split <;> omega
    refine decompress_of_flags hbytes ?_ ?_ ?_ hx ?_ ?_
    · rw [hflags]
      split <;> omega
    · rw [hflags]
      split <;> omega
    · rw [hflags]
      cases y.isLarger <;> simp <;> omega
    · have hlow : (b.toNat + if y.isLarger then 0xa0 else 0x80) % 0x20 = b.toNat := by
        split <;> omega
      rw [hflags, hlow, UInt8.ofNat_toNat, List.take_left' hlength, ← him, hread hx.im_lt]
    · rw [List.drop_left' hlength, hread hx.re_lt]

end Saboteur.Bls.Point
