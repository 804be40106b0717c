import Saboteur.Payload
import Saboteur.Proofs.Bytes.Base64
import Saboteur.Proofs.Ssz.Blocks

/-!
# The texts of payloads

For every hook that carries something, values and texts correspond one to one: each value of the
hook's kind is read from its own text, and up to blanks around it no other text is read as that
value. So a call that is answered with its own payload gets back exactly what it sent.
-/

namespace Saboteur.Payload

/-! ## Bytes of payloads -/

/-- The bytes of a payload that a call can carry. -/
def wire? : Payload → Option (List UInt8)
  | block b => some (Ssz.encode b)
  | signedBlock b => some (Ssz.encode b)
  | attestationData d => some (Ssz.encode d)
  | attestation a => some (Ssz.encode a)
  | root _ => none

theorem exists_wire? {x : Payload} (h : x.kind ≠ .none) : ∃ bytes, x.wire? = some bytes := by
  cases x with
  | root r => exact absurd rfl h
  | _ => exact ⟨_, rfl⟩

theorem encode_of_wire? {x : Payload} {bytes : List UInt8} (h : x.wire? = some bytes) :
    x.encode = Base64.encode bytes := by
  cases x with
  | root r => cases h
  | _ => rw [← Option.some.inj h]; rfl

theorem ne_nil_of_wire? {x : Payload} {bytes : List UInt8} (h : x.wire? = some bytes) :
    bytes ≠ [] := by
  rw [← List.length_pos_iff]
  cases x with
  | block b =>
    cases h
    exact Nat.lt_of_lt_of_le (by decide) (Block.container.layoutSize_le b)
  | signedBlock b =>
    cases h
    exact Nat.lt_of_lt_of_le (by decide) (SignedBlock.container.layoutSize_le b)
  | attestationData d =>
    cases h
    exact Nat.lt_of_lt_of_le (by decide) (AttestationData.container.layoutSize_le d)
  | attestation a =>
    cases h
    exact Nat.lt_of_lt_of_le (by decide) (Attestation.container.layoutSize_le a)
  | root r => cases h

/-- Bytes are read as a payload exactly when they are the bytes of that payload. -/
theorem ofBytes_eq_ok_some_iff {kind : PayloadKind} {bytes : List UInt8} {x : Payload} :
    ofBytes kind bytes = .ok (some x) ↔ x.kind = kind ∧ x.wire? = some bytes := by
  cases kind with
  | none => cases x <;> simp [ofBytes, Payload.kind, wire?]
  | _ =>
    rw [ofBytes, map_eq_ok_iff]
    simp only [Ssz.decode_eq_ok_iff, Function.comp_apply, Option.some.injEq]
    cases x <;> simp [Payload.kind, wire?, eq_comm]

/-! ## Texts -/

/-- A text is read as a payload exactly when it is the text of that payload, but for blanks. -/
theorem decode_eq_ok_some_iff {h : Hook} {t : String} {x : Payload} :
    decode h t = .ok (some x) ↔
      x.kind = h.payloadKind ∧ ∃ bytes, x.wire? = some bytes ∧
        Text.trim t = Base64.encode bytes := by
  simp only [decode]
  constructor
  · intro hx
    split at hx
    case isTrue => cases hx
    case isFalse =>
      split at hx
      case isTrue => cases hx
      case isFalse =>
        split at hx
        case h_1 => cases hx
        case h_2 bytes hbytes =>
          rw [mapError_eq_ok_iff, ofBytes_eq_ok_some_iff] at hx
          exact ⟨hx.1, bytes, hx.2, Base64.decode_eq_ok_iff.1 hbytes⟩
  · rintro ⟨hkind, bytes, hwire, htext⟩
    -- only a root has no kind, and a root has no bytes
    have hnone : h.payloadKind ≠ .none := by
      rw [← hkind]
      intro hroot
      cases x with
      | root r => cases hwire
      | _ => cases hroot
    rw [htext, if_neg (Base64.encode_ne_empty (ne_nil_of_wire? hwire)), if_neg hnone]
    simp only [Base64.decode_eq_ok_iff.2 rfl]
    rw [mapError_eq_ok_iff]
    exact ofBytes_eq_ok_some_iff.2 ⟨hkind, hwire⟩

/-- **Values and canonical texts correspond one to one for every hook that carries something.** -/
theorem decode_encode_bijection (h : Hook) (hcarries : h.payloadKind ≠ .none) :
    (∀ x : Payload, x.kind = h.payloadKind → decode h x.encode = .ok (some x)) ∧
      (∀ (t : String) (x : Payload), decode h t = .ok (some x) →
        x.kind = h.payloadKind ∧ x.encode = Text.trim t) ∧
      ∀ (t t' : String) (x : Payload), decode h t = .ok (some x) → decode h t' = .ok (some x) →
        Text.trim t = Text.trim t' := by
  have hunique : ∀ (t : String) (x : Payload), decode h t = .ok (some x) →
      x.kind = h.payloadKind ∧ x.encode = Text.trim t := by
    intro t x hx
    obtain ⟨hkind, bytes, hwire, htext⟩ := decode_eq_ok_some_iff.1 hx
    exact ⟨hkind, by rw [encode_of_wire? hwire, htext]⟩
  refine ⟨fun x hkind => ?_, hunique, fun t t' x hx hx' => ?_⟩
  · obtain ⟨bytes, hwire⟩ := exists_wire? (hkind ▸ hcarries)
    refine decode_eq_ok_some_iff.2 ⟨hkind, bytes, hwire, ?_⟩
    rw [encode_of_wire? hwire, Base64.trim_encode]
  · rw [← (hunique t x hx).2, (hunique t' x hx').2]

theorem decode_encode_bijection_attestBeforeSign :
    Hook.attestBeforeSign.payloadKind ≠ .none ∧
      decode .attestBeforeSign (attestationData (.vote ⟨9⟩ 0 Root.zero)).encode =
        .ok (some (attestationData (.vote ⟨9⟩ 0 Root.zero))) ∧
      ∀ t, decode .attestBeforeSign t = .ok (some (attestationData (.vote ⟨9⟩ 0 Root.zero))) →
        (attestationData (.vote ⟨9⟩ 0 Root.zero)).encode = Text.trim t := by
  obtain ⟨hread, hunique, -⟩ := decode_encode_bijection .attestBeforeSign (by decide)
  exact ⟨by decide, hread _ rfl, fun t ht => (hunique t _ ht).2⟩

end Saboteur.Payload
