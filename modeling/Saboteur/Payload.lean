import Saboteur.Block
import Saboteur.Bytes.Base64
import Saboteur.Hook
import Saboteur.Text.Cutting

/-!
# Payloads

What a hook call carries: a block, a signed block, the data of an attestation or an attestation, in
the wire format and written in base64. The kind of the hook decides how the bytes are read. Blanks
around the text are ignored, and an empty text carries nothing.

An answer may also hand out a root, which no call ever carries. It is written in hexadecimal digits.
-/

namespace Saboteur

/-- A value that a call or an answer carries. -/
inductive Payload where
  | block (b : Block)
  | signedBlock (b : SignedBlock)
  | attestationData (d : AttestationData)
  | attestation (a : Attestation)
  | root (r : Root)
  deriving DecidableEq

namespace Payload

/-- Why a text carries no payload for a hook. -/
inductive DecodeError where
  | base64 (e : Base64.DecodeError)
  | ssz (e : Ssz.DecodeError)
  /-- A text was sent with a hook whose calls carry nothing. -/
  | unexpected (h : Hook)
  deriving DecidableEq

/-- The kind of a payload error. -/
def DecodeError.kind : DecodeError → String
  | .base64 _ => "Base64"
  | .ssz _ => "Ssz"
  | .unexpected _ => "UnexpectedPayload"

/-- The wording of a payload error. -/
def DecodeError.message : DecodeError → String
  | .base64 e => e.message
  | .ssz e => e.message
  | .unexpected h => h.name

/-- What kind of payload a value is. A root is none that a call carries. -/
def kind : Payload → PayloadKind
  | block _ => .block
  | signedBlock _ => .signedBlock
  | attestationData _ => .attestationData
  | attestation _ => .attestation
  | root _ => .none

/-- Whether a value is a block, signed or not. -/
def isBlock : Payload → Bool
  | block _ | signedBlock _ => true
  | _ => false

/-- Reads the bytes of a payload of a kind. Nothing is read where calls carry nothing. -/
def ofBytes (kind : PayloadKind) (bytes : List UInt8) : Except Ssz.DecodeError (Option Payload) :=
  match kind with
  | .none => .ok none
  | .block => (Ssz.decode bytes).map (some ∘ block)
  | .signedBlock => (Ssz.decode bytes).map (some ∘ signedBlock)
  | .attestationData => (Ssz.decode bytes).map (some ∘ attestationData)
  | .attestation => (Ssz.decode bytes).map (some ∘ attestation)

/-- Reads the text of a call. -/
def decode (h : Hook) (text : String) : Except DecodeError (Option Payload) :=
  let s := Text.trim text
  if s = "" then .ok none
  else if h.payloadKind = .none then .error (.unexpected h)
  else match Base64.decode s with
    | .error e => .error (.base64 e)
    | .ok bytes => (ofBytes h.payloadKind bytes).mapError .ssz

/-- The text of a payload in an answer. -/
def encode : Payload → String
  | block b => Base64.encode (Ssz.encode b)
  | signedBlock b => Base64.encode (Ssz.encode b)
  | attestationData d => Base64.encode (Ssz.encode d)
  | attestation a => Base64.encode (Ssz.encode a)
  | root r => r.display

instance : WriteJson Payload where
  write
    | block b => write b
    | signedBlock b => write b
    | attestationData d => write d
    | attestation a => write a
    | root r => write r

end Payload

end Saboteur
