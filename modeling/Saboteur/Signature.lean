import Saboteur.Bls.Point
import Saboteur.Merkle
import Saboteur.Bytes.Hex

/-!
# Signatures

A signature is 96 bytes that are passed on unread. Only aggregation looks inside: it reads each
signature as a point, in order, adds the points and writes the sum.
-/

namespace Saboteur

/-- A compressed signature. -/
structure Signature where
  bytes : Octets 96
  deriving DecidableEq

namespace Signature

/-- The signature of no signer: the point at infinity. -/
def infinity : Signature := ⟨Bls.Point.infinity.compress⟩

instance : Inhabited Signature := ⟨infinity⟩

/-- The text of a signature. -/
def display (s : Signature) : String := Hex.render s.bytes.toList

/-- The text of a signature inside a diagnostic. -/
def debug (s : Signature) : String := "SignatureBytes(" ++ s.display ++ ")"

/-- Why signatures cannot be aggregated. -/
inductive AggregateError where
  | invalid (e : Bls.Point.EncodingError)
  | noSignatures
  deriving DecidableEq

/-- The kind of an aggregation error. -/
def AggregateError.kind : AggregateError → String
  | .invalid _ => "InvalidSignature"
  | .noSignatures => "NoSignatures"

/-- The text of an aggregation error. -/
def AggregateError.message (e : AggregateError) : String :=
  match e with
  | .invalid p => e.kind ++ "(" ++ p.name ++ ")"
  | .noSignatures => e.kind

/-- The point of a signature. -/
def point (s : Signature) : Except Bls.Point.EncodingError Bls.Point := Bls.Point.decompress s.bytes

/-- The points of signatures, or the error of the first that has none. -/
def points : List Signature → Except Bls.Point.EncodingError (List Bls.Point)
  | [] => .ok []
  | s :: rest =>
    match s.point with
    | .error e => .error e
    | .ok p => (points rest).map (p :: ·)

/-- The sum of signatures. -/
def aggregate (ss : List Signature) : Except AggregateError Signature :=
  match points ss with
  | .error e => .error (.invalid e)
  | .ok [] => .error .noSignatures
  | .ok ps => .ok ⟨(Bls.Point.sum ps).compress⟩

end Signature

instance : Ssz.Codec Signature where
  fixedSize := some 96
  encode s := s.bytes.toList
  decode bytes := (Ssz.exactly 96 bytes).map Signature.mk

instance : HasRoot Signature := ⟨fun s => Merkle.bytes s.bytes.toList⟩

end Saboteur
