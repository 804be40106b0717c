import Saboteur.ChainSpec
import Saboteur.Signature

/-!
# Attestations

A vote: what is voted for, which members of a committee signed it, and the sum of their signatures.

Two attestations of the same data by different signers can be aggregated into one. Aggregation is
all or nothing: it looks at the data first, then at the signers, then at the signatures.
-/

namespace Saboteur

/-! ## Data of a vote -/

/-- An epoch boundary that a vote refers to. -/
structure Checkpoint where
  epoch : Epoch
  root : Root
  deriving DecidableEq, Inhabited

/-- What an attestation votes for. -/
structure AttestationData where
  slot : Slot
  /-- The committee of the slot. -/
  index : UInt64
  beaconBlockRoot : Root
  source : Checkpoint
  target : Checkpoint
  deriving DecidableEq, Inhabited

/-- How many members a committee may have. -/
abbrev committeeCapacity : Nat := 2048

/-- A vote with its signers. -/
structure Attestation where
  aggregationBits : BitList committeeCapacity
  data : AttestationData
  signature : Signature
  deriving DecidableEq, Inhabited

namespace Checkpoint

instance : Ssz.Codec Checkpoint where
  fixedSize := some 40
  encode c := Ssz.join [Ssz.part c.epoch, Ssz.part c.root]
  decode bytes := do
    let fields ← Ssz.split [some 8, some 32] bytes
    let epoch ← Ssz.decode (Ssz.field fields 0)
    let root ← Ssz.decode (Ssz.field fields 1)
    return { epoch, root }

instance : HasRoot Checkpoint := ⟨fun c => Merkle.container [treeRoot c.epoch, treeRoot c.root]⟩

end Checkpoint

namespace AttestationData

instance : Ssz.Codec AttestationData where
  fixedSize := some 128
  encode d := Ssz.join
    [Ssz.part d.slot, Ssz.part d.index, Ssz.part d.beaconBlockRoot, Ssz.part d.source,
      Ssz.part d.target]
  decode bytes := do
    let fields ← Ssz.split [some 8, some 8, some 32, some 40, some 40] bytes
    let slot ← Ssz.decode (Ssz.field fields 0)
    let index ← Ssz.decode (Ssz.field fields 1)
    let beaconBlockRoot ← Ssz.decode (Ssz.field fields 2)
    let source ← Ssz.decode (Ssz.field fields 3)
    let target ← Ssz.decode (Ssz.field fields 4)
    return { slot, index, beaconBlockRoot, source, target }

instance : HasRoot AttestationData where
  treeRoot d := Merkle.container
    [treeRoot d.slot, treeRoot d.index, treeRoot d.beaconBlockRoot, treeRoot d.source,
      treeRoot d.target]

/-- The vote of a committee for a block as head and as target, with the first epoch as source. -/
def vote (slot : Slot) (index : UInt64) (block : Root) : AttestationData :=
  { slot, index, beaconBlockRoot := block, source := ⟨⟨0⟩, Root.zero⟩,
    target := ⟨slot.epoch 32, block⟩ }

end AttestationData

namespace Attestation

instance : Ssz.Codec Attestation where
  fixedSize := none
  encode a := Ssz.join [Ssz.part a.aggregationBits, Ssz.part a.data, Ssz.part a.signature]
  decode bytes := do
    let fields ← Ssz.split [none, some 128, some 96] bytes
    let aggregationBits ← Ssz.decode (Ssz.field fields 0)
    let data ← Ssz.decode (Ssz.field fields 1)
    let signature ← Ssz.decode (Ssz.field fields 2)
    return { aggregationBits, data, signature }

instance : HasRoot Attestation where
  treeRoot a := Merkle.container [treeRoot a.aggregationBits, treeRoot a.data, treeRoot a.signature]

/-! ## Signers -/

/-- The slot that is voted on. -/
def slot (a : Attestation) : Slot := a.data.slot

/-- How many signers an attestation has. -/
def signerCount (a : Attestation) : Nat := a.aggregationBits.count

/-- Whether two attestations have no signer in common. -/
def signersDisjoint (a b : Attestation) : Bool := a.aggregationBits.disjoint b.aggregationBits

/-- Whether every signer of the first attestation is a signer of the second. -/
def signersWithin (a b : Attestation) : Bool := a.aggregationBits.subset b.aggregationBits

/-! ## Aggregation -/

/-- Why two attestations cannot be aggregated. -/
inductive AggregateError where
  | dataMismatch
  | signersNotDisjoint
  | signature (e : Signature.AggregateError)
  deriving DecidableEq

/-- The kind of an aggregation error. -/
def AggregateError.kind : AggregateError → String
  | .dataMismatch => "DataMismatch"
  | .signersNotDisjoint => "SignersNotDisjoint"
  | .signature _ => "Signature"

/-- The text of an aggregation error. -/
def AggregateError.message (e : AggregateError) : String :=
  match e with
  | .signature s => e.kind ++ "(" ++ s.message ++ ")"
  | _ => e.kind

/-- One attestation in place of two. -/
def aggregate (a b : Attestation) : Except AggregateError Attestation :=
  if a.data ≠ b.data then .error .dataMismatch
  else if !a.signersDisjoint b then .error .signersNotDisjoint
  else match Signature.aggregate [a.signature, b.signature] with
    | .error e => .error (.signature e)
    | .ok signature =>
      .ok { a with aggregationBits := a.aggregationBits.union b.aggregationBits, signature }

/-- Aggregates another attestation into the one at hand, with one write for the signers and one for
the signature. -/
def aggregateInPlace (b : Attestation) : ExceptT AggregateError (StateM Attestation) Unit := do
  if (← get).data ≠ b.data then
    throw .dataMismatch
  if !(← get).signersDisjoint b then
    throw .signersNotDisjoint
  match Signature.aggregate [(← get).signature, b.signature] with
  | .error e => throw (.signature e)
  | .ok signature =>
    modify fun a => { a with aggregationBits := a.aggregationBits.union b.aggregationBits }
    modify fun a => { a with signature }

end Attestation

/-! ## Documents -/

instance : ReadJson Root where
  read j := do
    let s ← Json.readText j
    match Root.read? s with
    | some r => return r
    | none => throw .mismatch

instance : WriteJson Root := ⟨fun r => .text r.display⟩

/-- Reads a byte string behind `0x`. -/
def Json.readHex (j : Json) : Except JsonError (List UInt8) := do
  let s ← readText j
  match Hex.read? s with
  | some bytes => return bytes
  | none => throw .mismatch

instance : ReadJson Signature where
  read j := do
    let bytes ← Json.readHex j
    match Octets.ofList? 96 bytes with
    | some b => return ⟨b⟩
    | none => throw .mismatch

instance : WriteJson Signature := ⟨fun s => .text s.display⟩

instance {max : Nat} : ReadJson (BitList max) where
  read j := do
    let bytes ← Json.readHex j
    (BitList.decode max bytes).mapError fun _ => .mismatch

instance {max : Nat} : WriteJson (BitList max) := ⟨fun b => .text (Hex.render b.encode)⟩

instance : ReadJson Checkpoint where
  read j := do
    let f ← Json.fields ["epoch", "root"] j
    let epoch ← f.required "epoch" read
    let root ← f.required "root" read
    return { epoch, root }

instance : WriteJson Checkpoint where
  write c := .obj [("epoch", write c.epoch), ("root", write c.root)]

instance : ReadJson AttestationData where
  read j := do
    let f ← Json.fields ["slot", "index", "beacon_block_root", "source", "target"] j
    let slot ← f.required "slot" read
    let index ← f.required "index" Json.readQuotedWord
    let beaconBlockRoot ← f.required "beacon_block_root" read
    let source ← f.required "source" read
    let target ← f.required "target" read
    return { slot, index, beaconBlockRoot, source, target }

instance : WriteJson AttestationData where
  write d := .obj [
    ("slot", write d.slot),
    ("index", Json.quotedWord d.index),
    ("beacon_block_root", write d.beaconBlockRoot),
    ("source", write d.source),
    ("target", write d.target)]

instance : ReadJson Attestation where
  read j := do
    let f ← Json.fields ["aggregation_bits", "data", "signature"] j
    let aggregationBits ← f.required "aggregation_bits" read
    let data ← f.required "data" read
    let signature ← f.required "signature" read
    return { aggregationBits, data, signature }

instance : WriteJson Attestation where
  write a := .obj [
    ("aggregation_bits", write a.aggregationBits),
    ("data", write a.data),
    ("signature", write a.signature)]

end Saboteur
