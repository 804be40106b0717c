import Saboteur.Attestation

/-!
# Blocks

The parts of a beacon block that the service reads or changes. A block with a signature has the
root of the block inside.
-/

namespace Saboteur

/-- The state of the deposit chain as a proposer sees it. -/
structure Eth1Data where
  depositRoot : Root
  depositCount : UInt64
  blockHash : Root
  deriving DecidableEq, Inhabited

/-- The content of a block. -/
structure BlockBody where
  randaoReveal : Signature
  eth1Data : Eth1Data
  graffiti : Root
  attestations : Capped Attestation attestationCapacity
  deriving DecidableEq, Inhabited

/-- A block. -/
structure Block where
  slot : Slot
  proposerIndex : UInt64
  parentRoot : Root
  stateRoot : Root
  body : BlockBody
  deriving DecidableEq, Inhabited

/-- A block with its proposer's signature. -/
structure SignedBlock where
  message : Block
  signature : Signature
  deriving DecidableEq, Inhabited

namespace Eth1Data

instance : Ssz.Codec Eth1Data where
  fixedSize := some 72
  encode e := Ssz.join [Ssz.part e.depositRoot, Ssz.part e.depositCount, Ssz.part e.blockHash]
  decode bytes := do
    let fields ← Ssz.split [some 32, some 8, some 32] bytes
    let depositRoot ← Ssz.decode (Ssz.field fields 0)
    let depositCount ← Ssz.decode (Ssz.field fields 1)
    let blockHash ← Ssz.decode (Ssz.field fields 2)
    return { depositRoot, depositCount, blockHash }

instance : HasRoot Eth1Data where
  treeRoot e := Merkle.container
    [treeRoot e.depositRoot, treeRoot e.depositCount, treeRoot e.blockHash]

end Eth1Data

namespace BlockBody

instance : Ssz.Codec BlockBody where
  fixedSize := none
  encode b := Ssz.join
    [Ssz.part b.randaoReveal, Ssz.part b.eth1Data, Ssz.part b.graffiti, Ssz.part b.attestations]
  decode bytes := do
    let fields ← Ssz.split [some 96, some 72, some 32, none] bytes
    let randaoReveal ← Ssz.decode (Ssz.field fields 0)
    let eth1Data ← Ssz.decode (Ssz.field fields 1)
    let graffiti ← Ssz.decode (Ssz.field fields 2)
    let attestations ← Ssz.decode (Ssz.field fields 3)
    return { randaoReveal, eth1Data, graffiti, attestations }

instance : HasRoot BlockBody where
  treeRoot b := Merkle.container
    [treeRoot b.randaoReveal, treeRoot b.eth1Data, treeRoot b.graffiti, treeRoot b.attestations]

end BlockBody

namespace Block

/-- The block whose fields are all zero and whose lists are empty. -/
def empty : Block := default

instance : Ssz.Codec Block where
  fixedSize := none
  encode b := Ssz.join
    [Ssz.part b.slot, Ssz.part b.proposerIndex, Ssz.part b.parentRoot, Ssz.part b.stateRoot,
      Ssz.part b.body]
  decode bytes := do
    let fields ← Ssz.split [some 8, some 8, some 32, some 32, none] bytes
    let slot ← Ssz.decode (Ssz.field fields 0)
    let proposerIndex ← Ssz.decode (Ssz.field fields 1)
    let parentRoot ← Ssz.decode (Ssz.field fields 2)
    let stateRoot ← Ssz.decode (Ssz.field fields 3)
    let body ← Ssz.decode (Ssz.field fields 4)
    return { slot, proposerIndex, parentRoot, stateRoot, body }

instance : HasRoot Block where
  treeRoot b := Merkle.container
    [treeRoot b.slot, treeRoot b.proposerIndex, treeRoot b.parentRoot, treeRoot b.stateRoot,
      treeRoot b.body]

/-- The root that names a block on the chain. -/
def canonicalRoot (b : Block) : Root := treeRoot b

end Block

namespace SignedBlock

instance : Ssz.Codec SignedBlock where
  fixedSize := none
  encode b := Ssz.join [Ssz.part b.message, Ssz.part b.signature]
  decode bytes := do
    let fields ← Ssz.split [none, some 96] bytes
    let message ← Ssz.decode (Ssz.field fields 0)
    let signature ← Ssz.decode (Ssz.field fields 1)
    return { message, signature }

instance : HasRoot SignedBlock where
  treeRoot b := Merkle.container [treeRoot b.message, treeRoot b.signature]

/-- The root that names a block on the chain: that of the block inside. -/
def canonicalRoot (b : SignedBlock) : Root := b.message.canonicalRoot

end SignedBlock

/-! ## Documents -/

instance : ReadJson Eth1Data where
  read j := do
    let f ← Json.fields ["deposit_root", "deposit_count", "block_hash"] j
    let depositRoot ← f.required "deposit_root" read
    let depositCount ← f.required "deposit_count" Json.readQuotedWord
    let blockHash ← f.required "block_hash" read
    return { depositRoot, depositCount, blockHash }

instance : WriteJson Eth1Data where
  write e := .obj [
    ("deposit_root", write e.depositRoot),
    ("deposit_count", Json.quotedWord e.depositCount),
    ("block_hash", write e.blockHash)]

instance {α : Type} {max : Nat} [ReadJson α] : ReadJson (Capped α max) where
  read j := do
    let items ← Json.readArray read j
    (Capped.ofList max items).mapError fun _ => .overfull

instance {α : Type} {max : Nat} [WriteJson α] : WriteJson (Capped α max) where
  write l := .array (l.toList.map write)

instance : ReadJson BlockBody where
  read j := do
    let f ← Json.fields ["randao_reveal", "eth1_data", "graffiti", "attestations"] j
    let randaoReveal ← f.required "randao_reveal" read
    let eth1Data ← f.required "eth1_data" read
    let graffiti ← f.required "graffiti" read
    let attestations ← f.required "attestations" read
    return { randaoReveal, eth1Data, graffiti, attestations }

instance : WriteJson BlockBody where
  write b := .obj [
    ("randao_reveal", write b.randaoReveal),
    ("eth1_data", write b.eth1Data),
    ("graffiti", write b.graffiti),
    ("attestations", write b.attestations)]

instance : ReadJson Block where
  read j := do
    let f ← Json.fields ["slot", "proposer_index", "parent_root", "state_root", "body"] j
    let slot ← f.required "slot" read
    let proposerIndex ← f.required "proposer_index" Json.readQuotedWord
    let parentRoot ← f.required "parent_root" read
    let stateRoot ← f.required "state_root" read
    let body ← f.required "body" read
    return { slot, proposerIndex, parentRoot, stateRoot, body }

instance : WriteJson Block where
  write b := .obj [
    ("slot", write b.slot),
    ("proposer_index", Json.quotedWord b.proposerIndex),
    ("parent_root", write b.parentRoot),
    ("state_root", write b.stateRoot),
    ("body", write b.body)]

instance : ReadJson SignedBlock where
  read j := do
    let f ← Json.fields ["message", "signature"] j
    let signature ← f.required "signature" read
    let message ← f.required "message" read
    return { message, signature }

instance : WriteJson SignedBlock where
  write b := .obj [("message", write b.message), ("signature", write b.signature)]

end Saboteur
