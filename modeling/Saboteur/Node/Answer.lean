import Saboteur.Attestation
import Saboteur.Pubkey

/-!
# Answers of a beacon node

The documents that a beacon node sends: its genesis, its parameters, roots of blocks and the duties
of validators. Fields that the service does not use are ignored.
-/

namespace Saboteur

/-- What a node says instead of an answer. -/
structure ErrorMessage where
  code : Nat
  message : String
  stacktraces : List String
  deriving DecidableEq

/-- When and how a network began. -/
structure Genesis where
  time : UInt64
  validatorsRoot : Root
  forkVersion : Octets 4
  deriving DecidableEq

/-- The parameters that a node tells. -/
structure NetworkConfig where
  secondsPerSlot : UInt64
  slotsPerEpoch : UInt64
  maxAttestations : Option UInt64
  deriving DecidableEq

/-- A root alone. -/
structure RootData where
  root : Root
  deriving DecidableEq

/-- Who proposes in a slot. -/
structure ProposerDuty where
  pubkey : Pubkey
  validatorIndex : UInt64
  slot : Slot
  deriving DecidableEq

/-- In which committee a validator votes. -/
structure AttesterDuty where
  pubkey : Pubkey
  validatorIndex : UInt64
  committeesAtSlot : UInt64
  committeeIndex : UInt64
  committeeLength : UInt64
  validatorCommitteeIndex : UInt64
  slot : Slot
  deriving DecidableEq

/-- A document with its content in one field. -/
structure Enclosed (α : Type) where
  data : α
  deriving DecidableEq

/-- Duties together with the block that they depend on. -/
structure Duties (α : Type) where
  dependentRoot : Root
  data : α
  deriving DecidableEq

/-- The parameters of the network that a node tells. -/
def NetworkConfig.chainSpec (c : NetworkConfig) : ChainSpec :=
  { slotsPerEpoch := c.slotsPerEpoch, secondsPerSlot := c.secondsPerSlot,
    maxAttestations := c.maxAttestations.getD ChainSpec.mainnet.maxAttestations }

/-! ## Documents -/

instance : ReadJson ErrorMessage where
  read j := do
    let f ← Json.fields ["code", "message", "stacktraces"] j
    let code ← f.required "code" (Json.readNatural 65536)
    let message ← f.required "message" Json.readText
    let stacktraces ← f.defaulted "stacktraces" [] (Json.readArray Json.readText)
    return { code, message, stacktraces }

instance : WriteJson ErrorMessage where
  write e := .obj [
    ("code", .nat e.code),
    ("message", .text e.message),
    ("stacktraces", .array (e.stacktraces.map .text))]

/-- Reads a byte string of a fixed length behind `0x`. -/
def Json.readOctets (n : Nat) (j : Json) : Except JsonError (Octets n) := do
  match Octets.ofList? n (← readHex j) with
  | some b => return b
  | none => throw .mismatch

instance : ReadJson Genesis where
  read j := do
    let f ← Json.fields ["genesis_time", "genesis_validators_root", "genesis_fork_version"] j
    let time ← f.required "genesis_time" Json.readQuotedWord
    let validatorsRoot ← f.required "genesis_validators_root" read
    let forkVersion ← f.required "genesis_fork_version" (Json.readOctets 4)
    return { time, validatorsRoot, forkVersion }

instance : WriteJson Genesis where
  write g := .obj [
    ("genesis_time", Json.quotedWord g.time),
    ("genesis_validators_root", write g.validatorsRoot),
    ("genesis_fork_version", .text (Hex.render g.forkVersion.toList))]

/-- Reads a word that is written as a decimal text and not as a number. -/
def Json.readTextWord (j : Json) : Except JsonError UInt64 := do
  (Text.readWord (← readText j)).mapError fun _ => .mismatch

instance : ReadJson NetworkConfig where
  read j := do
    let f ← Json.fields ["SECONDS_PER_SLOT", "SLOTS_PER_EPOCH", "MAX_ATTESTATIONS"] j
    let secondsPerSlot ← f.required "SECONDS_PER_SLOT" Json.readQuotedWord
    let slotsPerEpoch ← f.required "SLOTS_PER_EPOCH" Json.readQuotedWord
    let maxAttestations ← f.defaulted "MAX_ATTESTATIONS" none (Json.readOption Json.readTextWord)
    return { secondsPerSlot, slotsPerEpoch, maxAttestations }

instance : WriteJson NetworkConfig where
  write c := .obj [
    ("SECONDS_PER_SLOT", Json.quotedWord c.secondsPerSlot),
    ("SLOTS_PER_EPOCH", Json.quotedWord c.slotsPerEpoch),
    ("MAX_ATTESTATIONS", Json.option Json.quotedWord c.maxAttestations)]

instance : ReadJson RootData where
  read j := do
    let f ← Json.fields ["root"] j
    let root ← f.required "root" read
    return { root }

instance : WriteJson RootData := ⟨fun r => .obj [("root", write r.root)]⟩

instance : ReadJson ProposerDuty where
  read j := do
    let f ← Json.fields ["pubkey", "validator_index", "slot"] j
    let pubkey ← f.required "pubkey" read
    let validatorIndex ← f.required "validator_index" Json.readQuotedWord
    let slot ← f.required "slot" read
    return { pubkey, validatorIndex, slot }

instance : WriteJson ProposerDuty where
  write d := .obj [
    ("pubkey", write d.pubkey),
    ("validator_index", Json.quotedWord d.validatorIndex),
    ("slot", write d.slot)]

instance : ReadJson AttesterDuty where
  read j := do
    let f ← Json.fields ["pubkey", "validator_index", "committees_at_slot", "committee_index",
      "committee_length", "validator_committee_index", "slot"] j
    let pubkey ← f.required "pubkey" read
    let validatorIndex ← f.required "validator_index" Json.readQuotedWord
    let committeesAtSlot ← f.required "committees_at_slot" Json.readQuotedWord
    let committeeIndex ← f.required "committee_index" Json.readQuotedWord
    let committeeLength ← f.required "committee_length" Json.readQuotedWord
    let validatorCommitteeIndex ← f.required "validator_committee_index" Json.readQuotedWord
    let slot ← f.required "slot" read
    return { pubkey, validatorIndex, committeesAtSlot, committeeIndex, committeeLength,
             validatorCommitteeIndex, slot }

instance : WriteJson AttesterDuty where
  write d := .obj [
    ("pubkey", write d.pubkey),
    ("validator_index", Json.quotedWord d.validatorIndex),
    ("committees_at_slot", Json.quotedWord d.committeesAtSlot),
    ("committee_index", Json.quotedWord d.committeeIndex),
    ("committee_length", Json.quotedWord d.committeeLength),
    ("validator_committee_index", Json.quotedWord d.validatorCommitteeIndex),
    ("slot", write d.slot)]

instance {α : Type} [ReadJson α] : ReadJson (List α) := ⟨Json.readArray read⟩

instance {α : Type} [WriteJson α] : WriteJson (List α) := ⟨fun l => .array (l.map write)⟩

instance {α : Type} [ReadJson α] : ReadJson (Enclosed α) where
  read j := do
    let f ← Json.fields ["data"] j
    let data ← f.required "data" read
    return { data }

instance {α : Type} [WriteJson α] : WriteJson (Enclosed α) :=
  ⟨fun e => .obj [("data", write e.data)]⟩

instance {α : Type} [ReadJson α] : ReadJson (Duties α) where
  read j := do
    let f ← Json.fields ["dependent_root", "data"] j
    let dependentRoot ← f.required "dependent_root" read
    let data ← f.required "data" read
    return { dependentRoot, data }

instance {α : Type} [WriteJson α] : WriteJson (Duties α) where
  write d := .obj [("dependent_root", write d.dependentRoot), ("data", write d.data)]

end Saboteur
