import Saboteur.Json.Fields
import Saboteur.SlotClock

/-!
# Chain parameters

The three numbers of a network that the service reasons with: how many slots make an epoch, how long
a slot is, and how many attestations a block may carry.
-/

namespace Saboteur

/-- How many attestations the format of a block has room for. -/
def attestationCapacity : Nat := 128

/-- The parameters of a network. -/
structure ChainSpec where
  slotsPerEpoch : UInt64
  secondsPerSlot : UInt64
  maxAttestations : UInt64
  deriving DecidableEq

namespace ChainSpec

/-- The parameters of the main network. -/
def mainnet : ChainSpec := ⟨32, 12, 128⟩

/-- The parameters of small test networks. -/
def minimal : ChainSpec := ⟨8, 6, 128⟩

/-- The parameters in use when a node does not tell its own. -/
def fallback : ChainSpec := ⟨6, 12, 128⟩

/-- The parameters that go by a name. -/
def named? : String → Option ChainSpec
  | "mainnet" | "default" => some mainnet
  | "minimal" => some minimal
  | "fallback" => some fallback
  | _ => none

instance : Inhabited ChainSpec := ⟨mainnet⟩

/-- The epoch of a slot. -/
def epochOf (c : ChainSpec) (s : Slot) : Epoch := s.epoch c.slotsPerEpoch

/-- The first slot of an epoch. -/
def epochStart (c : ChainSpec) (e : Epoch) : Slot := e.startSlot c.slotsPerEpoch

/-- The last slot of an epoch. -/
def epochEnd (c : ChainSpec) (e : Epoch) : Slot := e.endSlot c.slotsPerEpoch

/-- The clock of a network that begins at a time, standing at its beginning. -/
def clock (c : ChainSpec) (genesis : Duration) : SlotClock :=
  SlotClock.atGenesis ⟨0⟩ genesis (Duration.ofSeconds c.secondsPerSlot)

/-- How many attestations a block may carry: the parameter, within the room of the format. -/
def maxAttestationsPerBlock (c : ChainSpec) : Nat := min c.maxAttestations.toNat attestationCapacity

end ChainSpec

instance : ReadJson Slot := ⟨fun j => (Json.readQuotedWord j).map Slot.mk⟩

instance : WriteJson Slot := ⟨fun s => Json.quotedWord s.val⟩

instance : ReadJson Epoch := ⟨fun j => (Json.readQuotedWord j).map Epoch.mk⟩

instance : WriteJson Epoch := ⟨fun e => Json.quotedWord e.val⟩

instance : ReadJson ChainSpec where
  read j := do
    let f ← Json.fields ["slots_per_epoch", "seconds_per_slot", "max_attestations"] j
    let slotsPerEpoch ← f.required "slots_per_epoch" Json.readQuotedWord
    let secondsPerSlot ← f.required "seconds_per_slot" Json.readQuotedWord
    let maxAttestations ← f.required "max_attestations" Json.readQuotedWord
    return { slotsPerEpoch, secondsPerSlot, maxAttestations }

instance : WriteJson ChainSpec where
  write c := .obj [
    ("slots_per_epoch", Json.quotedWord c.slotsPerEpoch),
    ("seconds_per_slot", Json.quotedWord c.secondsPerSlot),
    ("max_attestations", Json.quotedWord c.maxAttestations)]

end Saboteur
