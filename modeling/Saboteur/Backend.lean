import Saboteur.Node.Error
import Saboteur.Table

/-!
# Backends

Where hook calls get chain data from. A question may change the backend: a node remembers the duties
it was asked for, and its answers may come in turn. So a question takes a backend to an answer and
the backend after it.

Beside nodes there is a rehearsal, whose data are set by hand.
-/

namespace Saboteur

/-- Why a backend has no answer. -/
inductive BackendError where
  | beaconNode (e : NodeError)
  | executionNode (e : NodeError)
  /-- No execution node is known. -/
  | noExecutionNode
  /-- The service is shutting down. -/
  | shutdown
  /-- There is no block at a slot. -/
  | rootNotFound (slot : Slot)
  deriving DecidableEq

namespace BackendError

/-- The kind of an error. -/
def kind : BackendError → String
  | beaconNode _ => "BeaconNode"
  | executionNode _ => "ExecutionNode"
  | noExecutionNode => "NoExecutionNode"
  | shutdown => "Shutdown"
  | rootNotFound _ => "RootNotFound"

/-- The text of an error. -/
def debug (e : BackendError) : String :=
  match e with
  | beaconNode n | executionNode n => e.kind ++ "(" ++ n.debug ++ ")"
  | rootNotFound s => e.kind ++ "(" ++ s.debug ++ ")"
  | noExecutionNode | shutdown => e.kind

end BackendError

/-- A source of chain data. -/
class Backend (β : Type) where
  /-- Who proposes in an epoch. -/
  proposerDuties : Epoch → StateM β (Except BackendError (List ProposerDuty))
  /-- The root of the block at a slot. -/
  blockRoot : Slot → StateM β (Except BackendError Root)
  /-- The height of the execution chain. -/
  blockNumber : StateM β (Except BackendError UInt64)

export Backend (proposerDuties blockRoot blockNumber)

/-- A backend whose data are set by hand. -/
structure Rehearsal where
  slotsPerEpoch : UInt64
  /-- The proposers of slots, by index. -/
  proposers : Table Slot UInt64
  blockRoots : Table Slot Root
  blockNumber : Option UInt64
  /-- Whether every question for duties fails. -/
  failDuties : Bool

namespace Rehearsal

/-- A rehearsal without data. -/
def empty (slotsPerEpoch : UInt64) : Rehearsal :=
  ⟨slotsPerEpoch, Table.empty, Table.empty, none, false⟩

/-- The key of a validator: its index in every byte. -/
def pubkey (index : UInt64) : Pubkey :=
  Pubkey.ofBytes (Octets.padded 48 (List.replicate 48 index.toUInt8))

/-- The failure of a node that has no answer. -/
def unavailable (message : String) : NodeError := .serverMessage ⟨503, message, []⟩

/-- The duty of a slot that has a proposer. -/
def duty? (r : Rehearsal) (slot : Slot) : Option ProposerDuty :=
  (r.proposers.get? slot).map fun index => ⟨pubkey index, index, slot⟩

/-- The duties of an epoch, in the order of its slots. -/
def duties (r : Rehearsal) (epoch : Epoch) : Except BackendError (List ProposerDuty) :=
  if r.failDuties then .error (.beaconNode (unavailable "duties unavailable"))
  else .ok ((epoch.slots r.slotsPerEpoch).filterMap r.duty?)

instance : Backend Rehearsal where
  proposerDuties epoch := fun r => (r.duties epoch, r)
  blockRoot slot := fun r =>
    (match r.blockRoots.get? slot with
      | some root => .ok root
      | none => .error (.rootNotFound slot), r)
  blockNumber := fun r =>
    (match r.blockNumber with
      | some n => .ok n
      | none => .error (.executionNode (unavailable "execution node offline")), r)

end Rehearsal

end Saboteur
