import Saboteur.Backend
import Saboteur.Duties
import Saboteur.Node.Client

/-!
# Nodes as a backend

Chain data as nodes tell them. The proposers of an epoch are asked for once and then remembered.
Once the service stops, no node is asked any more; what is remembered is still told.
-/

namespace Saboteur

/-- The nodes behind a network, and what they told about duties. -/
structure NodeBackend (ν : Type) where
  beacon : NodeClient
  execution : Option NodeClient
  network : ν
  duties : DutyCache
  /-- Whether the service stops. -/
  stopping : Bool

namespace NodeBackend

variable {ν α : Type} [Network ν]

/-- Asks a question on behalf of a hook call. An answer has to be waited for, and once the service
stops nothing is, so no question goes out then. -/
def inquire (wrap : NodeError → BackendError) (q : Question α) :
    StateM (NodeBackend ν) (Except BackendError α) := fun b =>
  if b.stopping then (.error .shutdown, b)
  else
    let (d, network) := (deliver q.request : StateM ν Delivery).run b.network
    ((q.decode d).mapError wrap, { b with network })

/-- The proposers of an epoch: those remembered, or else those that the node tells now, which are
remembered from then on. A failure changes nothing that is remembered. -/
def proposers (epoch : Epoch) :
    StateM (NodeBackend ν) (Except BackendError (List ProposerDuty)) := do
  let b ← get
  match b.duties.proposers.get? epoch with
  | some duties => return .ok duties
  | none =>
    match ← inquire .beaconNode (b.beacon.proposers epoch) with
    | .error e => return .error e
    | .ok answer =>
      modify fun b => { b with duties := b.duties.setProposers epoch answer.data }
      return .ok answer.data

/-- The root of the block at a slot. -/
def root (slot : Slot) : StateM (NodeBackend ν) (Except BackendError Root) := do
  match ← inquire .beaconNode ((← get).beacon.blockRoot (.slot slot)) with
  | .error e => return .error e
  | .ok none => return .error (.rootNotFound slot)
  | .ok (some answer) => return .ok answer.data.root

/-- The height of the execution chain. -/
def height : StateM (NodeBackend ν) (Except BackendError UInt64) := do
  match (← get).execution with
  | none => return .error .noExecutionNode
  | some node => inquire .executionNode node.blockNumber

instance : Backend (NodeBackend ν) := ⟨proposers, root, height⟩

end NodeBackend

end Saboteur
