import Saboteur.Json.Print
import Saboteur.Node.BlockId
import Saboteur.Node.Delivery
import Saboteur.Node.Rpc
import Saboteur.NodeAddress

/-!
# Clients of nodes

The questions that nodes are asked. A question is a request together with the reading of what comes
back for it; who delivers requests is left open, so the same questions go to any network.

Beacon nodes are asked at resources below their address, execution nodes at the address itself.
-/

namespace Saboteur

/-- A request to a node. One with a body is posted. -/
structure NodeRequest where
  url : Url
  body : Option Json

/-- The method and the path of a request. -/
def NodeRequest.line (r : NodeRequest) : String :=
  (if r.body.isSome then "POST " else "GET ") ++ r.url.path.render

/-- What takes requests to nodes. Deliveries may change with time. -/
class Network (ν : Type) where
  deliver : NodeRequest → StateM ν Delivery

export Network (deliver)

/-- A question to a node. -/
structure Question (α : Type) where
  request : NodeRequest
  decode : Delivery → Except NodeError α

/-- A node as it is asked. -/
structure NodeClient where
  address : NodeAddress
  /-- How many milliseconds an answer is waited for. -/
  patience : Nat

namespace NodeClient

/-- What the path of every resource of a beacon node begins with. -/
def pathStart : List String := ["eth", "v1"]

/-- The address of a resource of a beacon node. -/
def resource (c : NodeClient) (segments : List String) : Url :=
  c.address.resource (pathStart ++ segments)

/-- The question for a document. -/
def get (α : Type) [ReadJson α] (c : NodeClient) (segments : List String) : Question α :=
  ⟨⟨c.resource segments, none⟩, Delivery.document α⟩

/-- The question when and how the network began. -/
def genesis (c : NodeClient) : Question (Enclosed Genesis) := c.get _ ["beacon", "genesis"]

/-- The question for the parameters of the network. -/
def networkConfig (c : NodeClient) : Question (Enclosed NetworkConfig) :=
  c.get _ ["config", "spec"]

/-- The question for the root of a block, which may not exist. -/
def blockRoot (c : NodeClient) (id : BlockId) : Question (Option (Enclosed RootData)) :=
  ⟨⟨c.resource ["beacon", "blocks", id.display, "root"], none⟩, Delivery.documentIfFound _⟩

/-- The question who proposes in an epoch. -/
def proposers (c : NodeClient) (epoch : Epoch) : Question (Duties (List ProposerDuty)) :=
  c.get _ ["validator", "duties", "proposer", epoch.display]

/-- The question in which committees some validators vote in an epoch. -/
def attesters (c : NodeClient) (epoch : Epoch) (indices : List UInt64) :
    Question (Duties (List AttesterDuty)) :=
  ⟨⟨c.resource ["validator", "duties", "attester", epoch.display],
    some (.array (indices.map Json.quotedWord))⟩, Delivery.document _⟩

/-- The number that a called procedure gives. -/
def readNumber (d : Delivery) : Except NodeError UInt64 := do
  let answer ← d.document Rpc.Answer
  Quantity.parse (← answer.text)

/-- The question for the height of the execution chain. -/
def blockNumber (c : NodeClient) : Question UInt64 :=
  ⟨⟨c.address.full, some (Rpc.call "eth_blockNumber")⟩, readNumber⟩

/-- Asks a question. The result comes with the milliseconds that it took. -/
def ask {α ν : Type} [Network ν] (c : NodeClient) (q : Question α) :
    StateM ν (Except NodeError α × Nat) := do
  let d ← deliver q.request
  return (q.decode d, d.millis c.patience)

end NodeClient

end Saboteur
