import Saboteur.Node.Client
import Saboteur.Table

/-!
# Scripts

A network whose deliveries are written down beforehand, and which keeps the requests that it gets.
What is asked for more than once may be answered differently each time; the last delivery is
repeated. What is not written down does not exist.
-/

namespace Saboteur

/-- A network with deliveries that are written down. -/
structure Script where
  /-- The deliveries that are left for a method and a path. -/
  deliveries : Table String (List Delivery)
  /-- Without a way to the nodes no request gets to them. -/
  connected : Bool
  /-- The requests that came, the last one first. -/
  received : List NodeRequest

namespace Script

/-- A network in which no node can be reached. -/
def disconnected : Script := ⟨Table.empty, false, []⟩

/-- A network with these deliveries. -/
def ofDeliveries (deliveries : Table String (List Delivery)) : Script := ⟨deliveries, true, []⟩

/-- The delivery for a request, and the network after it. -/
def serve (s : Script) (r : NodeRequest) : Delivery × Script :=
  if !s.connected then (.unreachable, s)
  else
    let s := { s with received := r :: s.received }
    match s.deliveries.get? r.line with
    | none | some [] => (.reply 404 "", s)
    | some [d] => (d, s)
    | some (d :: rest) => (d, { s with deliveries := s.deliveries.set r.line rest })

instance : Network Script := ⟨fun r s => s.serve r⟩

/-- The requests that came, in order. -/
def requests (s : Script) : List NodeRequest := s.received.reverse

/-- The network without memory of requests. -/
def forget (s : Script) : Script := { s with received := [] }

end Script

/-! ## Documents

A delivery is written as an array of a status and a body. The status is zero for a node that keeps
silent, and negative for one that cannot be reached. A script has a member for each method and path,
with one delivery or an array of them.
-/

/-- The delivery of a status and a body. -/
def Delivery.ofStatus (status : Int) (body : String) : Delivery :=
  if status < 0 then unreachable else if status = 0 then silent else reply status.toNat body

instance : ReadJson Delivery where
  read j := do
    match j with
    | .array [status] => return Delivery.ofStatus (← Json.readSigned status) ""
    | .array [status, body] =>
      return Delivery.ofStatus (← Json.readSigned status) (← Json.readText body)
    | _ => throw .mismatch

/-- Reads the deliveries for one method and path. -/
def Script.readDeliveries : Json → Except JsonError (List Delivery)
  | .array (.array first :: rest) => (Json.array first :: rest).mapM read
  | j => do return [← read j]

instance : ReadJson Script where
  read j := do
    match j with
    | .object members => return Script.ofDeliveries ⟨← members.mapM fun m =>
        return (← Json.readKey m.1, ← Script.readDeliveries m.2)⟩
    | _ => throw .mismatch

end Saboteur
