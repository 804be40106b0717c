import Saboteur.Proofs.NodeAddress.Reading
import Saboteur.Proofs.Tables
import Saboteur.Service.Upkeep

/-!
# Exchanges with a node

A network can be watched: it then keeps every request with what came back for it. What a node told
about the proposers of an epoch is read off these exchanges, as every epoch is asked for at an
address of its own. Together with the prunings they make up the history of what is remembered: the
last thing that is said about an epoch counts.
-/

namespace Saboteur

/-! ## Requests -/

namespace NodeAddress

end NodeAddress

/-- A request together with what came back for it. -/
structure Exchange where
  request : NodeRequest
  delivery : Delivery

/-- A network that is watched: what is exchanged is kept in order. -/
structure Watched (ν : Type) where
  network : ν
  exchanges : List Exchange

namespace Watched

variable {ν : Type} [Network ν]

/-- What comes back for a request now, and the network after it. -/
def exchange (w : Watched ν) (r : NodeRequest) : Delivery × Watched ν :=
  let (d, network) := (deliver r : StateM ν Delivery).run w.network
  (d, ⟨network, w.exchanges ++ [⟨r, d⟩]⟩)

instance : Network (Watched ν) := ⟨fun r w => w.exchange r⟩

end Watched

/-! ## History -/

/-- The proposers of an epoch that an exchange with a node tells. -/
def Exchange.proposers? (c : NodeClient) (e : Epoch) (x : Exchange) : Option (List ProposerDuty) :=
  if x.request.url = (c.proposers e).request.url ∧ x.request.body.isNone then
    ((c.proposers e).decode x.delivery).toOption.map (·.data)
  else none

/-- Something that decides what is remembered of proposers. -/
inductive DutyEvent where
  | exchanged (x : Exchange)
  /-- The duties of epochs before the given one are dropped. -/
  | pruned (oldest : Epoch)

namespace DutyEvent

/-- What an event says about the proposers of an epoch: an answer tells them, and a pruning takes
them away. -/
def says? (c : NodeClient) (e : Epoch) : DutyEvent → Option (Option (List ProposerDuty))
  | exchanged x => (x.proposers? c e).map some
  | pruned oldest => if oldest ≤ e then none else some none

/-- What is said last about the proposers of an epoch. -/
def lastSaid? (c : NodeClient) (e : Epoch) (events : List DutyEvent) :
    Option (Option (List ProposerDuty)) :=
  events.reverse.findSome? (says? c e)

variable {c : NodeClient} {e : Epoch}

theorem lastSaid?_append (events events' : List DutyEvent) :
    lastSaid? c e (events ++ events') = (lastSaid? c e events').or (lastSaid? c e events) := by
  rw [lastSaid?, List.reverse_append, List.findSome?_append]
  rfl

end DutyEvent

end Saboteur
