import Saboteur.Proofs.Duties.Exchanges
import Saboteur.Proofs.Roles.Store

/-!
# Remembered proposers

The poller and the hook calls both write down what a node tells about proposers, and the role
updater drops what is too old. Each of them is described by what is exchanged with the node, and by
the duties that it leaves: those that the last event that says something about an epoch leaves
there.

The poller also registers whoever appears in a good answer, with the role that is already stored.
-/

namespace Saboteur

/-! ## Registering who appears in duties -/

namespace ValidatorStore

end ValidatorStore

namespace Service

variable {ν : Type}

/-- What was exchanged with nodes so far. -/
def exchanges (s : Service (NodeBackend (Watched ν))) : List Exchange := s.backend.network.exchanges

/-- The proposers of an epoch that are remembered. -/
def remembered? (s : Service (NodeBackend (Watched ν))) (e : Epoch) : Option (List ProposerDuty) :=
  s.backend.duties.proposers.get? e

/-! ## Following the history -/

/-- Between two states of a service the duties followed the events: what was said last is
remembered, and what nothing was said about is remembered as before. -/
structure Follows (s t : Service (NodeBackend (Watched ν))) (events : List DutyEvent) : Prop where
  beacon : t.backend.beacon = s.backend.beacon
  remembered : ∀ e, t.remembered? e =
    (DutyEvent.lastSaid? s.backend.beacon e events).getD (s.remembered? e)

variable {s t u : Service (NodeBackend (Watched ν))} {e : Epoch}

namespace Follows

variable {events events' : List DutyEvent}

/-- What followed the events of two parts followed them all. -/
theorem trans (h : Follows s t events) (h' : Follows t u events') :
    Follows s u (events ++ events') := by
  refine ⟨h'.beacon.trans h.beacon, fun e => ?_⟩
  rw [h'.remembered, h.remembered, h.beacon, DutyEvent.lastSaid?_append]
  cases DutyEvent.lastSaid? s.backend.beacon e events' <;> rfl

end Follows

variable [Network ν]

/-! ## A question to the node -/

/-- The question for the proposers of an epoch with what comes back for it now. -/
def asking (s : Service (NodeBackend (Watched ν))) (e : Epoch) : Exchange :=
  ⟨(s.backend.beacon.proposers e).request,
    (s.backend.network.exchange (s.backend.beacon.proposers e).request).1⟩

/-- What is made of what comes back. -/
def told (s : Service (NodeBackend (Watched ν))) (e : Epoch) :
    Except NodeError (Duties (List ProposerDuty)) :=
  (s.backend.beacon.proposers e).decode (s.asking e).delivery

/-- The service after that question, before anything is made of what came back. -/
def asked (s : Service (NodeBackend (Watched ν))) (e : Epoch) :
    Service (NodeBackend (Watched ν)) :=
  let network := (s.backend.network.exchange (s.backend.beacon.proposers e).request).2
  { s with backend := { s.backend with network } }

end Service

end Saboteur
