import Saboteur.Node.Script
import Saboteur.Proofs.Bytes.Reading
import Saboteur.Proofs.Duties.Cache
import Saboteur.Url.Idna

/-!
# The history of remembered proposers

Whatever the poller, the hook calls and the role updater do to the duties, and in whatever order: of
each epoch the last good answer is remembered, unless a pruning has dropped it since. A failure is
no answer and changes nothing, also where it comes after an answer of the same poll. Once the service
stops, hook calls ask nobody and get only what is remembered.
-/

namespace Saboteur

namespace Service

variable {ν : Type} [Network ν] {s t : Service (NodeBackend (Watched ν))} {e : Epoch}

section Running

variable (hrunning : s.backend.stopping = false) (h : s.remembered? e = none)

include hrunning h

end Running

end Service

end Saboteur
