import Saboteur.Http.Filter
import Saboteur.Http.Route

/-!
# Endpoints

What the service does for each route. The endpoints stand side by side, first those that are read and
then those that are written to. Every request gets a reply: a refusal is one too.
-/

namespace Saboteur

/-- The answer to a strategy that was installed. -/
structure InstalledStrategy where
  uid : String
  deriving DecidableEq

instance : WriteJson InstalledStrategy := ⟨fun i => .obj [("uid", .text i.uid)]⟩

instance : ReadJson InstalledStrategy where
  read j := do
    let f ← Json.fields ["uid"] j
    let uid ← f.required "uid" Json.readText
    return { uid }

namespace Service

variable {β : Type}

/-- A published value that may go up and down. -/
def gauge (name help : String) (value : Nat) : String :=
  "# HELP " ++ name ++ " " ++ help ++ "\n# TYPE " ++ name ++ " gauge\n" ++ name ++ " " ++
    Nat.repr value ++ "\n"

/-- The published state of the service. -/
def metricsText (s : Service β) : String :=
  gauge "attacker_known_validators" "Number of validators seen in beacon node duties"
      s.validators.size ++
    gauge "attacker_pooled_attestations" "Number of attestations waiting in the pool"
      s.validators.poolSize ++
    gauge "attacker_strategies_pending" "Number of installed strategies not yet completed"
      s.feedback.pending.length

/-- When a request came and what random numbers its work may use. -/
structure Arrival where
  /-- Milliseconds. -/
  time : UInt64
  random : RandomStream

/-- Installs the strategy in a body. -/
def updateStrategy (s : Service β) (a : Arrival) (strategy : Strategy) :
    Except Http.Rejection InstalledStrategy × Service β :=
  match s.install a.time a.random strategy with
  | (.ok rules, s) => (.ok ⟨rules.uid⟩, s)
  | (.error e, s) => (.error (.badRequest e.message), s)

/-- The end of a strategy, if it has ended. -/
def endedStrategy (s : Service β) (uid : String) : Except Http.Rejection StrategyEnd :=
  match s.feedback.completed? uid with
  | some e => .ok e
  | none => .error (.unknownResource ("strategy " ++ uid ++ " has not completed"))

variable [Backend β]

/-- The proposers of an epoch. -/
def duties (s : Service β) (epoch : Epoch) :
    Except Http.Rejection (Enclosed (List ProposerDuty)) × Service β :=
  let (answer, backend) := (proposerDuties epoch : StateM β _).run s.backend
  ((answer.map Enclosed.mk).mapError fun e => .nodeFailure e.debug, { s with backend })

/-- The reply of an endpoint that reads a document, and of one whose answer may be held back. -/
def replyTo {α γ : Type} [ReadJson α] [WriteJson γ] (s : Service β) (r : Http.Request)
    (work : α → Held γ × Service β) : Except Http.Rejection (Held Http.Reply) × Service β :=
  match r.document α with
  | .error e => (.error e, s)
  | .ok a =>
    let (held, s) := work a
    (.ok ⟨Http.Reply.ok held.answer, held.wait⟩, s)

/-- The reply of a task that may be refused. -/
def replyOf {α : Type} [WriteJson α] (result : Except Http.Rejection α) :
    Except Http.Rejection (Held Http.Reply) :=
  result.map fun a => Held.atOnce (Http.Reply.ok a)

/-- What is done at an endpoint. -/
def serve (s : Service β) (a : Arrival) (r : Http.Request) :
    Http.Route → Except Http.Rejection (Held Http.Reply) × Service β
  | .strategy => (.ok (Held.atOnce (Http.Reply.ok s.rules.document)), s)
  | .updateStrategy =>
    match r.document Strategy with
    | .error e => (.error e, s)
    | .ok strategy =>
      let (result, s) := s.updateStrategy a strategy
      (replyOf result, s)
  | .duties epoch =>
    let (result, s) := s.duties epoch
    (replyOf result, s)
  | .feedback uid => (replyOf (s.endedStrategy uid), s)
  | .metrics => (.ok (Held.atOnce ⟨200, .plain s.metricsText⟩), s)
  | .hook h => s.replyTo r (s.dispatch h)
  | .blockBroadcastDelay =>
    (.ok ⟨Http.Reply.ok s.blockBroadcastDelay.answer, s.blockBroadcastDelay.wait⟩, s)
  | .attestBroadcastDelay =>
    (.ok ⟨Http.Reply.ok s.attestBroadcastDelay.answer, s.attestBroadcastDelay.wait⟩, s)
  | .attestModify =>
    s.replyTo r fun call : HookRequest =>
      let (answer, s) := s.modifyAttestation call.payload
      (Held.atOnce answer, s)

/-- The filter of an endpoint, given the paths that lead there. -/
def endpoint (a : Arrival) (r : Http.Request) (leads : List String → Option Http.Route) :
    Http.Filter (Service β) (Held Http.Reply) :=
  match leads (Http.segments r.path) with
  | none => .refuse .notFound
  | some route => .ofTask fun s => s.serve a r route

/-- The endpoints of a method. The path of a request with another method is not looked at. -/
def endpoints (a : Arrival) (r : Http.Request) (m : Http.Method)
    (paths : List (List String → Option Http.Route)) : Http.Filter (Service β) (Held Http.Reply) :=
  if r.method = m then .oneOf (paths.map (endpoint a r)) else .refuse .methodNotAllowed

/-- The reply to a request. -/
def handle (s : Service β) (a : Arrival) (r : Http.Request) : Held Http.Reply × Service β :=
  ((endpoints a r .get Http.Route.gets).or (endpoints a r .post Http.Route.posts)).recover
    (fun e => Held.atOnce e.reply) s

end Service

end Saboteur
