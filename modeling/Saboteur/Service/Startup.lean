import Saboteur.FileText
import Saboteur.Http.Origin
import Saboteur.Service.Upkeep
import Saboteur.Settings

/-!
# Starting the service

The service starts with what its settings and the beacon node say. The genesis is asked for again
and again until it is known; the parameters of the network are asked for once, and without an
answer the fallback is taken. Then the strategy of the settings is installed, and last the origins
are checked that may call the service.

Time is counted in milliseconds from the first request, and the start may take only so long.
-/

namespace Saboteur

/-- Why the service did not start. -/
inductive StartError where
  | noBeaconNode
  /-- The beacon node did not answer in time. -/
  | late
  | unreadable (path : String) (e : FileError)
  | malformed (path : String) (e : StrategyError)
  | refused (path : String) (e : StrategyError)
  | origins (e : Http.OriginError)
  /-- An origin that passes the check and cannot be used breaks the start off. -/
  | broken (piece : String)
  deriving DecidableEq

/-- The wording of an error. -/
def StartError.message : StartError → String
  | .noBeaconNode => "No beacon node URL configured"
  | .late => "The beacon node did not answer in time"
  | .unreadable path e => "Unable to read strategy file " ++ Text.quoted path ++ ": " ++ e.message
  | .malformed path e => "Unable to parse strategy file " ++ Text.quoted path ++ ": " ++ e.message
  | .refused path e => "Unable to install strategy file " ++ Text.quoted path ++ ": " ++ e.message
  | .origins e => "Unable to start HTTP API server: Other(" ++ Text.quoted e.message ++ ")"
  | .broken piece => "The origin " ++ Text.quoted piece ++ " cannot be used"

/-- What a start happens with. -/
structure Occasion where
  /-- The time since the common origin of clocks. -/
  now : Duration
  random : RandomStream
  files : FileTexts
  /-- How many milliseconds the start may take. -/
  limit : Nat

namespace Startup

/-- How many milliseconds an answer of a node is waited for. -/
def patience : Nat := 12000

/-- How long after a failure the genesis is asked for again. -/
def retryPause : Nat := 2000

variable {ν : Type} [Network ν]

/-- Asks for the genesis from a time on until it is known or the limit is over. It comes with the
time of the answer. -/
def awaitGenesis (node : NodeClient) (limit time : Nat) (network : ν) :
    Option (Genesis × Nat) × ν :=
  if time ≤ limit then
    match (node.ask node.genesis : StateM ν _).run network with
    | ((.ok answer, millis), network) => (some (answer.data, time + millis), network)
    | ((.error _, millis), network) =>
      awaitGenesis node limit (time + millis + retryPause) network
  else (none, network)
termination_by limit + 1 - time
decreasing_by
  simp only [retryPause]
  omega

/-- Asks for the parameters of the network. They come with the milliseconds that it took. -/
def networkSpec (node : NodeClient) : StateM ν (ChainSpec × Nat) := do
  match ← node.ask node.networkConfig with
  | (.ok answer, millis) => return (answer.data.chainSpec, millis)
  | (.error _, millis) => return (ChainSpec.fallback, millis)

/-- The service over a network that began at a time. -/
def assemble (o : Occasion) (s : Settings) (node : NodeClient) (genesis : Genesis)
    (spec : ChainSpec) (network : ν) : Service (NodeBackend ν) :=
  let clock := spec.clock (Duration.ofSeconds genesis.time)
  let execution := s.executionNode.map fun a => ⟨a, patience⟩
  Service.start spec (clock.setTime o.now) ⟨node, execution, network, DutyCache.empty, false⟩
    ValidatorStore.empty

/-- The service with the strategy of a file, if one is named. -/
def installFile {β : Type} (o : Occasion) (file : Option String) (service : Service β) :
    Except StartError (Service β) :=
  match file with
  | none => .ok service
  | some path => do
    let text ← (o.files path).mapError (.unreadable path)
    let strategy ← (Strategy.ofText text).mapError (.malformed path)
    match service.install (UInt64.ofNat o.now.millis) o.random strategy with
    | (.ok _, service) => return service
    | (.error e, _) => throw (.refused path e)

/-- Checks the origins that may call the service. -/
def checkOrigins (s : Settings) : Except StartError Unit :=
  match Http.servedOrigins s.allowOrigin s.httpAddress s.httpPort with
  | .ok _ => .ok ()
  | .error (.refused e) => .error (.origins e)
  | .error (.unusable piece) => .error (.broken piece)

/-- Starts the service. The network comes back also if that fails. -/
def run (o : Occasion) (s : Settings) (network : ν) :
    Except StartError (Service (NodeBackend ν)) × ν :=
  match s.beaconNode with
  | none => (.error .noBeaconNode, network)
  | some address =>
    let node : NodeClient := ⟨address, patience⟩
    match awaitGenesis node o.limit 0 network with
    | (none, network) => (.error .late, network)
    | (some (genesis, time), network) =>
      let ((spec, millis), network) := (networkSpec node : StateM ν _).run network
      let service := do
        if o.limit < time + millis then throw .late
        let service ← installFile o s.strategyFile (assemble o s node genesis spec network)
        checkOrigins s
        return service
      (service, network)

end Startup

namespace Settings

/-- The upkeep that settings ask for. -/
def upkeep (s : Settings) : Upkeep := ⟨s.maxValidatorIndex, s.retentionEpochs⟩

end Settings

namespace Service

variable {ν : Type} [Network ν]

/-- The service after it has run for some milliseconds with these settings. Duties and feedback do
not touch each other, so they are looked after in turn. -/
def runFor (s : Settings) (millis : Nat) (service : Service (NodeBackend ν)) :
    Service (NodeBackend ν) :=
  let service := service.keepDuties s.upkeep millis
  let looks := Feedback.looks (s.feedbackInterval.toNat * 1000) millis
  { service with feedback := service.feedback.look s.retentionEpochs service.clock.slot? looks }

end Service

end Saboteur
