import Saboteur.NodeAddress

/-!
# Settings

What the service is started with. Every setting has a default; a settings file may give any of them,
and flags of the command line go before the file.
-/

namespace Saboteur

/-- Where the service listens. -/
structure ListenSettings where
  address : IpAddress
  port : Nat
  /-- Which pages of other origins may call the service. -/
  allowOrigin : Option String
  deriving DecidableEq

/-- The settings of the service. -/
structure Settings where
  httpAddress : IpAddress
  httpPort : Nat
  beaconNode : Option NodeAddress
  executionNode : Option NodeAddress
  /-- A strategy that is installed at the start. -/
  strategyFile : Option String
  /-- Attester duties are asked for up to this validator. -/
  maxValidatorIndex : UInt64
  /-- How long what is cached stays; forever without a value. -/
  retentionEpochs : Option UInt64
  /-- The seconds between looks for completed strategies. -/
  feedbackInterval : UInt64
  allowOrigin : Option String
  deriving DecidableEq

namespace ListenSettings

/-- The port without a setting. -/
def defaultPort : Nat := 10000

/-- Only the host itself is served without a setting. -/
def default : ListenSettings := ⟨.localhost, defaultPort, none⟩

end ListenSettings

namespace Settings

/-- The settings without a file and without flags. -/
def default : Settings where
  httpAddress := .localhost
  httpPort := ListenSettings.defaultPort
  beaconNode := none
  executionNode := none
  strategyFile := none
  maxValidatorIndex := 63
  retentionEpochs := none
  feedbackInterval := 10
  allowOrigin := none

end Settings

/-! ## Documents -/

/-- Reads a port. -/
def Json.readPort : Json → Except JsonError Nat := readNatural 65536

instance : ReadJson ListenSettings where
  read j := do
    let f ← Json.fields ["listen_addr", "listen_port", "allow_origin"] j
    let address ← f.required "listen_addr" read
    let port ← f.required "listen_port" Json.readPort
    let allowOrigin ← f.optional "allow_origin" Json.readText
    return { address, port, allowOrigin }

instance : WriteJson ListenSettings where
  write s := .obj [
    ("listen_addr", write s.address),
    ("listen_port", .nat s.port),
    ("allow_origin", Json.option .text s.allowOrigin)]

instance [Url.Idna] : ReadJson Settings where
  read j := do
    let d := Settings.default
    let f ← Json.fields ["http_address", "http_port", "beacon_node", "execution_node",
      "strategy_file", "max_validator_index", "cache_retention_epochs", "feedback_interval",
      "allow_origin"] j
    let httpAddress ← f.defaulted "http_address" d.httpAddress read
    let httpPort ← f.defaulted "http_port" d.httpPort Json.readPort
    let beaconNode ← f.defaulted "beacon_node" d.beaconNode (Json.readOption read)
    let executionNode ← f.defaulted "execution_node" d.executionNode (Json.readOption read)
    let strategyFile ← f.defaulted "strategy_file" d.strategyFile (Json.readOption Json.readText)
    let maxValidatorIndex ← f.defaulted "max_validator_index" d.maxValidatorIndex Json.readWord
    let retentionEpochs ←
      f.defaulted "cache_retention_epochs" d.retentionEpochs (Json.readOption Json.readWord)
    let feedbackInterval ← f.defaulted "feedback_interval" d.feedbackInterval Json.readWord
    let allowOrigin ← f.defaulted "allow_origin" d.allowOrigin (Json.readOption Json.readText)
    return { httpAddress, httpPort, beaconNode, executionNode, strategyFile, maxValidatorIndex,
             retentionEpochs, feedbackInterval, allowOrigin }

instance : WriteJson Settings where
  write s := .obj [
    ("http_address", write s.httpAddress),
    ("http_port", .nat s.httpPort),
    ("beacon_node", Json.option write s.beaconNode),
    ("execution_node", Json.option write s.executionNode),
    ("strategy_file", Json.option .text s.strategyFile),
    ("max_validator_index", .word s.maxValidatorIndex),
    ("cache_retention_epochs", Json.option .word s.retentionEpochs),
    ("feedback_interval", .word s.feedbackInterval),
    ("allow_origin", Json.option .text s.allowOrigin)]

end Saboteur
