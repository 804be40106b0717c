import Saboteur.CommandLine
import Saboteur.FileText
import Saboteur.Settings
import Saboteur.Toml.Document

/-!
# Loading settings

Settings are loaded in three layers: defaults, the settings file if a flag names one, and the other
flags in a fixed order. The first fault ends the loading.
-/

namespace Saboteur.Settings

/-- Why settings cannot be loaded. -/
inductive LoadError where
  | unreadable (path : String) (e : FileError)
  | malformed (path : String)
  | integer (f : Flag) (e : Text.IntegerError)
  | ipAddress (f : Flag)
  | node (f : Flag) (e : NodeAddress.ParseError)
  | origin (value : String)
  | noInterval
  deriving DecidableEq

/-- Why the value of a flag cannot be read. -/
def LoadError.unparsable (f : Flag) (cause : String) : String :=
  "Unable to parse " ++ f.name ++ ": " ++ cause

/-- What every report on a malformed file begins with. -/
def LoadError.malformedFile : String := "Unable to parse config file"

/-- The wording of an error. -/
def LoadError.message : LoadError → String
  | .unreadable path e =>
    "Unable to read config file " ++ Text.quoted path ++ ": " ++ e.message
  | .malformed path => malformedFile ++ " " ++ Text.quoted path
  | .integer f e => unparsable f e.message
  | .ipAddress f => unparsable f "invalid IP address syntax"
  | .node f e => unparsable f e.message
  | .origin value =>
    "Invalid --" ++ Flag.httpAllowOrigin.name ++ " value " ++ value ++
      ": expected * or an origin such as http://localhost:3000"
  | .noInterval => "--" ++ Flag.feedbackInterval.name ++ " must be at least 1"

/-- The node without a setting. -/
def defaultNode [Url.Idna] : Except NodeAddress.ParseError NodeAddress :=
  NodeAddress.parse "http://localhost:5052/"

/-- Reads a settings file. -/
def ofFile [Url.Idna] (files : FileTexts) (path : String) : Except LoadError Settings := do
  let text ← (files path).mapError (.unreadable path)
  match Toml.parse? text with
  | none => throw (.malformed path)
  | some j => (read j).mapError fun _ => .malformed path

/-- The value of a flag, if it is given. -/
def flag {α : Type} (flags : Flags) (f : Flag) (value : String → Except LoadError α) :
    Except LoadError (Option α) :=
  match flags.get? f with
  | none => .ok none
  | some s => (value s).map some

/-- Reads a natural number up to a bound. -/
def naturalValue (f : Flag) (bound : Nat) (s : String) : Except LoadError Nat :=
  (Text.readNatural 10 bound s.toList).mapError (.integer f)

/-- Reads a word. -/
def wordValue (f : Flag) (s : String) : Except LoadError UInt64 :=
  (Text.readWord s).mapError (.integer f)

/-- Reads the address of the host. -/
def ipValue (f : Flag) (s : String) : Except LoadError IpAddress :=
  match IpAddress.parse? s with
  | some a => .ok a
  | none => .error (.ipAddress f)

/-- Reads the address of a node. -/
def nodeValue [Url.Idna] (f : Flag) (s : String) : Except LoadError NodeAddress :=
  (NodeAddress.parse s).mapError (.node f)

/-- Checks an origin as far as a start of the service should. -/
def originValue (s : String) : Except LoadError String :=
  if s = "*" ∨ "http".toList <+: s.toList then .ok s else .error (.origin s)

/-- Reads an interval, which lasts a second at least. -/
def intervalValue (s : String) : Except LoadError UInt64 := do
  let n ← wordValue .feedbackInterval s
  if n = 0 then throw .noInterval
  return n

/-- Settings with flags before them. -/
def withFlags [Url.Idna] (s : Settings) (flags : Flags) : Except LoadError Settings := do
  let address ← flag flags .httpAddress (ipValue .httpAddress)
  let port ← flag flags .httpPort (naturalValue .httpPort 65535)
  let origin ← flag flags .httpAllowOrigin originValue
  let beaconNode ← flag flags .beaconNode (nodeValue .beaconNode)
  let beaconNode ← match beaconNode.or s.beaconNode with
    | some a => pure a
    | none => defaultNode.mapError (.node .beaconNode)
  let executionNode ← flag flags .executionNode (nodeValue .executionNode)
  let strategyFile ← flag flags .strategyFile .ok
  let maxValidatorIndex ← flag flags .maxValidatorIndex (wordValue .maxValidatorIndex)
  let retention ← flag flags .cacheRetentionEpochs (wordValue .cacheRetentionEpochs)
  let interval ← flag flags .feedbackInterval intervalValue
  return {
    httpAddress := address.getD s.httpAddress
    httpPort := port.getD s.httpPort
    beaconNode := some beaconNode
    executionNode := executionNode.or s.executionNode
    strategyFile := strategyFile.or s.strategyFile
    maxValidatorIndex := maxValidatorIndex.getD s.maxValidatorIndex
    retentionEpochs := retention.or s.retentionEpochs
    feedbackInterval := interval.getD s.feedbackInterval
    allowOrigin := origin.or s.allowOrigin }

/-- Loads the settings that flags ask for. -/
def load [Url.Idna] (files : FileTexts) (flags : Flags) : Except LoadError Settings := do
  let seed ← match flags.get? .configFile with
    | none => pure Settings.default
    | some path => ofFile files path
  seed.withFlags flags

end Saboteur.Settings
