import Saboteur.Log.Level
import Saboteur.Table
import Saboteur.Text.Cutting

/-!
# Command line

A command line gives values to flags, as `--flag value` or as `--flag=value`. Every flag may be
given once. A value that stands alone is checked when the next flag comes or the line ends, so an
unknown argument behind it is reported first.
-/

namespace Saboteur

/-- A flag with a value. -/
inductive Flag where
  | configFile
  | debugLevel
  | logFormat
  | httpAddress
  | httpPort
  | httpAllowOrigin
  | beaconNode
  | executionNode
  | strategyFile
  | maxValidatorIndex
  | cacheRetentionEpochs
  | feedbackInterval
  deriving DecidableEq

namespace Flag

/-- All flags. -/
def all : List Flag :=
  [configFile, debugLevel, logFormat, httpAddress, httpPort, httpAllowOrigin, beaconNode,
    executionNode, strategyFile, maxValidatorIndex, cacheRetentionEpochs, feedbackInterval]

/-- The name of a flag behind its two dashes. -/
def name : Flag → String
  | configFile => "config-file"
  | debugLevel => "debug-level"
  | logFormat => "log-format"
  | httpAddress => "http-address"
  | httpPort => "http-port"
  | httpAllowOrigin => "http-allow-origin"
  | beaconNode => "beacon-node"
  | executionNode => "execution-node"
  | strategyFile => "strategy-file"
  | maxValidatorIndex => "max-validator-index"
  | cacheRetentionEpochs => "cache-retention-epochs"
  | feedbackInterval => "feedback-interval"

/-- The flag of a name. The flag of the settings file has a second, shorter one. -/
def ofName? (s : String) : Option Flag :=
  if s = "config" then some configFile else all.find? fun f => f.name = s

/-- Whether a flag takes a value. Two flags have a choice of values. -/
def admits (f : Flag) (value : String) : Bool :=
  match f with
  | debugLevel => Log.Level.all.any fun l => l.flag = value
  | logFormat => value = "JSON"
  | _ => true

end Flag

/-- The values of the flags that are given. -/
abbrev Flags := Table Flag String

namespace CommandLine

/-- Why a command line gives no flags. -/
inductive Stop where
  | help
  | version
  | unknownArgument
  /-- A flag without a value, or with one that it does not take. -/
  | invalidValue
  | repeatedFlag
  /-- A value for a flag that takes none. -/
  | needlessValue
  deriving DecidableEq

/-- The kind of a stop. -/
def Stop.kind : Stop → String
  | help => "DisplayHelp"
  | version => "DisplayVersion"
  | unknownArgument => "UnknownArgument"
  | invalidValue => "InvalidValue"
  | repeatedFlag => "ArgumentConflict"
  | needlessValue => "TooManyValues"

/-- How far a command line is read. -/
structure Progress where
  given : Flags
  /-- The last flag, with its value if that has come; it is not yet checked. -/
  open? : Option (Flag × Option String)
  /-- Whether no more flags may come. -/
  trailing : Bool

namespace Progress

/-- Nothing is read yet. -/
def start : Progress := ⟨Table.empty, none, false⟩

/-- Gives a flag its value. -/
def give (p : Progress) (f : Flag) (value : String) : Except Stop Progress :=
  if p.given.contains f then .error .repeatedFlag
  else if f.admits value then .ok { p with given := p.given.set f value, open? := none }
  else .error .invalidValue

/-- Checks the last flag. -/
def close (p : Progress) : Except Stop Progress :=
  match p.open? with
  | none => .ok p
  | some (_, none) => .error .invalidValue
  | some (f, some value) => p.give f value

/-- Stops, if the last flag is in order. -/
def stop (p : Progress) (s : Stop) : Except Stop Progress := do
  let _ ← p.close
  throw s

/-- Takes an argument that begins with two dashes. -/
def takeLong (p : Progress) (name : String) (attached : Option String) : Except Stop Progress :=
  if name = "help" ∨ name = "version" then
    if attached.isSome then .error .needlessValue
    else p.stop (if name = "help" then .help else .version)
  else match Flag.ofName? name, attached with
    | none, _ => .error .unknownArgument
    | some f, some value => do (← p.close).give f value
    | some f, none => do return { (← p.close) with open? := some (f, none) }

/-- Takes an argument that is no flag. -/
def takeValue (p : Progress) (value : String) : Except Stop Progress :=
  match p.open? with
  | some (f, none) => .ok { p with open? := some (f, some value) }
  | _ => .error .unknownArgument

/-- Takes the next argument. -/
def take (p : Progress) (argument : String) : Except Stop Progress :=
  if p.trailing then .error .unknownArgument
  else match argument.toList with
    | ['-', '-'] => .ok { p with trailing := true }
    | '-' :: '-' :: s =>
      let value := s.dropWhile (· ≠ '=')
      p.takeLong (String.ofList (s.takeWhile (· ≠ '=')))
        (if value.isEmpty then none else some (String.ofList (value.drop 1)))
    | '-' :: 'h' :: _ => p.stop .help
    | '-' :: 'V' :: _ => p.stop .version
    | '-' :: _ :: _ => .error .unknownArgument
    | _ => p.takeValue argument

end Progress

/-- Reads a command line. -/
def parse (arguments : List String) : Except Stop Flags := do
  return (← (← arguments.foldlM Progress.take .start).close).given

end CommandLine

end Saboteur
