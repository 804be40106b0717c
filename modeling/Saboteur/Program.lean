import Saboteur.Environment
import Saboteur.Service.Startup
import Saboteur.Settings.Load
import Saboteur.Url.Idna

/-!
# The program

From a command line to a running service. The flags are read, the environment is built, the settings
are loaded and the service starts; the first of these that fails ends the program. A service that
runs is ended by a signal.

Addresses are read with the tables of domain names in `Url.Idna.common`.
-/

namespace Saboteur

/-- How the program ends. -/
inductive Ending where
  /-- The command line asked for nothing but a text, or was no command line. -/
  | commandLine (s : CommandLine.Stop)
  | failed (message : String)
  /-- The start was broken off. -/
  | broken
  /-- A signal ended the service. -/
  | signalled
  deriving DecidableEq

namespace Ending

/-- The code that the program ends with. -/
def code : Ending → Nat
  | commandLine .help | commandLine .version | signalled => 0
  | commandLine _ => 2
  | failed _ => 1
  | broken => 101

/-- What the program says about its own failure. -/
def message? : Ending → Option String
  | failed message => some message
  | _ => none

/-- The end after a start that failed. -/
def ofStartError : StartError → Ending
  | .broken _ => broken
  | e => failed e.message

end Ending

namespace Program

/-- The level of the log without a flag. -/
def defaultLevel : String := "info"

/-- The environment that flags ask for. -/
def environment (flags : Flags) : Except EnvironmentError LogTarget := do
  let level := (flags.get? .debugLevel).getD defaultLevel
  (← EnvironmentPlan.empty.withThreads.withLog level (flags.get? .logFormat)).build

/-- The settings that a command line asks for. -/
def settings (files : FileTexts) (arguments : List String) : Except Ending Settings := do
  let flags ← (CommandLine.parse arguments).mapError .commandLine
  let _ ← (environment flags).mapError fun e => .failed e.message
  (Settings.load files flags).mapError fun e =>
    .failed ("Failed to load attacker config: " ++ e.message)

/-- Starts the service that a command line asks for. -/
def start {ν : Type} [Network ν] (o : Occasion) (arguments : List String) (network : ν) :
    Except Ending (Settings × Service (NodeBackend ν)) × ν :=
  match settings o.files arguments with
  | .error e => (.error e, network)
  | .ok s =>
    let (started, network) := Startup.run o s network
    ((started.mapError Ending.ofStartError).map fun service => (s, service), network)

end Program

end Saboteur
