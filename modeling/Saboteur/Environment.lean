import Saboteur.Log.Level

/-!
# Environment

Before the service starts it needs threads to run on and a log. Both are asked for one after the
other, and an environment without one of them is refused.
-/

namespace Saboteur

/-- Where the log goes. -/
inductive LogTarget where
  | nowhere
  | terminal (threshold : Log.Level)
  /-- One document for each record. -/
  | documents (threshold : Log.Level)
  deriving DecidableEq

/-- Why there is no environment. -/
inductive EnvironmentError where
  | noRuntime
  | noLog
  | level (message : String)
  | format
  deriving DecidableEq

/-- The wording of an environment error. -/
def EnvironmentError.message : EnvironmentError → String
  | .noRuntime => "Cannot build environment without runtime"
  | .noLog => "Cannot build environment without log"
  | .level message => message
  | .format => "Logging format provided is not supported"

/-- What is asked for so far. -/
structure EnvironmentPlan where
  threads : Bool
  log : Option LogTarget

namespace EnvironmentPlan

/-- Nothing is asked for. -/
def empty : EnvironmentPlan := ⟨false, none⟩

/-- Asks for threads. -/
def withThreads (p : EnvironmentPlan) : EnvironmentPlan := { p with threads := true }

/-- Asks for a log that keeps nothing. -/
def withSilentLog (p : EnvironmentPlan) : EnvironmentPlan := { p with log := some .nowhere }

/-- A letter without its case. The long s is an s. -/
def foldLetter (c : Char) : Char := if c = 'ſ' then 'S' else c.toUpper

/-- Whether a text names the format of documents. -/
def namesDocuments (format : String) : Bool := format.toList.map foldLetter = "JSON".toList

/-- Asks for a log in a format. The level is looked at first. -/
def withLog (p : EnvironmentPlan) (level : String) (format : Option String) :
    Except EnvironmentError EnvironmentPlan := do
  let threshold ← (Log.Level.parse level).mapError .level
  match format with
  | none => return { p with log := some (.terminal threshold) }
  | some f =>
    if namesDocuments f then return { p with log := some (.documents threshold) }
    else throw .format

/-- The log of a plan that has all it needs. -/
def build (p : EnvironmentPlan) : Except EnvironmentError LogTarget :=
  if !p.threads then .error .noRuntime
  else match p.log with
    | some target => .ok target
    | none => .error .noLog

end EnvironmentPlan

end Saboteur
