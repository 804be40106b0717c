/-!
# Log levels

How much is logged, from the gravest to the most detailed. A level lets through what is at least as
grave as itself.
-/

namespace Saboteur.Log

/-- The gravity of a record. -/
inductive Level where
  | critical
  | error
  | warning
  | info
  | debug
  | trace
  deriving DecidableEq

namespace Level

/-- All levels, the gravest first. -/
def all : List Level := [critical, error, warning, info, debug, trace]

/-- How an operator writes a level. -/
def flag : Level → String
  | critical => "crit"
  | error => "error"
  | warning => "warn"
  | info => "info"
  | debug => "debug"
  | trace => "trace"

/-- The name of a level in a log. -/
def name : Level → String
  | critical => "CRITICAL"
  | error => "ERROR"
  | warning => "WARNING"
  | info => "INFO"
  | debug => "DEBUG"
  | trace => "TRACE"

/-- How detailed a level is. -/
def rank : Level → Nat
  | critical => 0
  | error => 1
  | warning => 2
  | info => 3
  | debug => 4
  | trace => 5

/-- Reads a level as an operator writes it. The error says what is wrong. -/
def parse (s : String) : Except String Level :=
  match all.find? fun l => l.flag = s with
  | some l => .ok l
  | none => .error ("Unknown debug-level: " ++ s)

/-- Whether a level lets a record through. -/
def admits (threshold l : Level) : Bool := l.rank ≤ threshold.rank

end Level

/-- How many records of each grave level were logged. -/
structure Counts where
  infos : Nat
  warnings : Nat
  errors : Nat
  criticals : Nat
  deriving DecidableEq

namespace Counts

/-- The counts of a log through which a level lets records. -/
def ofRecords (threshold : Level) (records : List Level) : Counts :=
  let logged := records.filter threshold.admits
  ⟨logged.count .info, logged.count .warning, logged.count .error, logged.count .critical⟩

end Counts

end Saboteur.Log
