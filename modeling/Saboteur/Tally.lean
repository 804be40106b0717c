import Saboteur.Action
import Saboteur.Hook
import Saboteur.Table

/-!
# Tallies

What the service counts about itself, by the names under which the counts are published.
-/

namespace Saboteur

/-- Something that is counted. -/
inductive Occurrence where
  | hookCall (h : Hook)
  /-- A call whose duration was measured. -/
  | hookDispatch (h : Hook)
  | actionExecuted (a : String)
  | payloadUnreadable (h : Hook)
  | strategyInstalled
  | strategyRejected
  | strategyCompleted
  deriving DecidableEq

namespace Occurrence

/-- The name of a count, with its label if it has one. -/
def name : Occurrence → String
  | hookCall h => "attacker_hook_calls_total/" ++ h.name
  | hookDispatch h => "attacker_hook_dispatch_seconds/" ++ h.name
  | actionExecuted a => "attacker_actions_executed_total/" ++ a
  | payloadUnreadable h => "attacker_payload_decode_failures_total/" ++ h.name
  | strategyInstalled => "attacker_strategy_installs_total/ok"
  | strategyRejected => "attacker_strategy_installs_total/rejected"
  | strategyCompleted => "attacker_strategies_completed_total"

end Occurrence

/-- How often things happened. -/
abbrev Tally := Table Occurrence Nat

/-- Counts something. -/
def Tally.count (t : Tally) (o : Occurrence) (times : Nat) : Tally :=
  if times = 0 then t else t.alter o 0 (· + times)

end Saboteur
