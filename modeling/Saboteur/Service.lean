import Saboteur.Backend
import Saboteur.Feedback
import Saboteur.Tally
import Saboteur.ValidatorStore

/-!
# The service

The state behind every endpoint: the rule set in force, the validators, the tracker of strategies,
and the backend that answers questions about the chain.

A strategy is installed as a whole or not at all. The windows in force are always those of the rule
set in force.
-/

namespace Saboteur

/-- The state of the service. -/
structure Service (β : Type) where
  spec : ChainSpec
  clock : SlotClock
  backend : β
  validators : ValidatorStore
  rules : RuleSet
  feedback : Feedback
  tally : Tally

namespace Service

variable {β : Type}

/-- A service in which no strategy is installed. -/
def start (spec : ChainSpec) (clock : SlotClock) (backend : β) (validators : ValidatorStore) :
    Service β :=
  { spec, clock, backend, validators, rules := RuleSet.empty,
    feedback := Feedback.empty spec.slotsPerEpoch, tally := Table.empty }

/-- Counts something. -/
def count (s : Service β) (o : Occurrence) : Service β := { s with tally := s.tally.count o 1 }

/-- The context of a call that begins now. -/
def context (s : Service β) : Context :=
  { spec := s.spec, clock := s.clock, windows := s.rules.windows }

/-! ## Installing strategies -/

/-- The name of a strategy that is installed at a time: its own, or the time in milliseconds. -/
def uidFor (strategy : Strategy) (time : UInt64) : String :=
  strategy.uid.getD (Word.decimal time)

/-- Writes the roles of the slot in progress into the records, if a slot is in progress. -/
def updateRolesNow (clock : SlotClock) (store : ValidatorStore) : ValidatorStore :=
  match clock.slot? with
  | some slot => store.updateRoles slot
  | none => store

/-- Puts a compiled rule set in force. -/
def enforce (s : Service β) (time : UInt64) (rules : RuleSet) : Service β :=
  { s with
    validators := updateRolesNow s.clock (s.validators.setWindows rules.windows)
    rules
    feedback := s.feedback.add time.toNat rules }

/-- Installs a strategy at a time in milliseconds. A strategy with a fault leaves everything but the
count of rejected strategies as it is. -/
def install (s : Service β) (time : UInt64) (random : RandomStream) (strategy : Strategy) :
    Except StrategyError RuleSet × Service β :=
  match RuleSet.compile strategy (uidFor strategy time) random with
  | .error fault => (.error fault, s.count .strategyRejected)
  | .ok (rules, _) => (.ok rules, (s.enforce time rules).count .strategyInstalled)

/-! ## Feedback -/

/-- Makes the announcements that are due at a slot. -/
def pollFeedback (s : Service β) (slot : Slot) : List StrategyEnd × Service β :=
  let ends := s.feedback.due slot
  (ends, { s with
    feedback := s.feedback.poll slot
    tally := s.tally.count .strategyCompleted ends.length })

end Service

end Saboteur
