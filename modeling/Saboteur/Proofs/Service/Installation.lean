import Saboteur.Proofs.Feedback.Run
import Saboteur.Proofs.Service.Roles
import Saboteur.Proofs.Strategy.Compilation
import Saboteur.Proofs.Strategy.Faults

/-!
# Installing a strategy

A strategy is installed as a whole or not at all. It is refused for the first fault of its document,
and then the service stays as it is, but for a counter. Otherwise its rules and windows are in force,
the records of the validators that it declares say what its windows say, and it is tracked.
-/

namespace Saboteur

namespace Service

variable {β : Type}

/-- A strategy with a defect is counted, and nothing else happens. -/
theorem install_of_compile_error {s : Service β} {time : UInt64} {random : RandomStream}
    {strategy : Strategy} {fault : StrategyError}
    (h : RuleSet.compile strategy (uidFor strategy time) random = .error fault) :
    s.install time random strategy = (.error fault, s.count .strategyRejected) := by
  rw [install, h]

/-- A strategy that compiles is put in force as a whole. -/
theorem install_of_compile_ok {s : Service β} {time : UInt64} {random r : RandomStream}
    {strategy : Strategy} {rules : RuleSet}
    (h : RuleSet.compile strategy (uidFor strategy time) random = .ok (rules, r)) :
    s.install time random strategy =
      (.ok rules, (s.enforce time rules).count .strategyInstalled) := by
  rw [install, h]

/-- A service at slot 150 that knows validators 7 and 8. -/
def watchedService : Service Rehearsal :=
  let store := ValidatorStore.empty.register 7 (Rehearsal.pubkey 7) none
  start ChainSpec.mainnet ((ChainSpec.mainnet.clock .zero).setTime (Duration.ofSeconds 1800))
    (Rehearsal.empty 32) (store.register 8 (Rehearsal.pubkey 8) none)

/-- A document with three faults. -/
def faulty : Strategy :=
  { Strategy.empty with
    validators := [⟨7, 1, 2⟩, ⟨8, 4, 3⟩], slots := [⟨"-1", 0, [("BlockBeforeSing", "retrun")]⟩] }

end Service

end Saboteur
