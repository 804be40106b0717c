import Saboteur.Node.Answer
import Saboteur.SlotClock
import Saboteur.ValidatorStore

/-!
# Duties

The duties of epochs as a node told them last, and the update of roles that runs beside the polling
of duties. Proposers and attesters are kept apart.
-/

namespace Saboteur

/-- The duties of epochs. -/
structure DutyCache where
  proposers : Table Epoch (List ProposerDuty)
  attesters : Table Epoch (List AttesterDuty)

namespace DutyCache

/-- The cache without duties. -/
def empty : DutyCache := ⟨Table.empty, Table.empty⟩

/-- Keeps the proposers of an epoch in place of what was kept before. -/
def setProposers (c : DutyCache) (epoch : Epoch) (duties : List ProposerDuty) : DutyCache :=
  { c with proposers := c.proposers.set epoch duties }

/-- Keeps the attesters of an epoch in place of what was kept before. -/
def setAttesters (c : DutyCache) (epoch : Epoch) (duties : List AttesterDuty) : DutyCache :=
  { c with attesters := c.attesters.set epoch duties }

/-- Drops the duties of epochs before the given one. -/
def prune (c : DutyCache) (oldest : Epoch) : DutyCache :=
  ⟨c.proposers.filter fun e _ => oldest ≤ e, c.attesters.filter fun e _ => oldest ≤ e⟩

end DutyCache

namespace ValidatorStore

/-- Registers validators, whose roles are kept. -/
def registerAll (s : ValidatorStore) (validators : List (UInt64 × Pubkey)) : ValidatorStore :=
  validators.foldl (fun s v => s.register v.1 v.2 none) s

end ValidatorStore

/-- The first epoch that is kept when so many epochs before that of a slot are. -/
def oldestEpoch (spec : ChainSpec) (slot : Slot) (retention : UInt64) : Epoch :=
  (spec.epochOf slot).subSat retention

/-- One round of the role updater: the roles of the slot in progress are written into the records,
and what is too old is dropped if old duties are not kept. Without a slot nothing happens. -/
def maintain (spec : ChainSpec) (clock : SlotClock) (retention : Option UInt64)
    (store : ValidatorStore) (cache : DutyCache) : ValidatorStore × DutyCache :=
  match clock.slot? with
  | none => (store, cache)
  | some slot =>
    let store := store.updateRoles slot
    match retention with
    | none => (store, cache)
    | some r =>
      let oldest := oldestEpoch spec slot r
      (store.prune (spec.epochStart oldest), cache.prune oldest)

end Saboteur
