import Saboteur.Node.Backend
import Saboteur.Service

/-!
# Upkeep

What a service does beside answering calls, on a timetable in milliseconds. Duties are asked for in
rounds: the proposers of the epoch in progress and of the next one, up to the first failure, and
then the attesters of the epoch in progress. Once a second the roles in the records are brought up
to date.

Who appears in an answer is registered before the answer is remembered, and keeps the role that is
already known. While no slot is in progress nothing is asked or changed.
-/

namespace Saboteur

/-- The settings of the upkeep. -/
structure Upkeep where
  /-- Attester duties are asked for up to this validator. -/
  maxValidatorIndex : UInt64
  /-- How many epochs are kept; all of them without a value. -/
  retention : Option UInt64

namespace Upkeep

/-- How long after the start the first round begins. -/
def firstRound : Nat := 100

/-- How long after a round the next one begins. -/
def roundPause : Nat := 2000

/-- How long after an update of roles the next one comes. -/
def rolePause : Nat := 1000

/-- The validators that attester duties are asked for. -/
def indices (u : Upkeep) : List UInt64 :=
  (List.range (u.maxValidatorIndex.toNat + 1)).map UInt64.ofNat

end Upkeep

/-- The parts of a round. -/
inductive DutyStage where
  | proposers
  | attesters
  deriving DecidableEq

namespace Service

variable {α ν : Type} [Network ν]

/-- Asks the beacon node a question. The result comes with the milliseconds that it took. -/
def askBeacon (q : Question α) :
    StateM (Service (NodeBackend ν)) (Except NodeError α × Nat) := fun s =>
  let (r, network) := (s.backend.beacon.ask q : StateM ν _).run s.backend.network
  (r, { s with backend := { s.backend with network } })

/-- Registers validators, and changes what is remembered of duties. -/
def learn (s : Service (NodeBackend ν)) (validators : List (UInt64 × Pubkey))
    (change : DutyCache → DutyCache) : Service (NodeBackend ν) :=
  { s with
    validators := s.validators.registerAll validators
    backend := { s.backend with duties := change s.backend.duties } }

/-- Asks for the proposers of an epoch. Tells whether that went well, and how long it took. -/
def fetchProposers (epoch : Epoch) : StateM (Service (NodeBackend ν)) (Bool × Nat) := do
  match ← askBeacon ((← get).backend.beacon.proposers epoch) with
  | (.error _, millis) => return (false, millis)
  | (.ok answer, millis) =>
    modify fun s => s.learn (answer.data.map fun d => (d.validatorIndex, d.pubkey))
      fun c => c.setProposers epoch answer.data
    return (true, millis)

/-- Asks for the attesters of an epoch. Tells how long that took. -/
def fetchAttesters (u : Upkeep) (epoch : Epoch) : StateM (Service (NodeBackend ν)) Nat := do
  match ← askBeacon ((← get).backend.beacon.attesters epoch u.indices) with
  | (.error _, millis) => return millis
  | (.ok answer, millis) =>
    modify fun s => s.learn (answer.data.map fun d => (d.validatorIndex, d.pubkey))
      fun c => c.setAttesters epoch answer.data
    return millis

/-- Asks for the proposers of epochs one after the other, up to the first failure. Tells how long
that took. -/
def fetchInTurn : List Epoch → StateM (Service (NodeBackend ν)) Nat
  | [] => return 0
  | epoch :: rest => do
    let (ok, millis) ← fetchProposers epoch
    if ok then return millis + (← fetchInTurn rest) else return millis

/-- Asks for the proposers of the epoch in progress and of the next one. Tells how long that
took. -/
def pollProposers : StateM (Service (NodeBackend ν)) Nat := do
  let s ← get
  match s.clock.slot? with
  | none => return 0
  | some slot =>
    let epoch := s.spec.epochOf slot
    fetchInTurn [epoch, epoch.addSat 1]

/-- Asks for the attesters of the epoch in progress. Tells how long that took. -/
def pollAttesters (u : Upkeep) : StateM (Service (NodeBackend ν)) Nat := do
  let s ← get
  match s.clock.slot? with
  | none => return 0
  | some slot => fetchAttesters u (s.spec.epochOf slot)

/-- Does a part of a round. Tells how long it took. -/
def doStage (u : Upkeep) : DutyStage → StateM (Service (NodeBackend ν)) Nat
  | .proposers => pollProposers
  | .attesters => pollAttesters u

/-- Brings the roles up to date, and drops what is too old. -/
def updateRoles (s : Service (NodeBackend ν)) (u : Upkeep) : Service (NodeBackend ν) :=
  let (validators, duties) := maintain s.spec s.clock u.retention s.validators s.backend.duties
  { s with validators, backend := { s.backend with duties } }

end Service

/-! ## The timetable -/

/-- When what comes next. -/
structure Timetable where
  stage : DutyStage
  stageAt : Nat
  rolesAt : Nat

namespace Timetable

variable {ν : Type} [Network ν]

/-- The timetable of a service that starts. -/
def start : Timetable := ⟨.proposers, Upkeep.firstRound, Upkeep.rolePause⟩

/-- The timetable after the part of a round that is due. -/
def afterStage (t : Timetable) (millis : Nat) : Timetable :=
  match t.stage with
  | .proposers => { t with stage := .attesters, stageAt := t.stageAt + millis }
  | .attesters => { t with
      stage := .proposers
      stageAt := t.stageAt + millis + Upkeep.roundPause }

/-- What is left of a timetable until a time. -/
def left (t : Timetable) (limit : Nat) : Nat :=
  2 * (limit + 1 - t.stageAt) + (if t.stage = .proposers then 1 else 0) + (limit + 1 - t.rolesAt)

theorem left_afterStage (t : Timetable) (limit : Nat) (millis : Nat) (h : t.stageAt ≤ limit) :
    (t.afterStage millis).left limit < t.left limit := by
  unfold afterStage left
  split
  · rename_i hs
    simp only [hs, reduceCtorEq, if_false, if_true]
    omega
  · rename_i hs
    simp only [hs, reduceCtorEq, if_false, if_true, Upkeep.roundPause]
    omega

/-- The service after all that is due until a time. -/
def run (u : Upkeep) (limit : Nat) (t : Timetable) (s : Service (NodeBackend ν)) :
    Service (NodeBackend ν) :=
  if t.rolesAt < t.stageAt then
    if t.rolesAt ≤ limit then
      run u limit { t with rolesAt := t.rolesAt + Upkeep.rolePause } (s.updateRoles u)
    else s
  else if t.stageAt ≤ limit then
    let r := (Service.doStage u t.stage).run s
    run u limit (t.afterStage r.1) r.2
  else s
termination_by t.left limit
decreasing_by
  · simp only [left, Upkeep.rolePause]
    omega
  · exact left_afterStage t limit _ (by assumption)

end Timetable

namespace Service

variable {ν : Type} [Network ν]

/-- The service after some milliseconds of asking for duties and updating roles. -/
def keepDuties (u : Upkeep) (millis : Nat) (s : Service (NodeBackend ν)) :
    Service (NodeBackend ν) :=
  Timetable.start.run u millis s

end Service

end Saboteur
