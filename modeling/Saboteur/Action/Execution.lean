import Saboteur.Action
import Saboteur.Attestation.Packing
import Saboteur.Backend
import Saboteur.Payload
import Saboteur.ValidatorStore

/-!
# Executing actions

What an action does for a hook call: it may keep what the call carries, hold the call back, put
attestations into a block, or hand out the root of another block. An action that does not fit the
payload leaves it, and the store, as they are.
-/

namespace Saboteur

/-- What comes of an action. -/
structure Outcome where
  command : Command
  /-- The payload of the answer; none leaves that of the call. -/
  payload : Option Payload
  /-- How long the call is held back. -/
  wait : Duration
  deriving DecidableEq

namespace Outcome

/-- Carry on at once with a payload. -/
def carryOn (payload : Option Payload) : Outcome := ⟨.null, payload, Duration.zero⟩

end Outcome

/-- How long a delay lasts. -/
def Context.wait (ctx : Context) : Action.Delay → Duration
  | .lasting d => d
  | .untilSlot slot offset => ctx.clock.timeUntil slot offset

namespace Attestation

/-- Attestations kept in an epoch whose signer is known and is an attacker at their slot. -/
def ofAttackers (ctx : Context) (store : ValidatorStore) (epoch : Epoch) : List Attestation :=
  (epoch.slots ctx.spec.slotsPerEpoch).flatMap fun slot =>
    ((store.attestationsAt slot).entries.filter fun e =>
      ctx.roleOfPubkey? store slot e.1 = some .attacker).map Prod.snd

end Attestation

namespace Block

/-- A block whose attestations are packed anew together with others. -/
def repack (b : Block) (max : Nat) (extra : List Attestation) : Block :=
  let packed := Attestation.pack (b.body.attestations.toList ++ extra) max
  match Capped.ofList attestationCapacity packed with
  | .ok attestations => { b with body := { b.body with attestations } }
  | .error _ => b

end Block

namespace Payload

/-- A payload whose block, if it has one, is packed anew together with other attestations. -/
def repack (p : Payload) (max : Nat) (extra : List Attestation) : Payload :=
  match p with
  | block b => block (b.repack max extra)
  | signedBlock b => signedBlock { b with message := b.message.repack max extra }
  | other => other

end Payload

namespace Action

/-- What an action keeps of a payload. -/
def keep (a : Action) (slot : Slot) (pubkey : Pubkey) (payload : Option Payload)
    (store : ValidatorStore) : ValidatorStore :=
  match a, payload with
  | addAttestToPool, some (.attestation x) => store.addToPool slot x
  | storeSignedAttest, some (.attestation x) => store.recordAttestation slot pubkey x
  | storeSignedBlock, some (.signedBlock b) => store.recordBlock slot pubkey b
  | _, _ => store

/-- The first slot whose pooled attestations fit into a block: that of the epoch before. -/
def firstPooledSlot (spec : ChainSpec) (slot : Slot) : Slot :=
  spec.epochStart ((spec.epochOf slot).subSat 1)

/-- The last slot whose pooled attestations fit into a block: that of its own epoch. -/
def lastPooledSlot (spec : ChainSpec) (slot : Slot) : Slot := spec.epochEnd (spec.epochOf slot)

/-- Executes an action for a call at a slot by the client of a key. -/
def execute {β : Type} [Backend β] (ctx : Context) (a : Action) (slot : Slot) (pubkey : Pubkey)
    (payload : Option Payload) (store : ValidatorStore) : StateM β (Outcome × ValidatorStore) := do
  let max := ctx.spec.maxAttestationsPerBlock
  match a with
  | control c => return (⟨c, payload, Duration.zero⟩, store)
  | packPooledAttest =>
    match payload with
    | some p =>
      if p.isBlock then
        let (extra, store) :=
          store.drainPool (firstPooledSlot ctx.spec slot) (lastPooledSlot ctx.spec slot)
        return (Outcome.carryOn (some (p.repack max extra)), store)
      else return (Outcome.carryOn payload, store)
    | none => return (Outcome.carryOn payload, store)
  | rePackAttestation =>
    match payload with
    | some p =>
      if p.isBlock then
        let extra := Attestation.ofAttackers ctx store (ctx.spec.epochOf slot)
        return (Outcome.carryOn (some (p.repack max extra)), store)
      else return (Outcome.carryOn payload, store)
    | none => return (Outcome.carryOn payload, store)
  | modifyParentRoot target =>
    match ← blockRoot target with
    | .ok root => return (Outcome.carryOn (some (.root root)), store)
    | .error _ => return (Outcome.carryOn none, store)
  | a =>
    let wait := ((a.delay? slot ctx.spec).map ctx.wait).getD Duration.zero
    return (⟨.null, payload, wait⟩, a.keep slot pubkey payload store)

end Action

end Saboteur
