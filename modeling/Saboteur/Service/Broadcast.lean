import Saboteur.Service.Dispatch

/-!
# Broadcast endpoints

Three endpoints that look at the settings of the installed strategy instead of its rules: two hold a
broadcast back, and one moves the slot of an attestation forward while the height of the execution
chain is odd.
-/

namespace Saboteur

namespace BroadcastSettings

/-- How long a broadcast is held back. -/
def delay (b : BroadcastSettings) : Duration :=
  if b.delayEnable then Duration.ofMillis b.broadCastDelay else Duration.zero

end BroadcastSettings

namespace Service

variable {β : Type}

/-- Holds the broadcast of a block back. -/
def blockBroadcastDelay (s : Service β) : Held HookResponse :=
  ⟨HookResponse.carryOn "", s.rules.strategy.block.delay⟩

/-- Holds the broadcast of an attestation back. -/
def attestBroadcastDelay (s : Service β) : Held HookResponse :=
  ⟨HookResponse.carryOn "", s.rules.strategy.attest.delay⟩

/-- The data of an attestation in a text, if there are any. -/
def attestationData? (text : String) : Option AttestationData :=
  match Payload.decode .attestBeforeSign text with
  | .ok (some (.attestationData d)) => some d
  | _ => none

/-- The text of data one slot later. -/
def movedForward (d : AttestationData) : String :=
  (Payload.attestationData { d with slot := d.slot.next }).encode

/-- Moves the slot of an attestation forward, if the settings allow it and the height is odd. -/
def modifyAttestation [Backend β] (s : Service β) (payload : Option String) :
    HookResponse × Service β :=
  let given := payload.getD ""
  let unchanged := HookResponse.carryOn given
  if !s.rules.strategy.attest.modifyEnable then (unchanged, s)
  else match attestationData? given with
    | none => (unchanged, s)
    | some d =>
      let (height, backend) := (blockNumber : StateM β _).run s.backend
      let s := { s with backend }
      match height with
      | .ok n => if n % 2 = 1 then (HookResponse.carryOn (movedForward d), s) else (unchanged, s)
      | .error _ => (unchanged, s)

end Service

end Saboteur
