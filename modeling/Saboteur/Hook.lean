import Saboteur.Json.Fields

/-!
# Hooks

A validator client calls the service at fixed points of its work: before and after it signs,
proposes or broadcasts a block or an attestation. The name of the point decides what the call
carries.
-/

namespace Saboteur

/-- What a hook call carries. -/
inductive PayloadKind where
  | none
  | block
  | signedBlock
  | attestationData
  | attestation
  deriving DecidableEq

/-- A point of a client's work at which it calls. -/
inductive Hook where
  | blockDelayForBroadCast
  | blockDelayForReceiveBlock
  | blockBeforeBroadCast
  | blockAfterBroadCast
  | blockBeforeSign
  | blockAfterSign
  | blockBeforePropose
  | blockAfterPropose
  | attestBeforeBroadCast
  | attestAfterBroadCast
  | attestBeforeSign
  | attestAfterSign
  | attestBeforePropose
  | attestAfterPropose
  deriving DecidableEq

/-- The name of a kind of payload. -/
def PayloadKind.name : PayloadKind → String
  | .none => "None"
  | .block => "BeaconBlock"
  | .signedBlock => "SignedBeaconBlock"
  | .attestationData => "AttestationData"
  | .attestation => "Attestation"

namespace Hook

/-- All hooks: those of blocks, then those of attestations. -/
def all : List Hook :=
  [blockDelayForBroadCast, blockDelayForReceiveBlock, blockBeforeBroadCast, blockAfterBroadCast,
    blockBeforeSign, blockAfterSign, blockBeforePropose, blockAfterPropose, attestBeforeBroadCast,
    attestAfterBroadCast, attestBeforeSign, attestAfterSign, attestBeforePropose,
    attestAfterPropose]

theorem mem_all (h : Hook) : h ∈ all := by
  cases h <;> decide

/-- The name of a hook. -/
def name : Hook → String
  | blockDelayForBroadCast => "BlockDelayForBroadCast"
  | blockDelayForReceiveBlock => "BlockDelayForReceiveBlock"
  | blockBeforeBroadCast => "BlockBeforeBroadCast"
  | blockAfterBroadCast => "BlockAfterBroadCast"
  | blockBeforeSign => "BlockBeforeSign"
  | blockAfterSign => "BlockAfterSign"
  | blockBeforePropose => "BlockBeforePropose"
  | blockAfterPropose => "BlockAfterPropose"
  | attestBeforeBroadCast => "AttestBeforeBroadCast"
  | attestAfterBroadCast => "AttestAfterBroadCast"
  | attestBeforeSign => "AttestBeforeSign"
  | attestAfterSign => "AttestAfterSign"
  | attestBeforePropose => "AttestBeforePropose"
  | attestAfterPropose => "AttestAfterPropose"

/-- The hook with a name. -/
def ofName? (s : String) : Option Hook := all.find? fun h => h.name = s

theorem ofName?_name (h : Hook) : ofName? h.name = some h := by
  cases h <;> rfl

theorem name_of_ofName? {s : String} {h : Hook} (e : ofName? s = some h) : h.name = s := by
  simpa using List.find?_some e

/-- What calls of a hook carry. Only the hooks around signing and proposing carry anything. -/
def payloadKind : Hook → PayloadKind
  | blockDelayForBroadCast | blockDelayForReceiveBlock | blockBeforeBroadCast
  | blockAfterBroadCast | attestBeforeBroadCast | attestAfterBroadCast => .none
  | blockBeforeSign => .block
  | blockAfterSign | blockBeforePropose | blockAfterPropose => .signedBlock
  | attestBeforeSign => .attestationData
  | attestAfterSign | attestBeforePropose | attestAfterPropose => .attestation

end Hook

instance : WriteJson Hook := ⟨fun h => .text h.name⟩

instance : ReadJson Hook where
  read j := do
    match Hook.ofName? (← Json.readName j) with
    | some h => return h
    | none => throw .mismatch

end Saboteur
