import Saboteur.Proofs.Block.Reassembly
import Saboteur.Proofs.Service.Dispatch
import Saboteur.Proofs.Service.Run
import Saboteur.Proofs.Tables

/-!
# What a hook call writes

Four kinds of action write to the validator store, each one thing: one puts an attestation into the
pool, two keep what a client has signed, and one empties the pool for a block. Each does so only for
a call that carries what it is made for. Any other call leaves the store as it is, and no call
touches the rules in force or the tracker.
-/

namespace Saboteur

namespace Action

/-- Whether an action writes to the store for a call that carries a payload. -/
def writes : Action → Payload → Bool
  | addAttestToPool, .attestation _ => true
  | storeSignedAttest, .attestation _ => true
  | storeSignedBlock, .signedBlock _ => true
  | packPooledAttest, p => p.isBlock
  | _, _ => false

section Writing

variable (slot : Slot) (pubkey : Pubkey) (before after : ValidatorStore)

/-- What an action that writes has made of a store for a call at a slot by the client of a key. -/
inductive Written : Action → Payload → Prop where
  /-- The attestation is the last one of the pool of the slot. -/
  | pooled (x : Attestation) (rest : after = { before with pool := after.pool })
      (appended : ∀ t, after.pool.get? t =
        if slot = t then some ((before.pool.get? t).getD [] ++ [x]) else before.pool.get? t) :
      Written addAttestToPool (.attestation x)
  /-- The attestation is kept for the slot and the key. -/
  | attestation (x : Attestation)
      (rest : after = { before with attestations := after.attestations })
      (kept : ∀ t key, (after.attestationsAt t).get? key =
        if slot = t ∧ pubkey = key then some x else (before.attestationsAt t).get? key) :
      Written storeSignedAttest (.attestation x)
  /-- The block is kept for the slot and the key. -/
  | block (x : SignedBlock) (rest : after = { before with blocks := after.blocks })
      (kept : ∀ t key, (after.blocksAt t).get? key =
        if slot = t ∧ pubkey = key then some x else (before.blocksAt t).get? key) :
      Written storeSignedBlock (.signedBlock x)
  /-- The pool is empty. -/
  | drained (p : Payload) (carried : p.isBlock = true)
      (rest : after = { before with pool := Table.empty }) :
      Written packPooledAttest p

end Writing

section Execution

variable {β : Type} [Backend β] (ctx : Context) (slot : Slot) (pubkey : Pubkey)
  (store : ValidatorStore) (b : β)

theorem written_execute {a : Action} {p : Payload} (h : a.writes p = true) :
    Written slot pubkey store ((a.execute ctx slot pubkey (some p) store).run b).1.2 a p := by
  unfold writes at h
  split at h
  case h_1 x =>
    refine .pooled x rfl fun t => ?_
    refine (Table.get?_alter store.pool slot t [] (· ++ [x])).trans ?_
    by_cases ht : slot = t
    · subst ht
      rfl
    · rw [if_neg ht, if_neg ht]
  case h_2 x =>
    exact .attestation x rfl fun t key =>
      Table.get?_getD_alter_set store.attestations slot t pubkey key x
  case h_3 x =>
    exact .block x rfl fun t key => Table.get?_getD_alter_set store.blocks slot t pubkey key x
  case h_4 =>
    refine .drained p h ?_
    simp only [execute, if_pos h]
    rfl
  case h_5 => cases h

theorem keep_of_not_writes {a : Action} {payload : Option Payload}
    (h : ∀ p, payload = some p → a.writes p = false) :
    a.keep slot pubkey payload store = store := by
  unfold keep
  split
  case h_4 => rfl
  -- in the other cases the action writes
  all_goals cases h _ rfl

/-- **An action that the payload is not made for leaves the store as it is.** -/
theorem store_execute_of_not_writes {a : Action} {payload : Option Payload}
    (h : ∀ p, payload = some p → a.writes p = false) :
    ((a.execute ctx slot pubkey payload store).run b).1.2 = store := by
  cases a with
  | control c => rfl
  | packPooledAttest =>
    rw [execute_packPooledAttest_of_not_isBlock ctx slot pubkey store b h]
  | rePackAttestation =>
    cases payload with
    | none => rfl
    | some p =>
      simp only [execute]
      split <;> rfl
  | modifyParentRoot target =>
    simp only [execute]
    rw [StateT.run_bind]
    obtain ⟨answer, _⟩ := (blockRoot target : StateM β _).run b
    cases answer <;> rfl
  | _ => exact keep_of_not_writes slot pubkey store h

end Execution

end Action

namespace Service

variable {β : Type} [Backend β]

theorem Binds.unique {s : Service β} {h : Hook} {slot : Slot} {a a' : Action}
    (ha : s.Binds h slot a) (ha' : s.Binds h slot a') : a = a' :=
  Option.some.inj ((actionFor_eq_some_iff.2 ha).symm.trans (actionFor_eq_some_iff.2 ha'))

/-- The store after a call whose text is read. -/
theorem validators_dispatch_of_binds {s : Service β} {h : Hook} {call : HookRequest} {a : Action}
    {payload : Option Payload} (ha : s.Binds h call.slot a)
    (hread : payloadFor h call.text = .ok payload) :
    (s.dispatch h call).2.validators =
      ((a.execute s.context call.slot call.pubkey payload s.validators).run
        (s.lookedAt call.slot)).1.2 := by
  rw [dispatch_of_binds call ha, perform_of_payloadFor _ _ _ _ hread]
  rfl

theorem written_dispatch {s : Service β} {h : Hook} {call : HookRequest} {a : Action} {p : Payload}
    (ha : s.Binds h call.slot a) (hp : Payload.decode h call.text = .ok (some p))
    (hwrites : a.writes p = true) :
    Action.Written call.slot call.pubkey s.validators (s.dispatch h call).2.validators a p := by
  rw [validators_dispatch_of_binds ha (payloadFor_eq_ok_some_iff.2 hp)]
  exact Action.written_execute _ _ _ _ _ hwrites

theorem validators_dispatch_of_not_writes {s : Service β} {h : Hook} {call : HookRequest}
    (hnone : ∀ a p, s.Binds h call.slot a → Payload.decode h call.text = .ok (some p) →
      a.writes p = false) :
    (s.dispatch h call).2.validators = s.validators := by
  by_cases hbinds : ∃ a, s.Binds h call.slot a
  · obtain ⟨a, ha⟩ := hbinds
    cases hpayload : payloadFor h call.text with
    | error fault =>
      rw [dispatch_of_binds call ha, perform, hpayload]
      rfl
    | ok payload =>
      rw [validators_dispatch_of_binds ha hpayload]
      refine Action.store_execute_of_not_writes _ _ _ _ _ ?_
      rintro p rfl
      exact hnone a p ha (payloadFor_eq_ok_some_iff.1 hpayload)
  · rw [dispatch_of_not_binds call fun a ha => hbinds ⟨a, ha⟩]
    rfl

/-- **A hook call changes neither the rules in force nor the tracker. It changes the store only where
the action that is bound to the hook is made for what the call carries, and then by what this action
writes.** -/
theorem dispatch_frame (s : Service β) (h : Hook) (call : HookRequest) :
    let after := (s.dispatch h call).2
    after = { s with
        validators := after.validators, backend := after.backend, tally := after.tally } ∧
      (∀ a p, s.Binds h call.slot a → Payload.decode h call.text = .ok (some p) →
        a.writes p = true →
        Action.Written call.slot call.pubkey s.validators after.validators a p) ∧
      ((∀ a p, s.Binds h call.slot a → Payload.decode h call.text = .ok (some p) →
          a.writes p = false) →
        after.validators = s.validators) ∧
      ((∀ a, ¬ s.Binds h call.slot a) ∨ h.Unreadable call.text →
        after.validators = s.validators) := by
  refine ⟨snd_dispatch_eq s h call, fun a p ha hp hwrites => written_dispatch ha hp hwrites,
    validators_dispatch_of_not_writes, ?_⟩
  rintro (hnone | ⟨-, fault, hfault⟩)
  · exact validators_dispatch_of_not_writes fun a _ ha _ => absurd ha (hnone a)
  · refine validators_dispatch_of_not_writes fun a p _ hp => ?_
    rw [hfault] at hp
    cases hp

/-- A vote that comes when the pool holds others. -/
def lateVote : Attestation :=
  { aggregationBits := ⟨[false, false, true], by decide⟩, data := .vote ⟨9⟩ 0 Root.zero,
    signature := .infinity }

/-- A service that pools what comes with two hooks at slot 40. One of them carries attestations, the
other only their data. -/
def poolingService : Service Rehearsal :=
  { start ChainSpec.mainnet (ChainSpec.mainnet.clock .zero) (Rehearsal.empty 32)
      Action.stocked with
    rules := { RuleSet.empty with rules :=
      [⟨.literal ⟨40⟩, 0, [(.attestAfterSign, .addAttestToPool),
        (.attestBeforeSign, .addAttestToPool)]⟩] } }

/-- A call at slot 40 that carries a payload. -/
def callWith (p : Payload) : HookRequest := ⟨⟨40⟩, Rehearsal.pubkey 1, some p.encode⟩

theorem dispatch_frame_poolingService :
    let signed := callWith (.attestation lateVote)
    let unsigned := callWith (.attestationData lateVote.data)
    ((poolingService.dispatch .attestAfterSign signed).2.validators.pool.get? ⟨40⟩ =
        some (Attestation.twoVotes ++ [lateVote]) ∧
      (poolingService.dispatch .attestAfterSign signed).2.validators.pool.get? ⟨200⟩ =
        some Attestation.twoVotes) ∧
    (poolingService.dispatch .attestBeforeSign unsigned).2.validators = Action.stocked ∧
    (poolingService.dispatch .attestBeforePropose signed).2.validators = Action.stocked := by
  intro signed unsigned
  refine ⟨?_, ?_, ?_⟩
  · have hbinds : poolingService.Binds .attestAfterSign signed.slot .addAttestToPool :=
      actionFor_eq_some_iff.1 (by decide)
    have hread : Payload.decode .attestAfterSign signed.text =
        .ok (some (.attestation lateVote)) :=
      Payload.decode_eq_ok_some_iff.2 ⟨rfl, _, rfl, Base64.trim_encode _⟩
    cases (dispatch_frame poolingService .attestAfterSign signed).2.1 _ _ hbinds hread rfl with
    | pooled _ rest appended => exact ⟨appended ⟨40⟩, appended ⟨200⟩⟩
  · have hbinds : poolingService.Binds .attestBeforeSign unsigned.slot .addAttestToPool :=
      actionFor_eq_some_iff.1 (by decide)
    refine (dispatch_frame poolingService .attestBeforeSign unsigned).2.2.1 fun a p ha hp => ?_
    obtain rfl := ha.unique hbinds
    have hkind : p.kind = .attestationData := (Payload.decode_eq_ok_some_iff.1 hp).1
    cases p with
    | attestationData d => rfl
    | _ => cases hkind
  · refine (dispatch_frame poolingService .attestBeforePropose signed).2.2.2 (.inl fun a ha => ?_)
    have hnone : (poolingService.actionFor .attestBeforePropose signed.slot).1 = none := by decide
    rw [actionFor_eq_some_iff.2 ha] at hnone
    cases hnone

end Service

end Saboteur
