import Saboteur.Proofs.Service.Frame

/-!
# Signed attestations that are kept

A store keeps the signed attestations by slot, and those of a slot by the key of the client. Storing
one again under the same slot and key replaces the one from before, and pruning drops whole slots.
So under a slot and a key never two are kept, over any run of a service, and looking a slot and a
key up finds all there is.
-/

namespace Saboteur

/-- Lists behind different labels have nothing in common. -/
theorem nodup_flatMap_labelled {ι κ α : Type} {l : List ι} {label : ι → κ} {f : ι → List α}
    (hlabels : (l.map label).Nodup) (hlists : ∀ i ∈ l, (f i).Nodup) :
    (l.flatMap fun i => (f i).map (Prod.mk (label i))).Nodup := by
  refine List.nodup_flatMap.2 ⟨?_, ?_⟩
  · intro i hi
    exact (hlists i hi).map (Prod.mk_right_injective _)
  · refine (List.pairwise_map.1 hlabels).imp fun {i j} hij x hx hx' => ?_
    obtain ⟨a, -, rfl⟩ := List.mem_map.1 hx
    obtain ⟨b, -, heq⟩ := List.mem_map.1 hx'
    exact hij (congrArg Prod.fst heq).symm

/-! ## What is kept -/

namespace ValidatorStore

/-- The attestation that is kept under a slot and a key. -/
def attestation? (s : ValidatorStore) (slot : Slot) (pubkey : Pubkey) : Option Attestation :=
  (s.attestationsAt slot).get? pubkey

/-- All attestations that are kept, each behind its slot and its key. -/
def keptAttestations (s : ValidatorStore) : List (Slot × Pubkey × Attestation) :=
  s.attestations.entries.flatMap fun e => e.2.entries.map (Prod.mk e.1)

/-- Under a slot and a key no two attestations are kept. -/
structure OnePerSigner (s : ValidatorStore) : Prop where
  slots : s.attestations.Distinct
  keys : ∀ e ∈ s.attestations.entries, e.2.Distinct

/-- Two stores are the same but for attestations that are kept where a condition does not hold. -/
structure AgreeWhere (p : Slot → Pubkey → Prop) (s t : ValidatorStore) : Prop where
  rest : t = { s with attestations := t.attestations }
  attestations : ∀ slot pubkey, p slot pubkey →
    t.attestation? slot pubkey = s.attestation? slot pubkey

variable {s : ValidatorStore}

theorem OnePerSigner.distinct_attestationsAt (h : s.OnePerSigner) (slot : Slot) :
    (s.attestationsAt slot).Distinct := by
  unfold attestationsAt
  cases hget : s.attestations.get? slot with
  | none => exact Table.distinct_empty
  | some own => exact h.keys (slot, own) ((Table.mem_entries_iff h.slots).2 hget)

theorem OnePerSigner.mem_entries_iff (h : s.OnePerSigner) {slot : Slot} {pubkey : Pubkey}
    {a : Attestation} :
    (pubkey, a) ∈ (s.attestationsAt slot).entries ↔ s.attestation? slot pubkey = some a :=
  Table.mem_entries_iff (h.distinct_attestationsAt slot)

/-- What is kept is what is found under a slot and a key. -/
theorem OnePerSigner.mem_keptAttestations_iff (h : s.OnePerSigner) {slot : Slot} {pubkey : Pubkey}
    {a : Attestation} :
    (slot, pubkey, a) ∈ s.keptAttestations ↔ s.attestation? slot pubkey = some a := by
  rw [← h.mem_entries_iff]
  unfold keptAttestations attestationsAt
  rw [List.mem_flatMap]
  constructor
  · rintro ⟨⟨slot', own⟩, he, hmem⟩
    obtain ⟨e, hown, heq⟩ := List.mem_map.1 hmem
    cases heq
    rw [(Table.mem_entries_iff h.slots).1 he]
    exact hown
  · intro hmem
    cases hget : s.attestations.get? slot with
    | none =>
      rw [hget] at hmem
      cases hmem
    | some own =>
      rw [hget] at hmem
      exact ⟨(slot, own), (Table.mem_entries_iff h.slots).2 hget, List.mem_map_of_mem hmem⟩

/-- Nothing is kept twice. -/
theorem OnePerSigner.nodup_keptAttestations (h : s.OnePerSigner) : s.keptAttestations.Nodup :=
  nodup_flatMap_labelled h.slots fun e he => (h.keys e he).nodup_entries

/-! ## Operations -/

/-- **An attestation that is recorded is kept under its slot and key, and under all others what was
kept before.** -/
theorem attestation?_recordAttestation (s : ValidatorStore) (slot slot' : Slot)
    (pubkey pubkey' : Pubkey) (a : Attestation) :
    (s.recordAttestation slot pubkey a).attestation? slot' pubkey' =
      if slot = slot' ∧ pubkey = pubkey' then some a else s.attestation? slot' pubkey' :=
  Table.get?_getD_alter_set _ _ _ _ _ _

/-- Recording an attestation elsewhere leaves stores in agreement. -/
theorem agreeWhere_recordAttestation {p : Slot → Pubkey → Prop} {slot : Slot} {pubkey : Pubkey}
    (h : ¬ p slot pubkey) (a : Attestation) :
    AgreeWhere p s (s.recordAttestation slot pubkey a) where
  rest := rfl
  attestations := by
    intro slot' pubkey' hp
    rw [attestation?_recordAttestation, if_neg]
    rintro ⟨rfl, rfl⟩
    exact h hp

theorem onePerSigner_empty : empty.OnePerSigner where
  slots := Table.distinct_empty
  keys := nofun

theorem OnePerSigner.of_eq {t : ValidatorStore} (h : s.OnePerSigner)
    (heq : t.attestations = s.attestations) : t.OnePerSigner where
  slots := heq ▸ h.slots
  keys := heq ▸ h.keys

theorem OnePerSigner.recordAttestation (h : s.OnePerSigner) (slot : Slot) (pubkey : Pubkey)
    (a : Attestation) : (s.recordAttestation slot pubkey a).OnePerSigner where
  slots := h.slots.alter _ _ _
  keys := by
    intro e he
    rcases Table.mem_put he with rfl | he
    · exact (h.distinct_attestationsAt slot).set pubkey a
    · exact h.keys e he

theorem OnePerSigner.prune (h : s.OnePerSigner) (oldest : Slot) :
    (s.prune oldest).OnePerSigner where
  slots := h.slots.filter _
  keys := fun e he => h.keys e (List.mem_of_mem_filter he)

theorem OnePerSigner.maintain (h : s.OnePerSigner) (spec : ChainSpec) (clock : SlotClock)
    (retention : Option UInt64) (cache : DutyCache) :
    (maintain spec clock retention s cache).1.OnePerSigner := by
  unfold Saboteur.maintain
  cases clock.slot? with
  | none => exact h
  | some slot =>
    have hroles : (s.updateRoles slot).OnePerSigner := h.of_eq rfl
    cases retention with
    | none => exact hroles
    | some r => exact hroles.prune _

/-- **Executing an action keeps at most one attestation under a slot and a key.** -/
theorem OnePerSigner.execute {β : Type} [Backend β] {store : ValidatorStore}
    (h : store.OnePerSigner) (ctx : Context) (a : Action) (slot : Slot) (pubkey : Pubkey)
    (payload : Option Payload) (b : β) :
    ((a.execute ctx slot pubkey payload store).run b).1.2.OnePerSigner := by
  by_cases hwrites : ∃ p, payload = some p ∧ a.writes p = true
  · obtain ⟨p, rfl, hp⟩ := hwrites
    unfold Action.writes at hp
    split at hp
    case h_1 | h_3 => exact h.of_eq rfl
    case h_2 x => exact h.recordAttestation slot pubkey x
    case h_4 =>
      simp only [Action.execute, if_pos hp]
      exact h.of_eq rfl
    case h_5 => cases hp
  · rw [Action.store_execute_of_not_writes]
    · exact h
    · intro p hp
      exact Bool.eq_false_iff.2 fun hw => hwrites ⟨p, hp, hw⟩

end ValidatorStore

/-! ## Runs of a service -/

namespace Service

open ValidatorStore

variable {β : Type} [Backend β]

/-- What a call records takes the place of what was kept before. -/
theorem onePerSigner_dispatch {s : Service β} (hs : s.validators.OnePerSigner) (h : Hook)
    (call : HookRequest) : (s.dispatch h call).2.validators.OnePerSigner := by
  by_cases hbinds : ∃ a, s.Binds h call.slot a
  · obtain ⟨a, ha⟩ := hbinds
    cases hpayload : payloadFor h call.text with
    | error fault =>
      rw [dispatch_of_binds call ha, perform, hpayload]
      exact hs
    | ok payload =>
      rw [validators_dispatch_of_binds ha hpayload]
      exact hs.execute _ _ _ _ _ _
  · rw [dispatch_of_not_binds call fun a ha => hbinds ⟨a, ha⟩]
    exact hs

/-- No event makes a store keep two attestations under one slot and key. -/
theorem onePerSigner_step (s : Service β) (e : Event) (h : s.validators.OnePerSigner) :
    (s.step e).validators.OnePerSigner := by
  cases e with
  | register index pubkey => exact h.of_eq rfl
  | setTime now => exact h
  | updateRoles retention => exact h.maintain _ _ _ _
  | install time random strategy =>
    obtain ⟨-, hs⟩ | ⟨rules, -, hs⟩ := s.step_install time random strategy
    · rw [hs]
      exact h
    · rw [hs]
      refine h.of_eq ?_
      show (updateRolesNow s.clock (s.validators.setWindows rules.windows)).attestations = _
      unfold updateRolesNow
      split <;> rfl
  | dispatch hook call => exact onePerSigner_dispatch h hook call

/-- **Over a run of a service no slot and key come to keep two attestations.** -/
theorem onePerSigner_run (spec : ChainSpec) (clock : SlotClock) (backend : β) (es : List Event) :
    ((start spec clock backend ValidatorStore.empty).run es).validators.OnePerSigner :=
  run_invariant onePerSigner_step onePerSigner_empty es

end Service

end Saboteur
