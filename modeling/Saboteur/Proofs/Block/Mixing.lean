import Saboteur.Proofs.Block.Reassembly
import Saboteur.Proofs.Service.Kept

/-!
# What is mixed into a block

An action that packs a block anew mixes other attestations into it: what the pool holds for the
block, or what attackers have signed in the epoch of the block. The second kind is looked at here.
The signed attestations are kept by slot and key, and of these exactly those count whose slot lies
in the epoch and whose signer is known and an attacker at that slot, by the windows that the call
began with. So whatever else is kept, of other validators or for other epochs, makes no
difference.

A store never keeps two attestations under one slot and key.
-/

namespace Saboteur

/-! ## Mixing in -/

theorem Payload.repack_of_not_isBlock {p : Payload} (h : p.isBlock = false) (max : Nat)
    (extra : List Attestation) : p.repack max extra = p := by
  cases p with
  | block | signedBlock => cases h
  | _ => rfl

namespace Action

/-- The attestations that an action mixes into a block at a slot. -/
def mixedIn (a : Action) (ctx : Context) (store : ValidatorStore) (slot : Slot) :
    List Attestation :=
  match a with
  | packPooledAttest =>
    store.pooled (firstPooledSlot ctx.spec slot) (lastPooledSlot ctx.spec slot)
  | rePackAttestation => Attestation.ofAttackers ctx store (ctx.spec.epochOf slot)
  | _ => []

theorem packs_iff {a : Action} :
    a.packs = true ↔ a = packPooledAttest ∨ a = rePackAttestation := by
  cases a <;> simp [packs]

section Execution

variable {β : Type} [Backend β] (ctx : Context) (slot : Slot) (pubkey : Pubkey)
  (payload : Option Payload) (store : ValidatorStore) (b : β)

/-- **An action that packs a block anew mixes its attestations into the block of the payload, if
there is one.** -/
theorem outcome_execute_of_packs {a : Action} (ha : a.packs = true) :
    ((a.execute ctx slot pubkey payload store).run b).1.1 =
      Outcome.carryOn (payload.map fun p =>
        p.repack ctx.spec.maxAttestationsPerBlock (a.mixedIn ctx store slot)) := by
  cases payload with
  | none => rcases packs_iff.1 ha with rfl | rfl <;> rfl
  | some p =>
    by_cases hp : p.isBlock = true
    · rcases packs_iff.1 ha with rfl | rfl
      · simp only [execute, if_pos hp]
        rfl
      · simp only [execute, if_pos hp]
        rfl
    · rw [Option.map_some, p.repack_of_not_isBlock (Bool.eq_false_iff.2 hp)]
      rcases packs_iff.1 ha with rfl | rfl
      · simp only [execute, if_neg hp]
        rfl
      · simp only [execute, if_neg hp]
        rfl

theorem store_execute_rePackAttestation :
    ((rePackAttestation.execute ctx slot pubkey payload store).run b).1.2 = store :=
  store_execute_of_not_writes ctx slot pubkey store b fun _ _ => rfl

/-- **Packing a block anew with what attackers have signed changes only its attestations**: they are
packed from those that it had and those that are mixed in. -/
theorem execute_rePackAttestation_of_attestations? {p : Payload}
    {own : Capped Attestation attestationCapacity} (hown : p.attestations? = some own) :
    ∃ packed, Attestation.PackedFrom ctx.spec
        (own.toList ++ rePackAttestation.mixedIn ctx store slot) packed ∧
      ((rePackAttestation.execute ctx slot pubkey (some p) store).run b).1 =
        (Outcome.carryOn (some (p.withAttestations packed)), store) := by
  obtain ⟨packed, hpacked, hp⟩ := Payload.exists_repack_eq hown ctx.spec.maxAttestationsPerBlock_le
    (rePackAttestation.mixedIn ctx store slot)
  refine ⟨packed, Attestation.packedFrom_of_eq hpacked, Prod.ext ?_ ?_⟩
  · rw [outcome_execute_of_packs ctx slot pubkey (some p) store b rfl, Option.map_some, hp]
  · exact store_execute_rePackAttestation ctx slot pubkey (some p) store b

/-- Without a block there is nothing to pack. -/
theorem execute_rePackAttestation_of_not_isBlock
    (h : ∀ p, payload = some p → p.isBlock = false) :
    ((rePackAttestation.execute ctx slot pubkey payload store).run b).1 =
      (Outcome.carryOn payload, store) := by
  refine Prod.ext ?_ (store_execute_rePackAttestation ctx slot pubkey payload store b)
  rw [outcome_execute_of_packs ctx slot pubkey payload store b rfl]
  cases payload with
  | none => rfl
  | some p => rw [Option.map_some, p.repack_of_not_isBlock (h p rfl)]

end Execution

end Action

/-! ## Signers -/

/-- The signer with a key is known, and is an attacker at a slot. -/
def Context.AttackerSigns (ctx : Context) (store : ValidatorStore) (slot : Slot)
    (pubkey : Pubkey) : Prop :=
  ∃ index, store.indexOf? pubkey = some index ∧ ctx.roleOf store slot index = .attacker

theorem Context.roleOfPubkey?_eq_attacker_iff {ctx : Context} {store : ValidatorStore} {slot : Slot}
    {pubkey : Pubkey} :
    ctx.roleOfPubkey? store slot pubkey = some .attacker ↔
      ctx.AttackerSigns store slot pubkey := Option.map_eq_some_iff

instance (ctx : Context) (store : ValidatorStore) (slot : Slot) (pubkey : Pubkey) :
    Decidable (ctx.AttackerSigns store slot pubkey) :=
  decidable_of_iff _ Context.roleOfPubkey?_eq_attacker_iff

/-! ## What is picked from it -/

namespace Attestation

open ValidatorStore

variable {ctx : Context} {store : ValidatorStore} {slot : Slot}

/-- The attestations of attackers that are kept in an epoch, each behind its slot and its key. -/
def labelledOfAttackers (ctx : Context) (store : ValidatorStore) (epoch : Epoch) :
    List (Slot × Pubkey × Attestation) :=
  (epoch.slots ctx.spec.slotsPerEpoch).flatMap fun slot =>
    ((store.attestationsAt slot).entries.filter fun e =>
      ctx.roleOfPubkey? store slot e.1 = some .attacker).map (Prod.mk slot)

theorem ofAttackers_eq (ctx : Context) (store : ValidatorStore) (epoch : Epoch) :
    ofAttackers ctx store epoch = (labelledOfAttackers ctx store epoch).map (·.2.2) := by
  simp only [ofAttackers, labelledOfAttackers, List.map_flatMap, List.map_map]
  rfl

theorem mem_labelledOfAttackers_iff (hk : ctx.spec.slotsPerEpoch ≠ 0) (h : store.OnePerSigner)
    {s : Slot} {pubkey : Pubkey} {a : Attestation} :
    (s, pubkey, a) ∈ labelledOfAttackers ctx store (ctx.spec.epochOf slot) ↔
      (ctx.spec.epochOf s = ctx.spec.epochOf slot ∧ ctx.AttackerSigns store s pubkey) ∧
        store.attestation? s pubkey = some a := by
  have hslots : s ∈ (ctx.spec.epochOf slot).slots ctx.spec.slotsPerEpoch ↔
      ctx.spec.epochOf s = ctx.spec.epochOf slot := Epoch.mem_slots_epoch_iff hk
  rw [← hslots, ← h.mem_entries_iff, ← Context.roleOfPubkey?_eq_attacker_iff]
  unfold labelledOfAttackers
  rw [List.mem_flatMap]
  constructor
  · rintro ⟨s', hs', hmem⟩
    obtain ⟨e, he, heq⟩ := List.mem_map.1 hmem
    cases heq
    obtain ⟨hentry, hrole⟩ := List.mem_filter.1 he
    exact ⟨⟨hs', of_decide_eq_true hrole⟩, hentry⟩
  · rintro ⟨⟨hs, hrole⟩, hentry⟩
    exact ⟨s, hs, List.mem_map_of_mem (List.mem_filter.2 ⟨hentry, decide_eq_true hrole⟩)⟩

theorem nodup_labelledOfAttackers (h : store.OnePerSigner) (epoch : Epoch) :
    (labelledOfAttackers ctx store epoch).Nodup := by
  refine nodup_flatMap_labelled ?_ fun s _ => ?_
  · rw [List.map_id']
    exact Epoch.nodup_slots _ _
  · exact (h.distinct_attestationsAt s).nodup_entries.filter _

/-- **Of all that is kept, exactly the attestations of attackers for the epoch are picked.** -/
theorem ofAttackers_perm (hk : ctx.spec.slotsPerEpoch ≠ 0) (h : store.OnePerSigner) :
    (ofAttackers ctx store (ctx.spec.epochOf slot)).Perm
      ((store.keptAttestations.filter fun e =>
        ctx.spec.epochOf e.1 = ctx.spec.epochOf slot ∧
          ctx.AttackerSigns store e.1 e.2.1).map (·.2.2)) := by
  rw [ofAttackers_eq]
  refine List.Perm.map _ ((List.perm_ext_iff_of_nodup (nodup_labelledOfAttackers h _)
    (h.nodup_keptAttestations.filter _)).2 ?_)
  rintro ⟨s, pubkey, a⟩
  rw [mem_labelledOfAttackers_iff hk h, List.mem_filter, h.mem_keptAttestations_iff,
    decide_eq_true_eq, and_comm]

/-- **Two stores that agree on the attestations of attackers for the epoch give the same.** -/
theorem ofAttackers_perm_of_agree (hk : ctx.spec.slotsPerEpoch ≠ 0) {other : ValidatorStore}
    (h : store.OnePerSigner) (hother : other.OnePerSigner)
    (hagree : AgreeWhere (fun s pubkey => ctx.spec.epochOf s = ctx.spec.epochOf slot ∧
      ctx.AttackerSigns store s pubkey) store other) :
    (ofAttackers ctx other (ctx.spec.epochOf slot)).Perm
      (ofAttackers ctx store (ctx.spec.epochOf slot)) := by
  -- the other store has the same validators in the same roles
  have hsigns : ∀ s pubkey,
      ctx.AttackerSigns other s pubkey ↔ ctx.AttackerSigns store s pubkey := by
    intro s pubkey
    rw [hagree.rest]
    rfl
  rw [ofAttackers_eq, ofAttackers_eq]
  refine List.Perm.map _ ((List.perm_ext_iff_of_nodup (nodup_labelledOfAttackers hother _)
    (nodup_labelledOfAttackers h _)).2 ?_)
  rintro ⟨s, pubkey, a⟩
  rw [mem_labelledOfAttackers_iff hk hother, mem_labelledOfAttackers_iff hk h, hsigns]
  refine and_congr_right fun hcounts => ?_
  rw [hagree.attestations s pubkey hcounts]

end Attestation

namespace Action

open ValidatorStore

/-- **Packing a block anew with what attackers have signed mixes in exactly the attestations that
are kept for a slot of the epoch under the key of a known validator who is an attacker at that slot,
by the windows of the call.** The new attestations of the block are packed from these and its own,
and nothing else of it changes. Attestations of others and for other epochs make no difference, and
the store stays as it is. -/
theorem rePackAttestation_mixes_attackers {β : Type} [Backend β] (ctx : Context) (slot : Slot)
    (store : ValidatorStore) (hk : ctx.spec.slotsPerEpoch ≠ 0) (hstore : store.OnePerSigner) :
    (∀ (pubkey : Pubkey) (payload : Option Payload) (b : β),
      let after := ((rePackAttestation.execute ctx slot pubkey payload store).run b).1
      (∀ p own, payload = some p → p.attestations? = some own →
        ∃ packed,
          Attestation.PackedFrom ctx.spec
            (own.toList ++ rePackAttestation.mixedIn ctx store slot) packed ∧
          after = (Outcome.carryOn (some (p.withAttestations packed)), store)) ∧
      ((∀ p, payload = some p → p.isBlock = false) →
        after = (Outcome.carryOn payload, store))) ∧
    (rePackAttestation.mixedIn ctx store slot).Perm
      ((store.keptAttestations.filter fun e =>
        ctx.spec.epochOf e.1 = ctx.spec.epochOf slot ∧
          ctx.AttackerSigns store e.1 e.2.1).map (·.2.2)) ∧
    ∀ other : ValidatorStore, other.OnePerSigner →
      AgreeWhere (fun s pubkey => ctx.spec.epochOf s = ctx.spec.epochOf slot ∧
        ctx.AttackerSigns store s pubkey) store other →
      (rePackAttestation.mixedIn ctx other slot).Perm
        (rePackAttestation.mixedIn ctx store slot) := by
  refine ⟨fun pubkey payload b => ⟨?_, ?_⟩, Attestation.ofAttackers_perm hk hstore, ?_⟩
  · rintro p own rfl hown
    exact execute_rePackAttestation_of_attestations? ctx slot pubkey store b hown
  · exact execute_rePackAttestation_of_not_isBlock ctx slot pubkey payload store b
  · intro other hother hagree
    exact Attestation.ofAttackers_perm_of_agree hk hstore hother hagree

/-- A context of the main network in which one validator attacks in the second epoch. -/
def secondEpoch : Context :=
  ⟨ChainSpec.mainnet, ChainSpec.mainnet.clock .zero, ⟨[(5, [⟨⟨32⟩, ⟨63⟩⟩])]⟩⟩

/-- A store that keeps attestations of the attacker for two epochs, and one under a key that nobody
has registered. -/
def attackersVotes : ValidatorStore :=
  { ValidatorStore.empty with
    indices := ⟨[(⟨"0x05"⟩, 5), (⟨"0x07"⟩, 7)]⟩
    attestations := ⟨[(⟨40⟩, ⟨[(⟨"0x05"⟩, Service.lateVote), (⟨"0x09"⟩, Service.lateVote)]⟩),
      (⟨70⟩, ⟨[(⟨"0x05"⟩, Service.lateVote)]⟩)]⟩ }

theorem rePackAttestation_mixes_attackers_secondEpoch :
    (∃ packed : Capped Attestation attestationCapacity,
      ((rePackAttestation.execute secondEpoch ⟨50⟩ ⟨"0x01"⟩ (some (.block .empty))
          attackersVotes).run (Rehearsal.empty 32)).1 =
        (Outcome.carryOn (some (.block (Block.empty.withAttestations packed))), attackersVotes) ∧
      packed.toList = Attestation.pack [Service.lateVote] 128) ∧
    (rePackAttestation.mixedIn secondEpoch attackersVotes ⟨50⟩).Perm [Service.lateVote] ∧
    (rePackAttestation.mixedIn secondEpoch
      (attackersVotes.recordAttestation ⟨40⟩ ⟨"0x07"⟩ Service.lateVote) ⟨50⟩).Perm
        (rePackAttestation.mixedIn secondEpoch attackersVotes ⟨50⟩) := by
  have hstore : attackersVotes.OnePerSigner := by
    refine ⟨by decide, ?_⟩
    intro e he
    simp only [attackersVotes, List.mem_cons, List.not_mem_nil, or_false] at he
    rcases he with rfl | rfl
    · decide
    · decide
  have hnormal : ¬ (secondEpoch.spec.epochOf ⟨40⟩ = secondEpoch.spec.epochOf ⟨50⟩ ∧
      secondEpoch.AttackerSigns attackersVotes ⟨40⟩ ⟨"0x07"⟩) := by decide
  obtain ⟨hexecute, hmixed, hother⟩ := rePackAttestation_mixes_attackers (β := Rehearsal)
    secondEpoch ⟨50⟩ attackersVotes (by decide) hstore
  refine ⟨?_, ?_, ?_⟩
  · obtain ⟨packed, hpacked, hafter⟩ := (hexecute ⟨"0x01"⟩ (some (.block .empty))
      (Rehearsal.empty 32)).1 _ _ rfl rfl
    exact ⟨packed, hafter, hpacked.eq_pack⟩
  · exact hmixed
  · exact hother _ (hstore.recordAttestation _ _ _) (agreeWhere_recordAttestation hnormal _)

end Action

end Saboteur
