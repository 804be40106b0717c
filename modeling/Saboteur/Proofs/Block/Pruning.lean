import Saboteur.Proofs.Block.Mixing
import Saboteur.Proofs.Service.Roles

/-!
# Pruning before a block is packed

The role updater writes roles into the records and drops what belongs to old slots, while hook calls
come that pack blocks anew. An update must not take anything from a later block. It does not: the
roles that count for a block are decided by the windows in force, which an update leaves alone, and
what it drops lies before the slots that are looked at for the block. The pool is looked at from the
epoch before that of the block on, so an epoch at least has to be retained for it. What attackers
have signed is looked at in the epoch of the block only.
-/

namespace Saboteur

/-! ## What pruning leaves -/

namespace ValidatorStore

variable (s : ValidatorStore)

/-- **From the oldest slot on everything is still kept, and nothing before it.** -/
theorem attestationsAt_prune (oldest slot : Slot) :
    (s.prune oldest).attestationsAt slot =
      if oldest ≤ slot then s.attestationsAt slot else Table.empty := by
  unfold attestationsAt prune
  rw [Table.get?_filter_key]
  by_cases h : oldest ≤ slot
  · simp [h]
  · simp [h]

theorem pooled_prune {oldest first : Slot} (h : oldest ≤ first) (last : Slot) :
    (s.prune oldest).pooled first last = s.pooled first last := by
  unfold pooled prune Table.filter
  rw [List.filter_filter]
  refine congrArg (List.flatMap Prod.snd) (List.filter_congr fun e _ => ?_)
  have hslot : first ≤ e.1 → oldest ≤ e.1 := Nat.le_trans h
  by_cases hfirst : first ≤ e.1
  · simp [hfirst, hslot hfirst]
  · simp [hfirst]

end ValidatorStore

/-! ## What attackers have signed -/

namespace Attestation

variable {ctx : Context} {store : ValidatorStore}

theorem ofAttackers_updateRoles (h : store.Keyed) (hwindows : ctx.windows = store.windows)
    (now : Slot) (epoch : Epoch) :
    ofAttackers ctx (store.updateRoles now) epoch = ofAttackers ctx store epoch := by
  have hroles : ∀ slot pubkey, ctx.roleOfPubkey? (store.updateRoles now) slot pubkey =
      ctx.roleOfPubkey? store slot pubkey := by
    intro slot pubkey
    refine congrArg (Option.map · (store.indexOf? pubkey)) (funext fun index => ?_)
    unfold Context.roleOf
    rw [hwindows]
    exact ValidatorStore.roleWithin_updateRoles h now slot index
  unfold ofAttackers
  simp only [hroles]
  rfl

theorem ofAttackers_prune {oldest : Slot} {epoch : Epoch}
    (h : oldest ≤ epoch.startSlot ctx.spec.slotsPerEpoch) :
    ofAttackers ctx (store.prune oldest) epoch = ofAttackers ctx store epoch := by
  unfold ofAttackers
  refine List.flatMap_congr fun slot hslot => ?_
  have hkept : oldest ≤ slot := Nat.le_trans h (Epoch.mem_slots_iff.1 hslot).1
  rw [store.attestationsAt_prune, if_pos hkept]
  rfl

end Attestation

/-! ## An update before a block -/

namespace Action

variable {spec : ChainSpec} {now block : Slot} {r : UInt64}

/-- The epochs that are retained reach as far back from any later slot. -/
theorem oldestEpoch_le (h : now ≤ block) {n : UInt64} (hn : n ≤ r) :
    oldestEpoch spec now r ≤ (spec.epochOf block).subSat n :=
  Epoch.subSat_le_subSat (Epoch.epoch_le_epoch h _) hn

theorem oldest_le_firstPooledSlot (h : now ≤ block) (hr : r ≠ 0) :
    spec.epochStart (oldestEpoch spec now r) ≤ firstPooledSlot spec block :=
  Epoch.startSlot_le_startSlot (oldestEpoch_le h (Epoch.pos_of_ne_zero hr)) _

theorem oldest_le_epochStart (h : now ≤ block) (r : UInt64) :
    spec.epochStart (oldestEpoch spec now r) ≤ spec.epochStart (spec.epochOf block) := by
  have hle : oldestEpoch spec now r ≤ (spec.epochOf block).subSat 0 :=
    oldestEpoch_le h UInt64.zero_le
  rw [Epoch.subSat_zero] at hle
  exact Epoch.startSlot_le_startSlot hle _

variable (ctx : Context) (store : ValidatorStore) (cache : DutyCache) {clock : SlotClock}

theorem mixedIn_maintain {a : Action} (ha : a.packs = true) (hr : r ≠ 0 ∨ a = rePackAttestation)
    (hstore : store.Keyed) (hwindows : ctx.windows = store.windows)
    (hnow : clock.slot? = some now) (hblock : now ≤ block) :
    a.mixedIn ctx (maintain ctx.spec clock (some r) store cache).1 block =
      a.mixedIn ctx store block := by
  have hmaintain : (maintain ctx.spec clock (some r) store cache).1 =
      (store.updateRoles now).prune (ctx.spec.epochStart (oldestEpoch ctx.spec now r)) := by
    rw [maintain, hnow]
  rw [hmaintain]
  rcases packs_iff.1 ha with rfl | rfl
  · have hretained : r ≠ 0 := hr.resolve_right nofun
    exact (store.updateRoles now).pooled_prune (oldest_le_firstPooledSlot hblock hretained) _
  · exact (Attestation.ofAttackers_prune (oldest_le_epochStart hblock r)).trans
      (Attestation.ofAttackers_updateRoles hstore hwindows now _)

/-- **An action that packs a block anew mixes the same attestations into it, whether or not roles
were updated and old slots pruned at the slot of the block or before.** An epoch at least has to be
retained if the action empties the pool; what attackers have signed may be retained for the epoch in
progress alone. -/
theorem mixes_same_after_maintain {β : Type} [Backend β] {a : Action} (ha : a.packs = true)
    (hr : r ≠ 0 ∨ a = rePackAttestation) (hstore : store.Keyed)
    (hwindows : ctx.windows = store.windows) (hnow : clock.slot? = some now)
    (hblock : now ≤ block) :
    (∀ (s : ValidatorStore) (pubkey : Pubkey) (payload : Option Payload) (b : β),
      ((a.execute ctx block pubkey payload s).run b).1.1 =
        Outcome.carryOn (payload.map fun p =>
          p.repack ctx.spec.maxAttestationsPerBlock (a.mixedIn ctx s block))) ∧
    a.mixedIn ctx (maintain ctx.spec clock (some r) store cache).1 block =
      a.mixedIn ctx store block := by
  refine ⟨?_, mixedIn_maintain ctx store cache ha hr hstore hwindows hnow hblock⟩
  intro s pubkey payload b
  exact outcome_execute_of_packs ctx block pubkey payload s b ha

/-- A context of the main network in which one validator attacks in the second epoch and the third,
at the start of the third. -/
def thirdEpoch : Context :=
  ⟨ChainSpec.mainnet, (ChainSpec.mainnet.clock .zero).setTime (Duration.ofSeconds 768),
    ⟨[(5, [⟨⟨32⟩, ⟨95⟩⟩])]⟩⟩

/-- A store with pooled attestations for the first two epochs, and signed ones of the attacker for
the second and the third. -/
def votesOfThreeEpochs : ValidatorStore :=
  ((((ValidatorStore.empty.register 5 ⟨"0x05"⟩ none).setWindows thirdEpoch.windows
    |>.addToPool ⟨3⟩ Service.lateVote) |>.addToPool ⟨40⟩ Service.lateVote)
    |>.recordAttestation ⟨40⟩ ⟨"0x05"⟩ Service.lateVote)
    |>.recordAttestation ⟨66⟩ ⟨"0x05"⟩ Service.lateVote

theorem mixes_same_after_maintain_thirdEpoch :
    let updated := fun r =>
      (maintain thirdEpoch.spec thirdEpoch.clock (some r) votesOfThreeEpochs DutyCache.empty).1
    ((updated 1).poolSize = 1 ∧ votesOfThreeEpochs.poolSize = 2 ∧
      ((packPooledAttest.execute thirdEpoch ⟨70⟩ ⟨"0x01"⟩ (some (.block .empty)) (updated 1)).run
          (Rehearsal.empty 32)).1.1 =
        Outcome.carryOn (some (.block (Block.empty.repack 128 [Service.lateVote])))) ∧
    ((updated 0).keptAttestations.length = 1 ∧ votesOfThreeEpochs.keptAttestations.length = 2 ∧
      ((rePackAttestation.execute thirdEpoch ⟨70⟩ ⟨"0x01"⟩ (some (.block .empty)) (updated 0)).run
          (Rehearsal.empty 32)).1.1 =
        Outcome.carryOn (some (.block (Block.empty.repack 128 [Service.lateVote])))) := by
  intro updated
  have hkeyed : votesOfThreeEpochs.Keyed :=
    ValidatorStore.keyed_register (s := ValidatorStore.empty) nofun 5 ⟨"0x05"⟩ none
  have hnow : thirdEpoch.clock.slot? = some ⟨64⟩ := by decide
  have hblock : (⟨64⟩ : Slot) ≤ ⟨70⟩ := by decide
  refine ⟨⟨by decide, by decide, ?_⟩, by decide, by decide, ?_⟩
  · obtain ⟨hexecute, hmixed⟩ := mixes_same_after_maintain (β := Rehearsal) (r := 1)
      (a := packPooledAttest) thirdEpoch votesOfThreeEpochs DutyCache.empty rfl (.inl (by decide))
      hkeyed rfl hnow hblock
    rw [hexecute, hmixed]
    rfl
  · obtain ⟨hexecute, hmixed⟩ := mixes_same_after_maintain (β := Rehearsal) (r := 0)
      (a := rePackAttestation) thirdEpoch votesOfThreeEpochs DutyCache.empty rfl (.inr rfl)
      hkeyed rfl hnow hblock
    rw [hexecute, hmixed]
    rfl

end Action

namespace Service

variable {β : Type} [Backend β]

/-- **In a service, too, a block that is packed anew comes out the same behind a round of the role
updater.** Any run leads to a service whose records and windows are as they have to be for it. -/
theorem outcome_updateRoles {s : Service β} (hs : s.Sound) {a : Action} (ha : a.packs = true)
    {r : UInt64} (hr : r ≠ 0 ∨ a = .rePackAttestation) {now slot : Slot}
    (hnow : s.clock.slot? = some now) (hslot : now ≤ slot) (pubkey : Pubkey)
    (payload : Option Payload) :
    (s.step (.updateRoles (some r))).outcome a slot pubkey payload =
      s.outcome a slot pubkey payload := by
  have hmixed := Action.mixedIn_maintain s.context s.validators DutyCache.empty ha hr hs.keyed
    hs.windows.symm hnow hslot
  have hbefore := Action.outcome_execute_of_packs s.context slot pubkey payload s.validators
    s.backend ha
  rw [← hmixed] at hbefore
  exact (Action.outcome_execute_of_packs s.context slot pubkey payload _ s.backend ha).trans
    hbefore.symm

end Service

end Saboteur
