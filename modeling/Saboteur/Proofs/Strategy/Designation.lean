import Saboteur.Proofs.Epochs
import Saboteur.Proofs.Strategy.Selection

/-!
# The slots that functions designate

A function of the epoch in progress matches at its first slot, at its last, in the slots of
attackers, or in the last one of these. The statements here say so by plain arithmetic, and by the
duties that the backend tells for the epoch, which may come in any order, repeat, or be missing.

An epoch that the words do not reach to the end of is cut off, and so is its last slot: what passes
for it is the slot before the last one of all.
-/

namespace Saboteur

/-! ## The latest slot of a list -/

theorem latest?_eq_none_iff {slots : List Slot} : latest? slots = none ↔ slots = [] := by
  cases slots with
  | nil => simp [latest?]
  | cons s rest =>
    unfold latest?
    split <;> simp

theorem latest?_spec {slots : List Slot} {t : Slot} (h : latest? slots = some t) :
    t ∈ slots ∧ ∀ u ∈ slots, u ≤ t := by
  induction slots generalizing t with
  | nil => cases h
  | cons s rest ih =>
    unfold latest? at h
    split at h
    case h_1 late hlate =>
      obtain ⟨hmem, hle⟩ := ih hlate
      by_cases hlt : late < s
      · rw [if_pos hlt] at h
        cases h
        refine ⟨List.mem_cons_self, ?_⟩
        intro u hu
        rcases List.mem_cons.1 hu with rfl | hu
        · exact Nat.le_refl _
        · exact Nat.le_trans (hle u hu) (Nat.le_of_lt hlt)
      · rw [if_neg hlt] at h
        cases h
        refine ⟨List.mem_cons_of_mem _ hmem, ?_⟩
        intro u hu
        rcases List.mem_cons.1 hu with rfl | hu
        · exact Nat.le_of_not_lt hlt
        · exact hle u hu
    case h_2 hnone =>
      cases h
      rw [latest?_eq_none_iff.1 hnone]
      refine ⟨List.mem_cons_self, ?_⟩
      intro u hu
      rw [List.mem_singleton.1 hu]
      exact Nat.le_refl _

theorem latest?_eq_some_iff {slots : List Slot} {t : Slot} :
    latest? slots = some t ↔ t ∈ slots ∧ ∀ u ∈ slots, u ≤ t := by
  constructor
  · exact latest?_spec
  · rintro ⟨hmem, hle⟩
    cases hlate : latest? slots with
    | none =>
      rw [latest?_eq_none_iff.1 hlate] at hmem
      cases hmem
    | some u =>
      obtain ⟨humem, hule⟩ := latest?_spec hlate
      exact congrArg some (Slot.ext_toNat (Nat.le_antisymm (hle u humem) (hule t hmem)))

theorem present?_eq_some_iff {s t : Slot} {slots : List Slot} :
    present? s slots = some t ↔ s = t ∧ s ∈ slots := by
  unfold present?
  split <;> simp_all

/-! ## Duties -/

variable {β : Type} [Backend β]

/-- The duties of an epoch as a backend tells them when it is asked. -/
def Backend.duties (b : β) (epoch : Epoch) : Except BackendError (List ProposerDuty) :=
  ((proposerDuties epoch : StateM β _).run b).1

variable {ctx : Context} {store : ValidatorStore} {b : β} {s : Slot}

theorem mem_attackerSlots {t : Slot} {duties : List ProposerDuty} :
    t ∈ attackerSlots ctx store s duties ↔
      ∃ d ∈ duties, d.slot = t ∧ ctx.roleOf store s d.validatorIndex = .attacker := by
  unfold attackerSlots
  simp only [List.mem_map, List.mem_filter, decide_eq_true_eq]
  constructor
  · rintro ⟨d, ⟨hd, hrole⟩, hslot⟩
    exact ⟨d, hd, hslot, hrole⟩
  · rintro ⟨d, hd, hslot, hrole⟩
    exact ⟨d, ⟨hd, hrole⟩, hslot⟩

/-- Looking for the slots of attackers is asking for the duties once. -/
theorem run_attackerProposals (epoch : Epoch) :
    (attackerProposals ctx store s epoch).run b =
      ((Backend.duties b epoch).toOption.map (attackerSlots ctx store s),
        ((proposerDuties epoch : StateM β _).run b).2) := by
  unfold attackerProposals Backend.duties
  rw [StateT.run_bind]
  obtain ⟨answer, b'⟩ := (proposerDuties epoch : StateM β _).run b
  cases answer <;> rfl

/-- What is chosen among the slots of attackers is chosen among those of the duties that are
told. -/
theorem bind_attackerProposals_eq_some_iff {epoch : Epoch} {choose : List Slot → Option Slot}
    {t : Slot} :
    ((attackerProposals ctx store s epoch).run b).1.bind choose = some t ↔
      ∃ duties, Backend.duties b epoch = .ok duties ∧
        choose (attackerSlots ctx store s duties) = some t := by
  rw [run_attackerProposals]
  cases Backend.duties b epoch with
  | error fault => simp [Except.toOption]
  | ok duties => simp [Except.toOption]

/-! ## Matching -/

namespace SlotFunction

/-- A function designates exactly the slot at hand. -/
def Matches (ctx : Context) (store : ValidatorStore) (b : β) (f : SlotFunction) (s : Slot) : Prop :=
  (((SlotMatcher.computed f).applies ctx store s).run b).1 = true

instance (ctx : Context) (store : ValidatorStore) (b : β) (f : SlotFunction) (s : Slot) :
    Decidable (f.Matches ctx store b s) := inferInstanceAs (Decidable (_ = true))

theorem matches_iff {f : SlotFunction} :
    f.Matches ctx store b s ↔ ((f.resolve ctx store s).run b).1 = some s := by
  have happlies : f.Matches ctx store b s ↔
      (SlotMatcher.position ((f.resolve ctx store s).run b).1 s == .eq) = true := Iff.rfl
  rw [happlies, beq_iff_eq, SlotMatcher.position_eq_eq_iff]

theorem matches_iff_of_resolve {f : SlotFunction} {t : Slot}
    (h : ((f.resolve ctx store s).run b).1 = some t) :
    f.Matches ctx store b s ↔ t.toNat = s.toNat := by
  rw [matches_iff, h, Option.some.injEq, Slot.toNat_inj]

theorem matches_firstSlot_iff (hk : ctx.spec.slotsPerEpoch ≠ 0) :
    firstSlotInCurrentEpoch.Matches ctx store b s ↔
      ctx.spec.slotsPerEpoch.toNat ∣ s.toNat := by
  have hresolve : ((firstSlotInCurrentEpoch.resolve ctx store s).run b).1 =
      some ((s.epoch ctx.spec.slotsPerEpoch).startSlot ctx.spec.slotsPerEpoch) := rfl
  rw [matches_iff_of_resolve hresolve, Epoch.toNat_startSlot_epoch hk, Nat.dvd_iff_div_mul_eq]

/-- **The last slot of the epoch in progress is the one before a multiple of the length of an epoch,
or the one before the last slot of all.** -/
theorem matches_lastSlot_iff (hk : ctx.spec.slotsPerEpoch ≠ 0) (hs : s ≠ Slot.last) :
    lastSlotInCurrentEpoch.Matches ctx store b s ↔
      ctx.spec.slotsPerEpoch.toNat ∣ s.toNat + 1 ∨ s.toNat + 1 = Slot.last.toNat := by
  have hpos := Epoch.pos_of_ne_zero hk
  have hlt := Slot.toNat_lt_max hs
  have hresolve : ((lastSlotInCurrentEpoch.resolve ctx store s).run b).1 =
      some ((s.epoch ctx.spec.slotsPerEpoch).endSlot ctx.spec.slotsPerEpoch) := rfl
  have hmax : Slot.last.toNat = Word.max.toNat := rfl
  -- the next epoch begins behind the slot, and right behind it exactly at a multiple
  have hbehind : s.toNat + 1 ≤
      (s.toNat / ctx.spec.slotsPerEpoch.toNat + 1) * ctx.spec.slotsPerEpoch.toNat :=
    Nat.lt_mul_of_div_lt (Nat.lt_succ_self _) hpos
  have hdvd : ctx.spec.slotsPerEpoch.toNat ∣ s.toNat + 1 ↔
      (s.toNat / ctx.spec.slotsPerEpoch.toNat + 1) * ctx.spec.slotsPerEpoch.toNat =
        s.toNat + 1 := by
    constructor
    · intro h
      rw [← Nat.succ_div_of_dvd h, Nat.div_mul_cancel h]
    · intro h
      exact ⟨_, h.symm.trans (Nat.mul_comm _ _)⟩
  rw [matches_iff_of_resolve hresolve, Epoch.toNat_endSlot_epoch hk hs, hdvd, hmax]
  omega

theorem matches_attackerSlot_iff :
    attackerSlot.Matches ctx store b s ↔
      ∃ duties, Backend.duties b (ctx.spec.epochOf s) = .ok duties ∧
        s ∈ attackerSlots ctx store s duties := by
  rw [matches_iff]
  refine bind_attackerProposals_eq_some_iff.trans ?_
  simp only [present?_eq_some_iff, true_and]
  rfl

theorem matches_lastAttackerSlot_iff :
    lastAttackerSlotInCurrentEpoch.Matches ctx store b s ↔
      ∃ duties, Backend.duties b (ctx.spec.epochOf s) = .ok duties ∧
        latest? (attackerSlots ctx store s duties) = some s :=
  matches_iff.trans bind_attackerProposals_eq_some_iff

/-- **The last slot of an attacker is one of theirs with no later one behind it.** -/
theorem matches_lastAttackerSlot_iff_forall :
    lastAttackerSlotInCurrentEpoch.Matches ctx store b s ↔
      attackerSlot.Matches ctx store b s ∧
        ∀ duties, Backend.duties b (ctx.spec.epochOf s) = .ok duties →
          ∀ d ∈ duties, s < d.slot → ctx.roleOf store s d.validatorIndex ≠ .attacker := by
  rw [matches_lastAttackerSlot_iff, matches_attackerSlot_iff]
  constructor
  · rintro ⟨duties, htold, hlate⟩
    obtain ⟨hmem, hle⟩ := latest?_eq_some_iff.1 hlate
    refine ⟨⟨duties, htold, hmem⟩, ?_⟩
    intro duties' htold' d hd hlt hrole
    rw [htold] at htold'
    cases htold'
    exact Nat.not_lt.2 (hle d.slot (mem_attackerSlots.2 ⟨d, hd, rfl, hrole⟩)) hlt
  · rintro ⟨⟨duties, htold, hmem⟩, hnone⟩
    refine ⟨duties, htold, latest?_eq_some_iff.2 ⟨hmem, ?_⟩⟩
    intro u hu
    obtain ⟨d, hd, rfl, hrole⟩ := mem_attackerSlots.1 hu
    exact Nat.not_lt.1 fun hlt => hnone duties htold d hd hlt hrole

/-! ## Over an epoch -/

/-- Throughout an epoch the backend tells the same duties for it, they lie in it, and the roles of
their proposers stay as they are. What else the store and the backend hold may change from slot to
slot. -/
structure Steady (ctx : Context) (store : Slot → ValidatorStore) (b : Slot → β) (epoch : Epoch)
    (duties : List ProposerDuty) : Prop where
  told : ∀ s, ctx.spec.epochOf s = epoch → Backend.duties (b s) epoch = .ok duties
  within : ∀ d ∈ duties, ctx.spec.epochOf d.slot = epoch
  roles : ∀ d ∈ duties, ∀ s t, ctx.spec.epochOf s = epoch → ctx.spec.epochOf t = epoch →
    ctx.roleOf (store s) s d.validatorIndex = ctx.roleOf (store t) t d.validatorIndex

namespace Steady

variable {store : Slot → ValidatorStore} {b : Slot → β} {epoch : Epoch}
  {duties : List ProposerDuty}

theorem matches_attackerSlot_iff (h : Steady ctx store b epoch duties)
    (hs : ctx.spec.epochOf s = epoch) :
    attackerSlot.Matches ctx (store s) (b s) s ↔ s ∈ attackerSlots ctx (store s) s duties := by
  rw [SlotFunction.matches_attackerSlot_iff, hs, h.told s hs]
  simp

theorem matches_lastAttackerSlot_iff (h : Steady ctx store b epoch duties)
    (hs : ctx.spec.epochOf s = epoch) :
    lastAttackerSlotInCurrentEpoch.Matches ctx (store s) (b s) s ↔
      latest? (attackerSlots ctx (store s) s duties) = some s := by
  rw [SlotFunction.matches_lastAttackerSlot_iff, hs, h.told s hs]
  simp

/-- Whichever slot of the epoch they are looked at from, the slots of attackers are the same. -/
theorem attackerSlots_eq (h : Steady ctx store b epoch duties) {t : Slot}
    (hs : ctx.spec.epochOf s = epoch) (ht : ctx.spec.epochOf t = epoch) :
    attackerSlots ctx (store s) s duties = attackerSlots ctx (store t) t duties := by
  unfold attackerSlots
  congr 1
  refine List.filter_congr fun d hd => ?_
  rw [h.roles d hd s t hs ht]

theorem epochOf_of_mem (h : Steady ctx store b epoch duties) {t : Slot}
    (ht : t ∈ attackerSlots ctx (store s) s duties) : ctx.spec.epochOf t = epoch := by
  obtain ⟨d, hd, rfl, -⟩ := mem_attackerSlots.1 ht
  exact h.within d hd

/-- **If an attacker proposes in the epoch, one slot of it is their last, and no other.** -/
theorem existsUnique_last (h : Steady ctx store b epoch duties)
    (hs : ctx.spec.epochOf s = epoch) (hmatch : attackerSlot.Matches ctx (store s) (b s) s) :
    ∃! t, ctx.spec.epochOf t = epoch ∧
      lastAttackerSlotInCurrentEpoch.Matches ctx (store t) (b t) t := by
  have hmem := (h.matches_attackerSlot_iff hs).1 hmatch
  cases hlate : latest? (attackerSlots ctx (store s) s duties) with
  | none =>
    rw [latest?_eq_none_iff.1 hlate] at hmem
    cases hmem
  | some t =>
    have ht : ctx.spec.epochOf t = epoch := h.epochOf_of_mem (latest?_spec hlate).1
    refine ⟨t, ⟨ht, ?_⟩, ?_⟩
    · rw [h.matches_lastAttackerSlot_iff ht, h.attackerSlots_eq ht hs]
      exact hlate
    · rintro u ⟨hu, hlast⟩
      rw [h.matches_lastAttackerSlot_iff hu, h.attackerSlots_eq hu hs, hlate] at hlast
      exact (Option.some.inj hlast).symm

end Steady

/-! ## The functions of the epoch in progress -/

/-- **What the functions of the epoch in progress select.** The bounds of the epoch go by the number
of the slot; the slots of attackers go by the duties that the backend tells and the roles at the
slot at hand, and without duties there are none. In an epoch whose duties and roles hold still the
last slot of an attacker is matched once, or never if attackers have no slot in it. -/
theorem currentEpoch_matches (ctx : Context) (hk : ctx.spec.slotsPerEpoch ≠ 0) :
    (∀ (store : ValidatorStore) (b : β) (s : Slot),
      (firstSlotInCurrentEpoch.Matches ctx store b s ↔
        ctx.spec.slotsPerEpoch.toNat ∣ s.toNat) ∧
      (s ≠ Slot.last →
        (lastSlotInCurrentEpoch.Matches ctx store b s ↔
          ctx.spec.slotsPerEpoch.toNat ∣ s.toNat + 1 ∨ s.toNat + 1 = Slot.last.toNat)) ∧
      (attackerSlot.Matches ctx store b s ↔
        ∃ duties, Backend.duties b (ctx.spec.epochOf s) = .ok duties ∧
          ∃ d ∈ duties, d.slot = s ∧ ctx.roleOf store s d.validatorIndex = .attacker) ∧
      (lastAttackerSlotInCurrentEpoch.Matches ctx store b s ↔
        attackerSlot.Matches ctx store b s ∧
          ∀ duties, Backend.duties b (ctx.spec.epochOf s) = .ok duties →
            ∀ d ∈ duties, s < d.slot → ctx.roleOf store s d.validatorIndex ≠ .attacker) ∧
      (∀ fault, Backend.duties b (ctx.spec.epochOf s) = .error fault →
        ¬ attackerSlot.Matches ctx store b s ∧
          ¬ lastAttackerSlotInCurrentEpoch.Matches ctx store b s)) ∧
    ∀ (store : Slot → ValidatorStore) (b : Slot → β) (epoch : Epoch) (duties : List ProposerDuty),
      Steady ctx store b epoch duties →
        ((∃ s, ctx.spec.epochOf s = epoch ∧ attackerSlot.Matches ctx (store s) (b s) s) →
          ∃! s, ctx.spec.epochOf s = epoch ∧
            lastAttackerSlotInCurrentEpoch.Matches ctx (store s) (b s) s) ∧
        ((∀ s, ctx.spec.epochOf s = epoch → ¬ attackerSlot.Matches ctx (store s) (b s) s) →
          ∀ s, ctx.spec.epochOf s = epoch →
            ¬ lastAttackerSlotInCurrentEpoch.Matches ctx (store s) (b s) s) := by
  refine ⟨?_, ?_⟩
  · intro store b s
    refine ⟨matches_firstSlot_iff hk, matches_lastSlot_iff hk, ?_,
      matches_lastAttackerSlot_iff_forall, ?_⟩
    · simp only [matches_attackerSlot_iff, mem_attackerSlots]
    · intro fault hfault
      rw [matches_attackerSlot_iff, matches_lastAttackerSlot_iff, hfault]
      simp
  · intro store b epoch duties hsteady
    constructor
    · rintro ⟨s, hs, hmatch⟩
      exact hsteady.existsUnique_last hs hmatch
    · intro hnone s hs hlast
      exact hnone s hs (matches_lastAttackerSlot_iff_forall.1 hlast).1

/-- A context of the main network without windows. -/
def windowless : Context := ⟨ChainSpec.mainnet, ChainSpec.mainnet.clock .zero, Table.empty⟩

/-- A store that knows one validator, an attacker. -/
def oneAttacker : ValidatorStore :=
  { ValidatorStore.empty with records := ⟨[(5, ⟨5, Rehearsal.pubkey 5, .attacker⟩)]⟩ }

/-- A rehearsal in which the attacker proposes twice in an epoch, and somebody else after that. -/
def threeProposals : Rehearsal :=
  { Rehearsal.empty 32 with proposers := ⟨[(⟨45⟩, 5), (⟨40⟩, 5), (⟨50⟩, 4)]⟩ }

theorem currentEpoch_matches_threeProposals :
    (¬ lastSlotInCurrentEpoch.Matches windowless oneAttacker threeProposals ⟨62⟩ ∧
      attackerSlot.Matches windowless oneAttacker threeProposals ⟨40⟩ ∧
      ¬ lastAttackerSlotInCurrentEpoch.Matches windowless oneAttacker threeProposals ⟨40⟩) ∧
    ∃! s, windowless.spec.epochOf s = ⟨1⟩ ∧
      lastAttackerSlotInCurrentEpoch.Matches windowless oneAttacker threeProposals s := by
  obtain ⟨hslots, hepoch⟩ := currentEpoch_matches (β := Rehearsal) windowless (by decide)
  have hmatch : attackerSlot.Matches windowless oneAttacker threeProposals ⟨40⟩ := by decide
  have hsteady : Steady windowless (fun _ => oneAttacker) (fun _ => threeProposals) ⟨1⟩
      [⟨Rehearsal.pubkey 5, 5, ⟨40⟩⟩, ⟨Rehearsal.pubkey 5, 5, ⟨45⟩⟩,
        ⟨Rehearsal.pubkey 4, 4, ⟨50⟩⟩] :=
    ⟨fun _ _ => rfl, by decide, fun _ _ _ _ _ _ => rfl⟩
  refine ⟨⟨?_, hmatch, ?_⟩, ?_⟩
  · rw [(hslots oneAttacker threeProposals ⟨62⟩).2.1 (by decide)]
    decide
  · rw [(hslots oneAttacker threeProposals ⟨40⟩).2.2.2.1]
    rintro ⟨-, hnone⟩
    refine hnone _ rfl ⟨Rehearsal.pubkey 5, 5, ⟨45⟩⟩ ?_ (by decide) (by decide)
    exact List.mem_cons_of_mem _ List.mem_cons_self
  · exact (hepoch _ _ _ _ hsteady).1 ⟨⟨40⟩, by decide, hmatch⟩

/-- **An epoch of 32 slots has one more slot behind the last slot but one of all, which passes for
its last.** -/
theorem lastSlot_matches_too_early :
    let s : Slot := ⟨18446744073709551614⟩
    s < Slot.last ∧
      lastSlotInCurrentEpoch.Matches windowless oneAttacker threeProposals s ∧
      ¬ windowless.spec.slotsPerEpoch.toNat ∣ s.toNat + 1 := by
  decide

end SlotFunction

end Saboteur
