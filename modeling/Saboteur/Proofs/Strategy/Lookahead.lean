import Saboteur.Proofs.Action.Targets
import Saboteur.Proofs.Strategy.Designation

/-!
# Functions of the next epoch

A rule whose matcher is a function of the next epoch is dead: what such a function designates lies
in an epoch behind the slot at hand, so it never is that slot. This takes a backend that tells for
an epoch only duties of that epoch, and words that reach to the end of the next epoch.

A selection asks the backend once for each matcher that needs duties, and an answer may change the
backend. So the backend has to keep to it however often it is asked.
-/

namespace Saboteur

variable {β : Type} [Backend β]

/-! ## Asking a backend again and again -/

namespace Backend

/-- A backend after it was asked for duties any number of times. -/
inductive Asked (b : β) : β → Prop
  | start : Asked b b
  | ask {b' : β} (h : Asked b b') (epoch : Epoch) :
    Asked b ((proposerDuties epoch : StateM β _).run b').2

/-- However often it is asked, a backend tells for an epoch only duties that lie in it. -/
def Orderly (spec : ChainSpec) (b : β) : Prop :=
  ∀ b', Asked b b' → ∀ epoch duties, Backend.duties b' epoch = .ok duties →
    ∀ d ∈ duties, spec.epochOf d.slot = epoch

variable {ctx : Context} {store : ValidatorStore} {slot : Slot} {b b' : β}

/-- A matcher asks for duties once or not at all. -/
theorem Asked.resolve (h : Asked b b') (m : SlotMatcher) :
    Asked b ((m.resolve ctx store slot).run b').2 := by
  have hproposals : ∀ epoch (choose : List Slot → Option Slot),
      Asked b (((do return (← attackerProposals ctx store slot epoch).bind choose) :
        StateM β (Option Slot)).run b').2 := by
    intro epoch choose
    show Asked b ((attackerProposals ctx store slot epoch).run b').2
    rw [run_attackerProposals]
    exact h.ask epoch
  cases m with
  | literal => exact h
  | computed f =>
    cases f with
    | firstSlotInCurrentEpoch | lastSlotInCurrentEpoch | firstSlotInNextEpoch
    | lastSlotInNextEpoch => exact h
    | attackerSlot | lastAttackerSlotInCurrentEpoch | lastAttackerSlotInNextEpoch =>
      exact hproposals _ _

theorem Asked.trans {b'' : β} (h : Asked b b') (h' : Asked b' b'') : Asked b b'' := by
  induction h' with
  | start => exact h
  | ask _ epoch ih => exact ih.ask epoch

theorem Orderly.of_asked {spec : ChainSpec} (hb : Orderly spec b) (h : Asked b b') :
    Orderly spec b' :=
  fun b'' h' => hb b'' (h.trans h')

theorem Asked.lookedAt (h : Asked b b') (rules : List Rule) :
    Asked b (RuleSet.lookedAt ctx store slot b' rules) := by
  induction rules generalizing b' with
  | nil => exact h
  | cons r rest ih => exact ih (h.resolve r.slot)

end Backend

/-- **A rehearsal tells for an epoch only duties of that epoch,** unless somebody proposes at the
last slot that a word can name. -/
theorem Rehearsal.orderly {r : Rehearsal} {spec : ChainSpec} (hk : spec.slotsPerEpoch ≠ 0)
    (hspec : r.slotsPerEpoch = spec.slotsPerEpoch) (hlast : r.proposers.get? Slot.last = none) :
    Backend.Orderly spec r := by
  intro r' hasked epoch duties htold d hd
  -- a rehearsal stays as it is
  have hsame : ∀ r', Backend.Asked r r' → r' = r := by
    intro r' h
    induction h with
    | start => rfl
    | ask _ _ ih => exact ih
  rw [hsame r' hasked] at htold
  have hduties : r.duties epoch = .ok duties := htold
  unfold Rehearsal.duties at hduties
  split at hduties
  · cases hduties
  · cases hduties
    obtain ⟨s, hs, hduty⟩ := List.mem_filterMap.1 hd
    obtain ⟨index, hindex, rfl⟩ := Option.map_eq_some_iff.1 hduty
    have hne : s ≠ Slot.last := by
      rintro rfl
      rw [hlast] at hindex
      cases hindex
    rw [hspec] at hs
    exact Epoch.epoch_eq_of_mem_slots hk hne hs

/-! ## What lies ahead -/

namespace SlotFunction

/-- The functions that designate a slot of the next epoch. -/
def ofNextEpoch : List SlotFunction :=
  [firstSlotInNextEpoch, lastSlotInNextEpoch, lastAttackerSlotInNextEpoch]

variable {ctx : Context} {store : ValidatorStore} {slot : Slot} {b : β}

theorem lt_of_epoch_eq_next (hk : ctx.spec.slotsPerEpoch ≠ 0) (hroom : Action.Fits ctx.spec slot 1)
    {t : Slot} (ht : ctx.spec.epochOf t = (ctx.spec.epochOf slot).next) : slot < t := by
  have hone : (1 : UInt64).toNat = 1 := rfl
  have hnum : (t.epoch ctx.spec.slotsPerEpoch).toNat =
      ((slot.epoch ctx.spec.slotsPerEpoch).addSat 1).toNat := congrArg Epoch.toNat ht
  rw [hroom.toNat_epoch hk, hone, ← Epoch.toNat_epoch_of_ne_zero hk] at hnum
  refine Nat.lt_of_not_le fun hle => ?_
  have hepoch : (t.epoch ctx.spec.slotsPerEpoch).toNat ≤ (slot.epoch ctx.spec.slotsPerEpoch).toNat :=
    Epoch.epoch_le_epoch hle _
  omega

/-- **What a function of the next epoch designates lies behind the slot at hand.** -/
theorem lt_of_resolve_eq_some (hk : ctx.spec.slotsPerEpoch ≠ 0)
    (hroom : Action.Fits ctx.spec slot 1) (hb : Backend.Orderly ctx.spec b) {f : SlotFunction}
    (hf : f ∈ ofNextEpoch) {t : Slot} (ht : ((f.resolve ctx store slot).run b).1 = some t) :
    slot < t := by
  have hone : (1 : UInt64).toNat = 1 := rfl
  have hpos := Epoch.pos_of_ne_zero hk
  have hnext : slot.toNat < (slot.toNat / ctx.spec.slotsPerEpoch.toNat + 1) *
      ctx.spec.slotsPerEpoch.toNat := Nat.lt_mul_of_div_lt (Nat.lt_succ_self _) hpos
  simp only [ofNextEpoch, List.mem_cons, List.not_mem_nil, or_false] at hf
  rcases hf with rfl | rfl | rfl
  · -- the first slot of the next epoch
    have hstart := hroom.toNat_start hk
    cases ht
    show slot.toNat < (((slot.epoch _).addSat 1).startSlot _).toNat
    rw [hstart, hone]
    exact hnext
  · -- the last one
    have hend := hroom.toNat_end hk
    cases ht
    show slot.toNat < (((slot.epoch _).addSat 1).endSlot _).toNat
    rw [hend, hone]
    exact Nat.lt_add_right _ hnext
  · -- the last one of an attacker
    obtain ⟨duties, htold, hlate⟩ := bind_attackerProposals_eq_some_iff.1 ht
    obtain ⟨d, hd, rfl, -⟩ := mem_attackerSlots.1 (latest?_spec hlate).1
    exact lt_of_epoch_eq_next hk hroom (hb b .start _ duties htold d hd)

theorem compare_of_mem_ofNextEpoch (hk : ctx.spec.slotsPerEpoch ≠ 0)
    (hroom : Action.Fits ctx.spec slot 1) (hb : Backend.Orderly ctx.spec b) {f : SlotFunction}
    (hf : f ∈ ofNextEpoch) :
    (((SlotMatcher.computed f).compare ctx store slot).run b).1 =
      if ((f.resolve ctx store slot).run b).1.isSome then .gt else .lt := by
  show SlotMatcher.position ((f.resolve ctx store slot).run b).1 slot = _
  cases ht : ((f.resolve ctx store slot).run b).1 with
  | none => rfl
  | some t =>
    have hlt : slot.val.toNat < t.val.toNat := lt_of_resolve_eq_some hk hroom hb hf ht
    show t.compare slot = .gt
    unfold Slot.compare Word.compare
    rw [if_neg (Nat.lt_asymm hlt), if_neg (Nat.ne_of_gt hlt)]

end SlotFunction

namespace RuleSet

open SlotFunction

/-- **Functions of the next epoch are never selected.** Where the words reach to the end of the next
epoch, and the backend tells for an epoch only duties of that epoch, no rule set selects a rule with
such a function: what it designates lies behind the slot at hand, if it designates anything. -/
theorem select_ne_ofNextEpoch (ctx : Context) (store : ValidatorStore) (slot : Slot) (b : β)
    (hk : ctx.spec.slotsPerEpoch ≠ 0)
    (hroom : (slot.toNat / ctx.spec.slotsPerEpoch.toNat + 2) * ctx.spec.slotsPerEpoch.toNat ≤
      Word.max.toNat)
    (hb : Backend.Orderly ctx.spec b) :
    (∀ (rs : RuleSet) (place : Nat) (rule : Rule),
      ((rs.select ctx store slot).run b).1 = some (place, rule) →
        ∀ f ∈ ofNextEpoch, rule.slot ≠ .computed f) ∧
    ∀ f ∈ ofNextEpoch, (((SlotMatcher.computed f).compare ctx store slot).run b).1 =
      if ((f.resolve ctx store slot).run b).1.isSome then .gt else .lt := by
  refine ⟨?_, fun f hf => compare_of_mem_ofNextEpoch hk hroom hb hf⟩
  intro rs place rule hselect f hf hrule
  obtain ⟨-, hresolve⟩ := (select_eq_some_iff.1 hselect).applies
  rw [hrule] at hresolve
  -- the backend has answered for the rules before this one, and is still in order
  have hlater : Backend.Orderly ctx.spec (lookedAt ctx store slot b (rs.rules.take place)) :=
    hb.of_asked (Backend.Asked.start.lookedAt _)
  exact Nat.lt_irrefl _ (lt_of_resolve_eq_some hk hroom hlater hf hresolve)

/-- A context of the main network in which one validator attacks for good. -/
def onTheAttack : Context :=
  ⟨ChainSpec.mainnet, ChainSpec.mainnet.clock .zero, ⟨[(5, [⟨⟨0⟩, ⟨1000⟩⟩])]⟩⟩

/-- A rehearsal in which that validator proposes in two epochs. -/
def proposesTwice : Rehearsal :=
  { Rehearsal.empty 32 with proposers := ⟨[(⟨40⟩, 5), (⟨70⟩, 5)]⟩ }

/-- Rules for the slots of the next epoch, on higher levels than one for slot 40. -/
def mostlyAhead : RuleSet :=
  ⟨"ahead", Strategy.empty,
    [⟨.literal ⟨40⟩, 0, []⟩, ⟨.computed .firstSlotInNextEpoch, 1, []⟩,
      ⟨.computed .lastAttackerSlotInNextEpoch, 2, []⟩]⟩

theorem select_ne_ofNextEpoch_mostlyAhead :
    (∃ rule, ((mostlyAhead.select onTheAttack .empty ⟨40⟩).run proposesTwice).1 = some (0, rule) ∧
        rule.slot ≠ .computed .lastAttackerSlotInNextEpoch) ∧
      (((SlotMatcher.computed .lastAttackerSlotInNextEpoch).compare onTheAttack .empty ⟨40⟩).run
        proposesTwice).1 = .gt ∧
      (((SlotMatcher.computed .lastAttackerSlotInNextEpoch).compare onTheAttack .empty ⟨70⟩).run
        proposesTwice).1 = .lt := by
  have horderly : Backend.Orderly onTheAttack.spec proposesTwice :=
    Rehearsal.orderly (by decide) rfl rfl
  have h40 := select_ne_ofNextEpoch onTheAttack .empty ⟨40⟩ proposesTwice (by decide) (by decide)
    horderly
  have h70 := select_ne_ofNextEpoch onTheAttack .empty ⟨70⟩ proposesTwice (by decide) (by decide)
    horderly
  have hselect : ((mostlyAhead.select onTheAttack .empty ⟨40⟩).run proposesTwice).1 =
      some (0, ⟨.literal ⟨40⟩, 0, []⟩) := by decide
  refine ⟨⟨_, hselect, h40.1 _ _ _ hselect _ (by decide)⟩, ?_, ?_⟩
  · rw [h40.2 _ (by decide)]
    decide
  · rw [h70.2 _ (by decide)]
    decide

end RuleSet

end Saboteur
