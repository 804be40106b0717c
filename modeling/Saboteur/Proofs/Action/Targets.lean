import Saboteur.Action
import Saboteur.Proofs.Clock.Waiting

/-!
# Where delays end

A delay that is counted in epochs ends at the start of a slot: the first slot of an epoch, the one
in its middle, or its last. Which slot that is follows from the slot of the call by plain
arithmetic, as long as the words reach to the end of that epoch.

And it is there that a call that was held back goes on. A clock with slots of the length that the
chain has, and that reaches the slot, stands at its start when the time is over.
-/

namespace Saboteur

namespace Action

variable {spec : ChainSpec} {s : Slot} {n : UInt64}

/-- An action holds a call at a slot back until the start of the slot with a number: a clock of the
chain that reaches that slot wakes the call there. -/
def HoldsUntil (spec : ChainSpec) (s : Slot) (a : Action) (number : Nat) : Prop :=
  ∃ target : Slot, target.toNat = number ∧
    a.delay? s spec = some (.untilSlot target Duration.zero) ∧
      ∀ c : SlotClock, c.slotDuration = Duration.ofSeconds spec.secondsPerSlot →
        c.Reaches target Duration.zero → c.WakesAt target

theorem holdsUntil {a : Action} {target : Slot} {number : Nat} (hs : spec.secondsPerSlot ≠ 0)
    (hdelay : a.delay? s spec = some (.untilSlot target Duration.zero))
    (htarget : target.toNat = number) : HoldsUntil spec s a number := by
  refine ⟨target, htarget, hdelay, fun c hc hreach => ?_⟩
  have hmillis : c.slotDuration.InMillis := by
    rw [hc]
    exact Duration.inMillis_ofSeconds hs
  exact SlotClock.wakesAt_of_reaches hmillis hreach

/-! ## The epoch in which a delay ends -/

/-- The words reach to the end of the epoch that is `n` behind that of a slot. -/
def Fits (spec : ChainSpec) (s : Slot) (n : UInt64) : Prop :=
  (s.toNat / spec.slotsPerEpoch.toNat + n.toNat + 1) * spec.slotsPerEpoch.toNat ≤ Word.max.toNat

instance (spec : ChainSpec) (s : Slot) (n : UInt64) : Decidable (Fits spec s n) :=
  inferInstanceAs (Decidable (_ ≤ _))

theorem Fits.toNat_epoch (hk : spec.slotsPerEpoch ≠ 0) (h : Fits spec s n) :
    ((s.epoch spec.slotsPerEpoch).addSat n).toNat =
      s.toNat / spec.slotsPerEpoch.toNat + n.toNat := by
  have hle := Nat.le_trans (Nat.le_mul_of_pos_right _ (Epoch.pos_of_ne_zero hk)) h
  rw [Epoch.toNat_addSat, Epoch.toNat_epoch_of_ne_zero hk]
  omega

/-- What fits further ahead fits nearer, too. -/
theorem Fits.of_le {m : UInt64} (h : Fits spec s n) (hm : m ≤ n) : Fits spec s m :=
  Nat.le_trans (Nat.mul_le_mul_right _ (Nat.succ_le_succ (Nat.add_le_add_left hm _))) h

/-- A slot before the end of an epoch within the words is not the last one. -/
theorem Fits.lt_last (hk : spec.slotsPerEpoch ≠ 0) (h : Fits spec s n) : s < Slot.last := by
  have hpos := Epoch.pos_of_ne_zero hk
  have hin : s.toNat < (s.toNat / spec.slotsPerEpoch.toNat + 1) * spec.slotsPerEpoch.toNat :=
    Nat.lt_mul_of_div_lt (Nat.lt_succ_self _) hpos
  exact Nat.lt_of_lt_of_le hin (h.of_le (Nat.zero_le _) : Fits spec s 0)

/-! ## The slots at which delays end -/

section Targets

variable (hk : spec.slotsPerEpoch ≠ 0) (h : Fits spec s n)

include hk h

/-- The epoch of a target that fits ends within the words. -/
theorem Fits.end_le :
    (((s.epoch spec.slotsPerEpoch).addSat n).toNat + 1) * spec.slotsPerEpoch.toNat ≤
      Word.max.toNat := by
  rw [h.toNat_epoch hk]
  exact h

theorem Fits.toNat_start :
    (((s.epoch spec.slotsPerEpoch).addSat n).startSlot spec.slotsPerEpoch).toNat =
      (s.toNat / spec.slotsPerEpoch.toNat + n.toNat) * spec.slotsPerEpoch.toNat := by
  rw [Epoch.toNat_startSlot_of_le (h.end_le hk), h.toNat_epoch hk]

theorem Fits.toNat_half :
    ((((s.epoch spec.slotsPerEpoch).addSat n).startSlot spec.slotsPerEpoch).addSat
        (spec.slotsPerEpoch / 2)).toNat =
      (s.toNat / spec.slotsPerEpoch.toNat + n.toNat) * spec.slotsPerEpoch.toNat +
        spec.slotsPerEpoch.toNat / 2 := by
  have htwo : (2 : UInt64).toNat = 2 := rfl
  -- the middle of an epoch is not behind its end
  have hend : (s.toNat / spec.slotsPerEpoch.toNat + n.toNat) * spec.slotsPerEpoch.toNat +
      spec.slotsPerEpoch.toNat ≤ Word.max.toNat := Nat.succ_mul _ _ ▸ h
  rw [Slot.toNat_addSat, h.toNat_start hk, UInt64.toNat_div, htwo]
  omega

theorem Fits.toNat_end :
    (((s.epoch spec.slotsPerEpoch).addSat n).endSlot spec.slotsPerEpoch).toNat =
      (s.toNat / spec.slotsPerEpoch.toNat + n.toNat) * spec.slotsPerEpoch.toNat +
        (spec.slotsPerEpoch.toNat - 1) := by
  rw [Epoch.toNat_endSlot_of_le hk (h.end_le hk), h.toNat_epoch hk]

end Targets

/-- The end of the epoch of a slot is that of the epoch no epochs further on. -/
theorem delay?_delayToEpochEnd (spec : ChainSpec) (s : Slot) :
    delayToEpochEnd.delay? s spec = (delayToNextNEpochEnd 0).delay? s spec := by
  let k := spec.slotsPerEpoch
  show some (Delay.untilSlot ((s.epoch k).endSlot k) Duration.zero) =
    some (Delay.untilSlot (((s.epoch k).addSat 0).endSlot k) Duration.zero)
  rw [Epoch.addSat_zero]

/-- **Delays that are counted in slots and epochs wake a call in the right slot.** As long as the
words reach to the end of the epoch in question, a call is held back until the slot at position
`0`, at half the length or at the last position of the epoch that is `n` behind its own, until the
last slot of its own epoch, or until the next slot. -/
theorem delays_hold_until (hk : spec.slotsPerEpoch ≠ 0) (hs : spec.secondsPerSlot ≠ 0)
    (h : Fits spec s n) :
    let k := spec.slotsPerEpoch.toNat
    let epoch := s.toNat / k + n.toNat
    HoldsUntil spec s (delayToNextNEpochStart n) (epoch * k) ∧
      HoldsUntil spec s (delayToNextNEpochHalf n) (epoch * k + k / 2) ∧
      HoldsUntil spec s (delayToNextNEpochEnd n) (epoch * k + (k - 1)) ∧
      HoldsUntil spec s delayToEpochEnd (s.toNat / k * k + (k - 1)) ∧
      delayToEpochEnd.delay? s spec = (delayToNextNEpochEnd 0).delay? s spec ∧
      HoldsUntil spec s delayToNextSlot (s.toNat + 1) := by
  intro k epoch
  have hown : Fits spec s 0 := h.of_le (Nat.zero_le _)
  have hsame := delay?_delayToEpochEnd spec s
  exact ⟨holdsUntil hs rfl (h.toNat_start hk), holdsUntil hs rfl (h.toNat_half hk),
    holdsUntil hs rfl (h.toNat_end hk), holdsUntil hs hsame (hown.toNat_end hk), hsame,
    holdsUntil hs rfl (Slot.toNat_next (h.lt_last hk))⟩

/-- A chain with an odd number of slots in an epoch. -/
def sevenSlots : ChainSpec := ⟨7, 3, 128⟩

/-- A clock of that chain whose first slot is not slot zero and begins off the second. -/
def sevenSlotsClock : SlotClock :=
  { genesisSlot := ⟨10⟩
    genesis := ⟨2000000003, by decide⟩
    slotDuration := Duration.ofSeconds 3
    now := Duration.zero }

theorem delays_hold_until_sevenSlots :
    sevenSlots.slotsPerEpoch ≠ 0 ∧ sevenSlots.secondsPerSlot ≠ 0 ∧ Fits sevenSlots ⟨100⟩ 3 ∧
      HoldsUntil sevenSlots ⟨100⟩ (delayToNextNEpochStart 3) 119 ∧
      HoldsUntil sevenSlots ⟨100⟩ (delayToNextNEpochHalf 3) 122 ∧
      HoldsUntil sevenSlots ⟨100⟩ (delayToNextNEpochEnd 3) 125 ∧
      HoldsUntil sevenSlots ⟨100⟩ delayToEpochEnd 104 ∧
      HoldsUntil sevenSlots ⟨100⟩ delayToNextSlot 101 ∧
      sevenSlotsClock.Reaches ⟨119⟩ Duration.zero ∧ sevenSlotsClock.WakesAt ⟨119⟩ := by
  obtain ⟨hstart, hhalf, hend, hown, -, hnext⟩ :=
    @delays_hold_until sevenSlots ⟨100⟩ 3 (by decide) (by decide) (by decide)
  refine ⟨by decide, by decide, by decide, hstart, hhalf, hend, hown, hnext, by decide, ?_⟩
  obtain ⟨target, htarget, -, hwakes⟩ := hstart
  obtain rfl : target = ⟨119⟩ := Slot.ext_toNat htarget
  exact hwakes sevenSlotsClock rfl (by decide)

end Action

end Saboteur
