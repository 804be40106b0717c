import Saboteur.Proofs.Clock.Slots

/-!
# Waiting for a slot

A clock is asked how long it is until some time after the start of a slot. While that moment is to
come the answer is what is missing, so a clock that is moved on by the answer stands at the
moment. No time is left where the moment has passed, and none where it cannot be computed: the
slot is before the first one, or `2 ^ 32` or more slots behind it, or the moment is later than a
duration can hold.

As long as moments can be computed, a later one is waited for longer.
-/

namespace Saboteur

namespace Duration

theorem zero_le (d : Duration) : zero ≤ d := Nat.zero_le _

theorem eq_zero_of_le_zero {d : Duration} (h : d ≤ zero) : d = zero :=
  ext_nanos (Nat.le_zero.1 h)

theorem addSat_eq {a b d : Duration} (h : d.nanos = a.nanos + b.nanos) : a.addSat b = d := by
  rw [addSat, add?_eq_some_iff.2 h]
  rfl

end Duration

namespace SlotClock

variable {c : SlotClock} {s s' : Slot} {offset offset' t : Duration}

/-- The moment some time after the start of a slot. -/
def moment? (c : SlotClock) (s : Slot) (offset : Duration) : Option Duration :=
  (c.startOf? s).bind (·.add? offset)

/-- The moment some time after the start of a slot can be computed: the slot is not before the first
one and less than `2 ^ 32` slots behind it, and a duration can hold the moment. -/
def Reaches (c : SlotClock) (s : Slot) (offset : Duration) : Prop :=
  c.genesisSlot ≤ s ∧ s.toNat - c.genesisSlot.toNat < 4294967296 ∧
    c.genesis.nanos + c.slotDuration.nanos * (s.toNat - c.genesisSlot.toNat) + offset.nanos <
      Word.count * nanosPerSecond

instance (c : SlotClock) (s : Slot) (offset : Duration) : Decidable (c.Reaches s offset) :=
  inferInstanceAs (Decidable (_ ∧ _ ∧ _))

/-! ## Moments -/

/-- The time until a moment is none, where there is no such moment or it has passed. -/
theorem timeUntil_eq (c : SlotClock) (s : Slot) (offset : Duration) :
    c.timeUntil s offset = ((c.moment? s offset).bind (·.sub? c.now)).getD Duration.zero := rfl

/-- A moment is given exactly for slots from the first one on that are less than `2 ^ 32` slots
behind it, if a duration can hold it. -/
theorem moment?_eq_some_iff :
    c.moment? s offset = some t ↔
      c.genesisSlot ≤ s ∧ s.toNat - c.genesisSlot.toNat < 4294967296 ∧
        t.nanos = c.genesis.nanos +
          c.slotDuration.nanos * (s.toNat - c.genesisSlot.toNat) + offset.nanos := by
  simp only [moment?, Option.bind_eq_some_iff, startOf?_eq_some_iff, Duration.add?_eq_some_iff]
  constructor
  · rintro ⟨start, ⟨hle, hn, hstart⟩, ht⟩
    exact ⟨hle, hn, hstart ▸ ht⟩
  · rintro ⟨hle, hn, ht⟩
    refine ⟨⟨_, ?_⟩, ⟨hle, hn, rfl⟩, ht⟩
    exact Nat.lt_of_le_of_lt (ht ▸ Nat.le_add_right _ _) t.nanos_lt

theorem reaches_iff : c.Reaches s offset ↔ ∃ t, c.moment? s offset = some t := by
  simp only [moment?_eq_some_iff]
  constructor
  · rintro ⟨hle, hn, hlt⟩
    exact ⟨⟨_, hlt⟩, hle, hn, rfl⟩
  · rintro ⟨t, hle, hn, ht⟩
    exact ⟨hle, hn, ht ▸ t.nanos_lt⟩

theorem startOf?_of_moment? (h : c.moment? s Duration.zero = some t) : c.startOf? s = some t :=
  startOf?_eq_some_iff.2 (moment?_eq_some_iff.1 h)

/-! ## The time left -/

/-- **The time left until a moment is what is missing to it.** -/
theorem nanos_timeUntil (h : c.moment? s offset = some t) :
    (c.timeUntil s offset).nanos = t.nanos - c.now.nanos := by
  rw [timeUntil_eq, h, Option.bind_some]
  cases hleft : t.sub? c.now with
  | some left =>
    rw [Duration.sub?_eq_some_iff] at hleft
    rw [Option.getD_some, ← hleft, Nat.add_sub_cancel]
  | none =>
    -- the moment has passed
    have hpast : ¬ c.now.nanos ≤ t.nanos := by
      intro hle
      rw [Duration.sub?, if_pos hle] at hleft
      cases hleft
    exact (Nat.sub_eq_zero_of_le (Nat.le_of_not_le hpast)).symm

/-- **No time is left until a moment that cannot be computed.** -/
theorem timeUntil_of_not_reaches (h : ¬ c.Reaches s offset) :
    c.timeUntil s offset = Duration.zero := by
  have hnone : c.moment? s offset = none :=
    Option.eq_none_iff_forall_ne_some.2 fun t ht => h (reaches_iff.2 ⟨t, ht⟩)
  rw [timeUntil_eq, hnone]
  rfl

/-- **More time is left until a later moment, if that one can be computed.** -/
theorem timeUntil_le_timeUntil (hs : s ≤ s') (hoffset : offset ≤ offset')
    (h : c.Reaches s' offset') : c.timeUntil s offset ≤ c.timeUntil s' offset' := by
  by_cases hreach : c.Reaches s offset
  · obtain ⟨t, ht⟩ := reaches_iff.1 hreach
    obtain ⟨t', ht'⟩ := reaches_iff.1 h
    have hnanos : offset.nanos ≤ offset'.nanos := hoffset
    have hslots : c.slotDuration.nanos * (s.toNat - c.genesisSlot.toNat) ≤
        c.slotDuration.nanos * (s'.toNat - c.genesisSlot.toNat) :=
      Nat.mul_le_mul_left _ (Nat.sub_le_sub_right hs _)
    have hmoment : t.nanos ≤ t'.nanos := by
      rw [(moment?_eq_some_iff.1 ht).2.2, (moment?_eq_some_iff.1 ht').2.2]
      omega
    show (c.timeUntil s offset).nanos ≤ (c.timeUntil s' offset').nanos
    rw [nanos_timeUntil ht, nanos_timeUntil ht']
    exact Nat.sub_le_sub_right hmoment _
  · rw [timeUntil_of_not_reaches hreach]
    exact Duration.zero_le _

/-! ## Waking up -/

/-- Waiting for a slot that is to come ends at its start and in that slot, and any other slot is not
waited for. -/
def WakesAt (c : SlotClock) (s : Slot) : Prop :=
  ∃ start, c.startOf? s = some start ∧
    (c.now < start →
      (c.advance (c.timeUntil s Duration.zero)).now = start ∧
        (c.advance (c.timeUntil s Duration.zero)).slot? = some s) ∧
    (start ≤ c.now → c.timeUntil s Duration.zero = Duration.zero)

/-- A wait for the start of a slot ends in that slot. -/
theorem wakesAt_of_reaches (h : c.slotDuration.InMillis) (hreach : c.Reaches s Duration.zero) :
    c.WakesAt s := by
  obtain ⟨start, hmoment⟩ := reaches_iff.1 hreach
  have hstart := startOf?_of_moment? hmoment
  have hleft := nanos_timeUntil hmoment
  refine ⟨start, hstart, fun hahead => ?_, fun hpast => ?_⟩
  · have hlt : c.now.nanos < start.nanos := hahead
    have hnow : c.now.addSat (c.timeUntil s Duration.zero) = start := by
      refine Duration.addSat_eq ?_
      rw [hleft]
      omega
    refine ⟨hnow, ?_⟩
    show c.slotOf? (c.now.addSat (c.timeUntil s Duration.zero)) = some s
    rw [hnow]
    exact slotOf?_of_startOf? h hstart
  · refine Duration.ext_nanos ?_
    rw [hleft]
    exact Nat.sub_eq_zero_of_le hpast

end SlotClock

end Saboteur
