import Saboteur.Proofs.Epochs
import Saboteur.SlotClock

/-!
# The slot of a time and the start of a slot

A clock counts the slots up to a time in whole milliseconds, and computes the start of a slot in
nanoseconds. Where a slot lasts a whole number of milliseconds the two agree to the nanosecond, at
whatever instant the first slot begins, because cutting the time off to milliseconds does not change
how many slots it holds.

So the two are adjoint: a slot has started at a time exactly if the slot of the time is not before
it. This holds as far as there are starts. There is none for a slot that is too far off, and the
slot of a time is the last one for all times behind it.
-/

namespace Saboteur

namespace Slot

theorem toNat_next {s : Slot} (h : s < Slot.last) : s.next.toNat = s.toNat + 1 := by
  have hlt : s.toNat < Word.max.toNat := h
  have hone : (1 : UInt64).toNat = 1 := rfl
  rw [next, toNat_addSat, hone]
  omega

end Slot

namespace Duration

/-- A positive whole number of milliseconds. -/
def InMillis (d : Duration) : Prop := 0 < d.nanos ∧ nanosPerMilli ∣ d.nanos

instance (d : Duration) : Decidable d.InMillis :=
  inferInstanceAs (Decidable (0 < d.nanos ∧ nanosPerMilli ∣ d.nanos))

theorem nanosPerMilli_pos : 0 < nanosPerMilli := by decide

theorem InMillis.millis_ne_zero {d : Duration} (h : d.InMillis) : d.millis ≠ 0 :=
  Nat.ne_of_gt (Nat.div_pos (Nat.le_of_dvd h.1 h.2) nanosPerMilli_pos)

/-- **A duration holds another one of whole milliseconds as often as its milliseconds do.** -/
theorem InMillis.millis_div {d : Duration} (h : d.InMillis) (e : Duration) :
    e.millis / d.millis = e.nanos / d.nanos := by
  obtain ⟨m, hm⟩ := h.2
  have hmillis : d.millis = m := by
    rw [millis, hm, Nat.mul_div_cancel_left m nanosPerMilli_pos]
  rw [hmillis, hm, millis, Nat.div_div_eq_div_mul]

theorem inMillis_ofSeconds {s : UInt64} (h : s ≠ 0) : (ofSeconds s).InMillis := by
  have hpos : 0 < s.toNat := Nat.pos_of_ne_zero fun h0 => h (UInt64.toNat_inj.1 h0)
  rw [InMillis, nanos_ofSeconds]
  exact ⟨Nat.mul_pos hpos (by decide), Nat.dvd_mul_left_of_dvd (by decide) _⟩

end Duration

namespace SlotClock

variable {c : SlotClock} {s r : Slot} {t u b : Duration}

/-! ## Starts -/

/-- **A slot has a start if it is not before the first one, is less than `2 ^ 32` slots behind it,
and starts at a time that a duration can hold.** -/
theorem startOf?_eq_some_iff :
    c.startOf? s = some t ↔
      c.genesisSlot ≤ s ∧ s.toNat - c.genesisSlot.toNat < 4294967296 ∧
        t.nanos = c.genesis.nanos +
          c.slotDuration.nanos * (s.toNat - c.genesisSlot.toNat) := by
  unfold startOf?
  split
  case isFalse hlt => exact iff_of_false nofun fun h => hlt h.1
  case isTrue hle =>
    simp only [Option.bind_eq_some_iff, Duration.mul?_eq_some_iff, Duration.add?_eq_some_iff]
    constructor
    · rintro ⟨d, ⟨hn, hd⟩, ht⟩
      exact ⟨hle, hn, hd ▸ ht⟩
    · rintro ⟨-, hn, ht⟩
      -- the slots until then are not longer than the time at which they end
      refine ⟨⟨_, ?_⟩, ⟨hn, rfl⟩, ht⟩
      exact Nat.lt_of_le_of_lt (ht ▸ Nat.le_add_left _ _) t.nanos_lt

theorem isSome_startOf?_iff :
    (c.startOf? s).isSome ↔
      c.genesisSlot ≤ s ∧ s.toNat - c.genesisSlot.toNat < 4294967296 ∧
        c.genesis.nanos + c.slotDuration.nanos * (s.toNat - c.genesisSlot.toNat) <
          Word.count * nanosPerSecond := by
  simp only [Option.isSome_iff_exists, startOf?_eq_some_iff]
  constructor
  · rintro ⟨t, hle, hn, ht⟩
    exact ⟨hle, hn, ht ▸ t.nanos_lt⟩
  · rintro ⟨hle, hn, hlt⟩
    exact ⟨⟨_, hlt⟩, hle, hn, rfl⟩

/-! ## Slots -/

/-- How many slots are over at a time since the first one began. -/
def slotsOver (c : SlotClock) (t : Duration) : Nat :=
  (t.nanos - c.genesis.nanos) / c.slotDuration.nanos

/-- **The slot of a time is as far behind the first one as slots are over, or the last one.** -/
theorem slotOf?_eq_some_iff (h : c.slotDuration.InMillis) :
    c.slotOf? t = some s ↔
      c.genesis ≤ t ∧ c.slotsOver t < Word.count ∧
        s.toNat = min (c.genesisSlot.toNat + c.slotsOver t) Word.max.toNat := by
  have hover : ∀ elapsed : Duration, elapsed.nanos + c.genesis.nanos = t.nanos →
      elapsed.millis / c.slotDuration.millis = c.slotsOver t := by
    intro elapsed he
    rw [h.millis_div, slotsOver, ← he, Nat.add_sub_cancel]
  have hslot : ∀ n < Word.count,
      (c.genesisSlot.addSat (UInt64.ofNat n) = s ↔
        s.toNat = min (c.genesisSlot.toNat + n) Word.max.toNat) := by
    intro n hn
    have hsum := Slot.toNat_addSat c.genesisSlot (UInt64.ofNat n)
    rw [UInt64.toNat_ofNat_of_lt' hn] at hsum
    rw [← hsum]
    exact ⟨fun he => he ▸ rfl, fun he => Slot.ext_toNat he.symm⟩
  simp only [slotOf?, Option.bind_eq_some_iff, Duration.sub?_eq_some_iff,
    if_neg h.millis_ne_zero]
  constructor
  · rintro ⟨elapsed, he, hs⟩
    rw [hover elapsed he, Word.ofNat?] at hs
    have hle : c.genesis.nanos ≤ t.nanos := he ▸ Nat.le_add_left _ _
    split at hs
    case isTrue hn =>
      rw [Option.map_some, Option.some.injEq, hslot _ hn] at hs
      exact ⟨hle, hn, hs⟩
    case isFalse => cases hs
  · rintro ⟨hle, hn, hs⟩
    obtain ⟨elapsed, he⟩ : ∃ elapsed, t.sub? c.genesis = some elapsed :=
      ⟨_, if_pos hle⟩
    rw [Duration.sub?_eq_some_iff] at he
    refine ⟨elapsed, he, ?_⟩
    rw [hover elapsed he, Word.ofNat?, if_pos hn, Option.map_some, Option.some.injEq, hslot _ hn]
    exact hs

theorem isSome_slotOf?_iff (h : c.slotDuration.InMillis) :
    (c.slotOf? t).isSome ↔ c.genesis ≤ t ∧ c.slotsOver t < Word.count := by
  simp only [Option.isSome_iff_exists, slotOf?_eq_some_iff h]
  constructor
  · rintro ⟨s, hle, hn, -⟩
    exact ⟨hle, hn⟩
  · rintro ⟨hle, hn⟩
    exact ⟨⟨Word.clamp (c.genesisSlot.toNat + c.slotsOver t)⟩, hle, hn, Word.toNat_clamp _⟩

theorem slotOf?_of_lt_genesis (ht : t < c.genesis) : c.slotOf? t = none := by
  have hsub : t.sub? c.genesis = none := if_neg (Nat.not_le.2 ht)
  rw [slotOf?, hsub]
  rfl

/-! ## Both together -/

/-- **The slot of its start is the slot.** -/
theorem slotOf?_of_startOf? (h : c.slotDuration.InMillis) (hs : c.startOf? s = some t) :
    c.slotOf? t = some s := by
  obtain ⟨hle, hn, ht⟩ := startOf?_eq_some_iff.1 hs
  have hover : c.slotsOver t = s.toNat - c.genesisSlot.toNat := by
    rw [slotsOver, ht, Nat.add_sub_cancel_left, Nat.mul_div_cancel_left _ h.1]
  have hword : c.genesisSlot.toNat ≤ s.toNat := hle
  have hmax : s.toNat ≤ Word.max.toNat := Word.toNat_le_max s.val
  have htime : c.genesis.nanos ≤ t.nanos := ht ▸ Nat.le_add_right _ _
  refine (slotOf?_eq_some_iff h).2 ⟨htime, ?_, ?_⟩
  · rw [hover]
    exact Nat.lt_trans hn (by decide)
  · rw [hover]
    omega

/-- **A slot has started at a time exactly if the slot of the time is not before it.** -/
theorem startOf?_le_iff (h : c.slotDuration.InMillis) (hb : c.startOf? s = some b)
    (hr : c.slotOf? t = some r) : b ≤ t ↔ s ≤ r := by
  obtain ⟨hle, -, hstart⟩ := startOf?_eq_some_iff.1 hb
  obtain ⟨hgen, -, hslot⟩ := (slotOf?_eq_some_iff h).1 hr
  have hword : c.genesisSlot.toNat ≤ s.toNat := hle
  have htime : c.genesis.nanos ≤ t.nanos := hgen
  have hmax : s.toNat ≤ Word.max.toNat := Word.toNat_le_max s.val
  have hcount : s.toNat - c.genesisSlot.toNat ≤ c.slotsOver t ↔
      c.slotDuration.nanos * (s.toNat - c.genesisSlot.toNat) ≤ t.nanos - c.genesis.nanos := by
    rw [slotsOver, Nat.le_div_iff_mul_le h.1, Nat.mul_comm]
  show b.nanos ≤ t.nanos ↔ s.toNat ≤ r.toNat
  omega

/-- **Later times do not have earlier slots.** -/
theorem slotOf?_mono (h : c.slotDuration.InMillis) (htu : t ≤ u) (hs : c.slotOf? t = some s)
    (hr : c.slotOf? u = some r) : s ≤ r := by
  obtain ⟨-, -, hslot⟩ := (slotOf?_eq_some_iff h).1 hs
  obtain ⟨-, -, hlater⟩ := (slotOf?_eq_some_iff h).1 hr
  have hover : c.slotsOver t ≤ c.slotsOver u :=
    Nat.div_le_div_right (Nat.sub_le_sub_right htu _)
  show s.toNat ≤ r.toNat
  omega

/-- **The slot of a time and the start of a slot are adjoint.** The slot of the start of a slot is
that slot, and a slot that has a start has begun at a time exactly if the slot of the time is not
before it. So a time lies between the start of its slot and that of the next. Later times do not
have earlier slots, and there is no slot before the first. Slots have starts as far as a clock can
reckon, and the times from the first slot on have slots as far as words can count them. -/
theorem slotOf?_startOf?_adjoint (c : SlotClock) (h : c.slotDuration.InMillis) :
    (∀ s t, c.startOf? s = some t → c.slotOf? t = some s) ∧
      (∀ s b t r, c.startOf? s = some b → c.slotOf? t = some r → (b ≤ t ↔ s ≤ r)) ∧
      (∀ t s, s < Slot.last → c.slotOf? t = some s →
        (∀ b, c.startOf? s = some b → b ≤ t) ∧ ∀ b, c.startOf? s.next = some b → t < b) ∧
      (∀ t u s r, t ≤ u → c.slotOf? t = some s → c.slotOf? u = some r → s ≤ r) ∧
      (∀ t, t < c.genesis → c.slotOf? t = none) ∧
      (∀ s, (c.startOf? s).isSome ↔
        c.genesisSlot ≤ s ∧ s.toNat - c.genesisSlot.toNat < 4294967296 ∧
          c.genesis.nanos + c.slotDuration.nanos * (s.toNat - c.genesisSlot.toNat) <
            Word.count * nanosPerSecond) ∧
      ∀ t, (c.slotOf? t).isSome ↔ c.genesis ≤ t ∧ c.slotsOver t < Word.count := by
  refine ⟨fun s t => slotOf?_of_startOf? h, fun s b t r => startOf?_le_iff h, ?_,
    fun t u s r => slotOf?_mono h, fun t => slotOf?_of_lt_genesis,
    fun s => isSome_startOf?_iff, fun t => isSome_slotOf?_iff h⟩
  intro t s hlast hs
  refine ⟨fun b hb => (startOf?_le_iff h hb hs).2 (Nat.le_refl _), fun b hb => ?_⟩
  have hnext : ¬ s.next ≤ s := by
    show ¬ s.next.toNat ≤ s.toNat
    rw [Slot.toNat_next hlast]
    exact Nat.not_succ_le_self _
  exact Nat.not_le.1 fun hle => hnext ((startOf?_le_iff h hb hs).1 hle)

/-- A clock whose first slot is not slot zero and begins off the millisecond, with slots of one
and a half seconds. -/
def offBeat : SlotClock :=
  .atGenesis ⟨10⟩ ⟨1000000001, by decide⟩ ⟨1500000000, by decide⟩

theorem slotOf?_startOf?_adjoint_offBeat :
    offBeat.slotDuration.InMillis ∧
      (∀ s t, offBeat.startOf? s = some t → offBeat.slotOf? t = some s) ∧
      (∀ s b t r, offBeat.startOf? s = some b → offBeat.slotOf? t = some r → (b ≤ t ↔ s ≤ r)) ∧
      (∀ t s, s < Slot.last → offBeat.slotOf? t = some s →
        (∀ b, offBeat.startOf? s = some b → b ≤ t) ∧
          ∀ b, offBeat.startOf? s.next = some b → t < b) ∧
      (∀ t u s r, t ≤ u → offBeat.slotOf? t = some s → offBeat.slotOf? u = some r → s ≤ r) ∧
      (∀ t, t < offBeat.genesis → offBeat.slotOf? t = none) ∧
      (offBeat.startOf? ⟨11⟩).isSome ∧ (offBeat.slotOf? ⟨1000000001, by decide⟩).isSome := by
  obtain ⟨hround, hadjoint, hbetween, hmono, hbefore, hstarts, hslots⟩ :=
    slotOf?_startOf?_adjoint offBeat (by decide)
  exact ⟨by decide, hround, hadjoint, hbetween, hmono, hbefore, (hstarts _).2 (by decide),
    (hslots _).2 (by decide)⟩

-- the last nanosecond of a slot and the first of the next
example : offBeat.slotOf? ⟨2500000000, by decide⟩ = some ⟨10⟩ ∧
    offBeat.startOf? ⟨11⟩ = some ⟨2500000001, by decide⟩ := by decide

end SlotClock

end Saboteur
