import Mathlib.Data.List.Range
import Saboteur.Proofs.Epochs

/-!
# What belongs to an epoch

Which slots belong to an epoch is said in four ways: by the epoch of a slot, by the bounds of the
epoch, by the place of a slot in it, and by a walk from slot to slot. They agree on every slot but
the last one that a word can name.

At the end of the words each of them stops in its own way. The bounds saturate, so the last slot lies
behind the last slot of every epoch and has no place in any. A walk starts at the first slot, which
saturates too, and ends where a sum does not fit a word, so it finds the last slot in every epoch
that the words do not reach.
-/

namespace Saboteur

/-! ## Walking from slot to slot -/

namespace SlotWalk

variable {e : Epoch} {k : UInt64} {n : Nat}

/-- Within the epoch a walk counts on, whether a word can name the slot or not. -/
theorem next_of_lt (h : n < k.toNat) :
    next ⟨e, k, UInt64.ofNat n⟩ =
      ((Word.ofNat? ((e.startSlot k).toNat + n)).map Slot.mk, ⟨e, k, UInt64.ofNat (n + 1)⟩) := by
  have hk : k.toNat < Word.count := Word.toNat_lt_count k
  have hn : (UInt64.ofNat n).toNat = n := UInt64.toNat_ofNat_of_lt' (Nat.lt_trans h hk)
  have hgo : ¬ k ≤ UInt64.ofNat n := by
    show ¬ k.toNat ≤ (UInt64.ofNat n).toNat
    rw [hn]
    exact Nat.not_le.2 h
  have hroom : Word.ofNat? (n + 1) = some (UInt64.ofNat (n + 1)) :=
    if_pos (Nat.lt_of_le_of_lt h hk)
  simp only [next, if_neg hgo, hn, hroom]

/-- At the end of the epoch a walk stays where it is. -/
theorem next_at_end : next ⟨e, k, UInt64.ofNat k.toNat⟩ = (none, ⟨e, k, UInt64.ofNat k.toNat⟩) := by
  have hstop : k ≤ UInt64.ofNat k.toNat := by
    rw [UInt64.ofNat_toNat]
    exact Nat.le_refl _
  exact if_pos hstop

/-- A walk counts its questions up to the number of slots, whether they bring a slot or not. -/
theorem after_walk (e : Epoch) (k : UInt64) (n : Nat) :
    (e.walk k).after n = ⟨e, k, UInt64.ofNat (min n k.toNat)⟩ := by
  induction n with
  | zero =>
    rw [Nat.zero_min]
    rfl
  | succ n ih =>
    rw [after, ih]
    by_cases hn : n < k.toNat
    · rw [Nat.min_eq_left (Nat.le_of_lt hn), next_of_lt hn, Nat.min_eq_left hn]
    · rw [Nat.min_eq_right (Nat.not_lt.1 hn), next_at_end,
        Nat.min_eq_right (Nat.le_succ_of_le (Nat.not_lt.1 hn))]

/-- **A walk answers with the slots of the epoch in their order, and with nothing from then on.** -/
theorem answer_walk (e : Epoch) (k : UInt64) (n : Nat) : (e.walk k).answer n = (e.slots k)[n]? := by
  have hcount : n < e.slotCount k ↔
      n < k.toNat ∧ (e.startSlot k).toNat + n < Word.count := by
    have hstart : (e.startSlot k).toNat < Word.count := Word.toNat_lt_count _
    rw [Epoch.slotCount]
    omega
  rw [answer, after_walk, Epoch.slots, List.getElem?_map]
  by_cases hn : n < k.toNat
  · rw [Nat.min_eq_left (Nat.le_of_lt hn), next_of_lt hn, Word.ofNat?]
    by_cases hroom : (e.startSlot k).toNat + n < Word.count
    · rw [if_pos hroom, List.getElem?_range (hcount.2 ⟨hn, hroom⟩)]
      rfl
    · rw [if_neg hroom, List.getElem?_eq_none]
      · rfl
      · rw [List.length_range]
        exact Nat.not_lt.1 fun h => hroom (hcount.1 h).2
  · rw [Nat.min_eq_right (Nat.not_lt.1 hn), next_at_end, List.getElem?_eq_none]
    · rfl
    · rw [List.length_range]
      exact Nat.not_lt.1 fun h => hn (hcount.1 h).1

/-- A walk finds the slots that are listed. -/
theorem exists_answer_walk_iff {s : Slot} : (∃ n, (e.walk k).answer n = some s) ↔ s ∈ e.slots k := by
  simp only [answer_walk, List.mem_iff_getElem?]

end SlotWalk

namespace Epoch

variable {k : UInt64} {e : Epoch} {s : Slot}

/-! ## The order of the slots -/

/-- Each slot of an epoch is the one right behind the slot before it. -/
theorem isChain_slots (e : Epoch) (k : UInt64) :
    (e.slots k).IsChain fun s t => t.toNat = s.toNat + 1 := by
  refine (List.isChain_map _).2 ((List.isChain_range _ _).2 fun i hi => ?_)
  rw [toNat_slotAt (by omega), toNat_slotAt (by omega), Nat.add_assoc]

theorem pairwise_slots (e : Epoch) (k : UInt64) : (e.slots k).Pairwise (· < ·) := by
  refine List.pairwise_map.2 (List.pairwise_lt_range.imp_of_mem fun {i j} hi hj hij => ?_)
  show (e.slotAt k i).toNat < (e.slotAt k j).toNat
  rw [toNat_slotAt (List.mem_range.1 hi), toNat_slotAt (List.mem_range.1 hj)]
  exact Nat.add_lt_add_left hij _

/-- An epoch that the words reach has all of its slots. -/
theorem length_slots_of_le (h : (e.toNat + 1) * k.toNat ≤ Word.count) :
    (e.slots k).length = k.toNat := by
  rw [Nat.succ_mul] at h
  rw [length_slots, slotCount, toNat_startSlot]
  omega

/-! ## One description from another -/

/-- A slot belongs to the epoch between whose bounds it lies. -/
theorem epoch_eq_iff_bounds (hk : k ≠ 0) (hs : s < Slot.last) :
    s.epoch k = e ↔ e.startSlot k ≤ s ∧ s ≤ e.endSlot k := by
  have hne : s ≠ Slot.last := fun h => Nat.lt_irrefl _ (h ▸ hs)
  rw [startSlot_le_iff hk hne, le_endSlot_iff hk hne, ← toNat_inj]
  show _ ↔ e.toNat ≤ (s.epoch k).toNat ∧ (s.epoch k).toNat ≤ e.toNat
  omega

theorem position?_eq_none_iff :
    e.position? s k = none ↔ ¬ (e.startSlot k ≤ s ∧ s ≤ e.endSlot k) := by
  unfold position?
  split <;> simp [*]

/-- A slot belongs to the epoch in which it has a place. -/
theorem epoch_eq_iff_position (hk : k ≠ 0) (hs : s < Slot.last) :
    s.epoch k = e ↔ e.position? s k = some (s.toNat - e.toNat * k.toNat) := by
  rw [epoch_eq_iff_bounds hk hs]
  constructor
  · intro h
    -- a slot before the last one lies behind the true start, so that one is not cut off
    have hstart : min (e.toNat * k.toNat) Word.max.toNat ≤ s.toNat := toNat_startSlot e k ▸ h.1
    have hlast : s.toNat < Word.max.toNat := hs
    rw [position?, if_pos h, toNat_startSlot, Nat.min_eq_left (by omega)]
  · intro h
    by_contra hout
    rw [position?_eq_none_iff.2 hout] at h
    cases h

/-- A slot belongs to the epoch that lists it. -/
theorem epoch_eq_iff_mem_slots (hk : k ≠ 0) (hs : s < Slot.last) :
    s.epoch k = e ↔ s ∈ e.slots k := by
  constructor
  · rintro rfl
    exact (mem_slots_epoch_iff hk).2 rfl
  · exact epoch_eq_of_mem_slots hk fun h => Nat.lt_irrefl _ (h ▸ hs)

/-! ## At the end of the words -/

/-- No epoch reaches the last slot, by its bounds. -/
theorem endSlot_lt_last (e : Epoch) (k : UInt64) : e.endSlot k < Slot.last := by
  have hmax : 0 < Word.max.toNat := by decide
  show (e.endSlot k).toNat < Word.max.toNat
  rw [toNat_endSlot]
  omega

theorem position?_last (e : Epoch) (k : UInt64) : e.position? Slot.last k = none :=
  position?_eq_none_iff.2 fun h => Nat.not_le.2 (endSlot_lt_last e k) h.2

/-- An epoch that the words do not reach is no slot's epoch. -/
theorem epoch_ne_of_beyond (hk : k ≠ 0) (h : Word.max.toNat < e.toNat * k.toNat) (s : Slot) :
    s.epoch k ≠ e := by
  rintro rfl
  have hle : s.toNat ≤ Word.max.toNat := Word.toNat_le_max _
  have hdiv : s.toNat / k.toNat * k.toNat ≤ s.toNat := Nat.div_mul_le_self _ _
  rw [toNat_epoch_of_ne_zero hk] at h
  omega

theorem startSlot_of_beyond (h : Word.max.toNat < e.toNat * k.toNat) :
    e.startSlot k = Slot.last := by
  refine Slot.ext_toNat ?_
  rw [toNat_startSlot]
  exact Nat.min_eq_right (Nat.le_of_lt h)

/-- An epoch that the words do not reach lists the last slot alone. -/
theorem slots_of_beyond (hk : k ≠ 0) (h : Word.max.toNat < e.toNat * k.toNat) :
    e.slots k = [Slot.last] := by
  have hone : e.slotCount k = 1 := by
    have hroom : Word.count - Slot.last.toNat = 1 := by decide
    rw [slotCount, startSlot_of_beyond h, hroom]
    exact Nat.min_eq_right (pos_of_ne_zero hk)
  rw [slots, hone]
  refine congrArg (· :: []) (Slot.ext_toNat ?_)
  rw [toNat_slotAt (hone ▸ Nat.one_pos), startSlot_of_beyond h]
  rfl

/-- **The four descriptions of an epoch agree on every slot but the last one.** A walk goes through
the slots in their order and leaves out none, and it finds all of them where the words reach to the
end of the epoch. The last slot has no place in any epoch. An epoch that the words do not reach has
no slots, but a walk through it finds the last slot. -/
theorem descriptions_agree (hk : k ≠ 0) (e : Epoch) :
    (∀ s < Slot.last,
      (s.epoch k = e ↔ e.startSlot k ≤ s ∧ s ≤ e.endSlot k) ∧
      (s.epoch k = e ↔ e.position? s k = some (s.toNat - e.toNat * k.toNat)) ∧
      (s.epoch k = e ↔ ∃ n, (e.walk k).answer n = some s)) ∧
    (∀ n, (e.walk k).answer n = (e.slots k)[n]?) ∧
    (e.slots k).Pairwise (· < ·) ∧
    ((e.slots k).IsChain fun s t => t.toNat = s.toNat + 1) ∧
    ((e.toNat + 1) * k.toNat ≤ Word.count → (e.slots k).length = k.toNat) ∧
    e.position? Slot.last k = none ∧
    (Word.max.toNat < e.toNat * k.toNat →
      (∀ s, s.epoch k ≠ e ∧ ¬ (e.startSlot k ≤ s ∧ s ≤ e.endSlot k) ∧ e.position? s k = none) ∧
        e.slots k = [Slot.last]) := by
  refine ⟨fun s hs => ⟨epoch_eq_iff_bounds hk hs, epoch_eq_iff_position hk hs, ?_⟩,
    SlotWalk.answer_walk e k, pairwise_slots e k, isChain_slots e k, length_slots_of_le,
    position?_last e k, fun hbeyond => ⟨fun s => ?_, slots_of_beyond hk hbeyond⟩⟩
  · rw [SlotWalk.exists_answer_walk_iff, epoch_eq_iff_mem_slots hk hs]
  · have hout : ¬ (e.startSlot k ≤ s ∧ s ≤ e.endSlot k) := by
      rw [startSlot_of_beyond hbeyond]
      exact fun h => Nat.not_le.2 (endSlot_lt_last e k) (Nat.le_trans h.1 h.2)
    exact ⟨epoch_ne_of_beyond hk hbeyond s, hout, position?_eq_none_iff.2 hout⟩

/-- The epoch of seven slots that the words end in: they reach two of its slots. -/
def brokenOff : Epoch := ⟨2635249153387078802⟩

theorem descriptions_agree_sevenSlots :
    (7 : UInt64) ≠ 0 ∧
    ((⟨24⟩ : Slot) < Slot.last ∧ (⟨24⟩ : Slot).epoch 7 = ⟨3⟩ ∧
      (startSlot ⟨3⟩ 7 ≤ ⟨24⟩ ∧ ⟨24⟩ ≤ endSlot ⟨3⟩ 7) ∧ position? ⟨3⟩ ⟨24⟩ 7 = some 3 ∧
      (∃ n, (walk ⟨3⟩ 7).answer n = some ⟨24⟩) ∧
      ((⟨3⟩ : Epoch).toNat + 1) * (7 : UInt64).toNat ≤ Word.count ∧ (slots ⟨3⟩ 7).length = 7) ∧
    (brokenOff.startSlot 7 < Slot.last ∧
      brokenOff.position? (brokenOff.startSlot 7) 7 = some 0 ∧
      brokenOff.position? Slot.last 7 = none ∧ (brokenOff.walk 7).answer 1 = some Slot.last) ∧
    (Word.max.toNat < brokenOff.next.toNat * (7 : UInt64).toNat ∧
      Slot.last.epoch 7 ≠ brokenOff.next ∧ brokenOff.next.slots 7 = [Slot.last]) := by
  have hk : (7 : UInt64) ≠ 0 := by decide
  obtain ⟨hall, -, -, -, hlength, -⟩ := descriptions_agree hk ⟨3⟩
  obtain ⟨hbounds, hposition, hwalk⟩ := hall ⟨24⟩ (by decide)
  obtain ⟨hcut, hanswer, -, -, -, hlast, -⟩ := descriptions_agree hk brokenOff
  have hfirst := (hcut (brokenOff.startSlot 7) (by decide)).2.1
  have hbeyond : Word.max.toNat < brokenOff.next.toNat * (7 : UInt64).toNat := by decide
  obtain ⟨hnone, hsingle⟩ := (descriptions_agree hk brokenOff.next).2.2.2.2.2.2 hbeyond
  have hepoch : (⟨24⟩ : Slot).epoch 7 = ⟨3⟩ := by decide
  exact ⟨hk, ⟨by decide, hepoch, hbounds.1 hepoch, hposition.1 hepoch, hwalk.1 hepoch, by decide,
      hlength (by decide)⟩,
    ⟨by decide, hfirst.1 (by decide), hlast, (hanswer 1).trans (by decide)⟩,
    ⟨hbeyond, (hnone Slot.last).1, hsingle⟩⟩

end Epoch

end Saboteur
