import Mathlib.Data.List.Nodup
import Saboteur.Slot

/-!
# Slots and the bounds of epochs

A slot is at or behind the first slot of an epoch exactly if its own epoch is at or behind that
one, and likewise at the other end. The last slot that a word can name is an exception: it lies
behind the last slot of every epoch, its own included.

Later epochs have later bounds, and where the words reach to the end of an epoch its bounds are the
products that they should be.

The list of the slots of an epoch goes by the first slot alone. For the epoch of a slot it holds the
slots of that epoch, each once and the last slot of all included.
-/

namespace Saboteur

/-- Every slot but the last one has one behind it. -/
theorem Slot.toNat_lt_max {s : Slot} (hs : s ≠ Slot.last) : s.toNat < Word.max.toNat := by
  have hle : s.toNat ≤ Word.max.toNat := Word.toNat_le_max s.val
  have hne : s.toNat ≠ Word.max.toNat := fun h => hs (Slot.ext_toNat h)
  omega

theorem Slot.toNat_inj {s t : Slot} : s.toNat = t.toNat ↔ s = t := ⟨ext_toNat, congrArg toNat⟩

theorem Slot.addSat_le_addSat {s t : Slot} (h : s ≤ t) (n : UInt64) : s.addSat n ≤ t.addSat n := by
  have hnum : s.toNat ≤ t.toNat := h
  show (s.addSat n).toNat ≤ (t.addSat n).toNat
  rw [toNat_addSat, toNat_addSat]
  omega

namespace Epoch

variable {k : UInt64} {e f : Epoch} {s : Slot}

theorem toNat_inj : e.toNat = f.toNat ↔ e = f := ⟨ext_toNat, congrArg toNat⟩

/-- With slots in an epoch, the epoch of a slot is a quotient. -/
theorem toNat_epoch_of_ne_zero (hk : k ≠ 0) (s : Slot) : (s.epoch k).toNat = s.toNat / k.toNat := by
  rw [toNat_epoch, if_neg hk]

theorem pos_of_ne_zero (hk : k ≠ 0) : 0 < k.toNat :=
  Nat.pos_of_ne_zero fun h => hk (UInt64.toNat_inj.1 h)

/-- Starting before a slot and being no later than its epoch are the same, where starts are not cut
off. -/
theorem startSlot_le_iff (hk : k ≠ 0) (hs : s ≠ Slot.last) :
    e.startSlot k ≤ s ↔ e ≤ s.epoch k := by
  have hlt := Slot.toNat_lt_max hs
  show (e.startSlot k).toNat ≤ s.toNat ↔ e.toNat ≤ (s.epoch k).toNat
  rw [toNat_startSlot, toNat_epoch_of_ne_zero hk, Nat.le_div_iff_mul_le (pos_of_ne_zero hk)]
  omega

/-- Ending behind a slot and being no earlier than its epoch are the same, where ends are not cut
off. -/
theorem le_endSlot_iff (hk : k ≠ 0) (hs : s ≠ Slot.last) : s ≤ e.endSlot k ↔ s.epoch k ≤ e := by
  have hlt := Slot.toNat_lt_max hs
  have hpos := pos_of_ne_zero hk
  have hdiv : s.toNat / k.toNat ≤ s.toNat := Nat.div_le_self _ _
  show s.toNat ≤ (e.endSlot k).toNat ↔ (s.epoch k).toNat ≤ e.toNat
  rw [toNat_endSlot, toNat_epoch_of_ne_zero hk]
  -- the epoch behind the given one begins at a positive slot, or is past the end of the words
  have hnext : 0 < min (e.toNat + 1) Word.max.toNat * k.toNat :=
    Nat.mul_pos (Nat.lt_min.2 ⟨Nat.succ_pos _, by decide⟩) hpos
  have hend : s.toNat ≤
        min (min (e.toNat + 1) Word.max.toNat * k.toNat) Word.max.toNat - 1 ↔
      s.toNat < min (e.toNat + 1) Word.max.toNat * k.toNat := by
    omega
  rw [hend, ← Nat.div_lt_iff_lt_mul hpos]
  omega

/-! ## Later epochs -/

theorem addSat_zero (e : Epoch) : e.addSat 0 = e := by
  have hzero : (0 : UInt64).toNat = 0 := rfl
  refine Epoch.ext_toNat ?_
  rw [toNat_addSat, hzero, Nat.add_zero]
  exact Nat.min_eq_left (Word.toNat_le_max _)

theorem subSat_zero (e : Epoch) : e.subSat 0 = e := Epoch.ext_toNat (toNat_subSat e 0)

/-- Sums of epochs are monotone, cut off or not. -/
theorem addSat_le_addSat (e : Epoch) {n m : UInt64} (h : n ≤ m) : e.addSat n ≤ e.addSat m := by
  have hnum : n.toNat ≤ m.toNat := h
  show (e.addSat n).toNat ≤ (e.addSat m).toNat
  rw [toNat_addSat, toNat_addSat]
  omega

/-- Going back further from an earlier epoch leads to an earlier one. -/
theorem subSat_le_subSat (h : e ≤ f) {n m : UInt64} (hn : m ≤ n) : e.subSat n ≤ f.subSat m := by
  have hnum : m.toNat ≤ n.toNat := hn
  have hepoch : e.toNat ≤ f.toNat := h
  show (e.subSat n).toNat ≤ (f.subSat m).toNat
  rw [toNat_subSat, toNat_subSat]
  omega

/-- A later slot has no earlier epoch. -/
theorem epoch_le_epoch {t : Slot} (h : s ≤ t) (k : UInt64) : s.epoch k ≤ t.epoch k := by
  show (s.epoch k).toNat ≤ (t.epoch k).toNat
  rw [toNat_epoch, toNat_epoch]
  exact Nat.div_le_div_right h

/-- A later epoch starts no earlier. -/
theorem startSlot_le_startSlot (h : e ≤ f) (k : UInt64) : e.startSlot k ≤ f.startSlot k := by
  have hprod : e.toNat * k.toNat ≤ f.toNat * k.toNat := Nat.mul_le_mul_right _ h
  show (e.startSlot k).toNat ≤ (f.startSlot k).toNat
  rw [toNat_startSlot, toNat_startSlot]
  omega

/-- A later epoch ends no earlier. -/
theorem endSlot_le_endSlot (h : e ≤ f) (k : UInt64) : e.endSlot k ≤ f.endSlot k := by
  have hnum : e.toNat ≤ f.toNat := h
  have hprod : min (e.toNat + 1) Word.max.toNat * k.toNat ≤
      min (f.toNat + 1) Word.max.toNat * k.toNat :=
    Nat.mul_le_mul_right _ (by omega)
  show (e.endSlot k).toNat ≤ (f.endSlot k).toNat
  rw [toNat_endSlot, toNat_endSlot]
  omega

/-! ## Epochs within the words -/

/-- The start of an epoch that the words reach is a product. -/
theorem toNat_startSlot_of_le (h : (e.toNat + 1) * k.toNat ≤ Word.max.toNat) :
    (e.startSlot k).toNat = e.toNat * k.toNat := by
  rw [Nat.succ_mul] at h
  rw [toNat_startSlot]
  omega

/-- The end of an epoch that the words reach lies right before the next product. -/
theorem toNat_endSlot_of_le (hk : k ≠ 0) (h : (e.toNat + 1) * k.toNat ≤ Word.max.toNat) :
    (e.endSlot k).toNat = e.toNat * k.toNat + (k.toNat - 1) := by
  have hpos := pos_of_ne_zero hk
  have hle : e.toNat + 1 ≤ Word.max.toNat := Nat.le_trans (Nat.le_mul_of_pos_right _ hpos) h
  rw [toNat_endSlot, Nat.min_eq_left hle, Nat.min_eq_left h, Nat.succ_mul]
  omega

/-! ## The epoch of a slot -/

/-- The epoch of a slot begins at or before the slot, so its first slot is never cut off. -/
theorem toNat_startSlot_epoch (hk : k ≠ 0) (s : Slot) :
    ((s.epoch k).startSlot k).toNat = s.toNat / k.toNat * k.toNat := by
  have hle : s.toNat / k.toNat * k.toNat ≤ Word.max.toNat :=
    Nat.le_trans (Nat.div_mul_le_self _ _) (Word.toNat_le_max _)
  rw [toNat_startSlot, toNat_epoch_of_ne_zero hk, Nat.min_eq_left hle]

/-- The end of the epoch of a slot, from the quotient of the slot. -/
theorem toNat_endSlot_epoch (hk : k ≠ 0) (hs : s ≠ Slot.last) :
    ((s.epoch k).endSlot k).toNat =
      min ((s.toNat / k.toNat + 1) * k.toNat) Word.max.toNat - 1 := by
  have hlt := Slot.toNat_lt_max hs
  have hdiv : s.toNat / k.toNat ≤ s.toNat := Nat.div_le_self _ _
  have hnext : min (s.toNat / k.toNat + 1) Word.max.toNat = s.toNat / k.toNat + 1 := by omega
  rw [toNat_endSlot, toNat_epoch_of_ne_zero hk, hnext]

/-! ## The list of slots -/

/-- Within the count of an epoch no place is beyond the words. -/
theorem toNat_slotAt {i : Nat} (h : i < e.slotCount k) :
    (e.slotAt k i).toNat = (e.startSlot k).toNat + i := by
  have hroom : (e.startSlot k).toNat + i < Word.count := by
    unfold slotCount at h
    omega
  exact UInt64.toNat_ofNat'.trans (Nat.mod_eq_of_lt hroom)

/-- No slot of an epoch is listed twice. -/
theorem nodup_slots (e : Epoch) (k : UInt64) : (e.slots k).Nodup := by
  refine List.Nodup.map_on ?_ List.nodup_range
  intro i hi j hj hij
  have hnum := congrArg Slot.toNat hij
  rw [toNat_slotAt (List.mem_range.1 hi), toNat_slotAt (List.mem_range.1 hj)] at hnum
  omega

/-- The listed slots are those from the start on, as many as there are in an epoch. -/
theorem mem_slots_iff :
    s ∈ e.slots k ↔ e.startSlot k ≤ s ∧ s.toNat < (e.startSlot k).toNat + k.toNat := by
  have hword : s.toNat < Word.count := Word.toNat_lt_count s.val
  unfold slots
  rw [List.mem_map]
  constructor
  · rintro ⟨i, hi, rfl⟩
    rw [List.mem_range] at hi
    show (e.startSlot k).toNat ≤ (e.slotAt k i).toNat ∧ _
    rw [toNat_slotAt hi]
    unfold slotCount at hi
    omega
  · rintro ⟨hstart, hend⟩
    have hnum : (e.startSlot k).toNat ≤ s.toNat := hstart
    have hi : s.toNat - (e.startSlot k).toNat < e.slotCount k := by
      unfold slotCount
      omega
    refine ⟨s.toNat - (e.startSlot k).toNat, List.mem_range.2 hi, Slot.ext_toNat ?_⟩
    rw [toNat_slotAt hi]
    omega

/-- A slot is listed for its own epoch only. The last slot of all is an exception: it is listed for
every epoch that the words do not reach. -/
theorem epoch_eq_of_mem_slots (hk : k ≠ 0) (hs : s ≠ Slot.last) (h : s ∈ e.slots k) :
    s.epoch k = e := by
  have hlt := Slot.toNat_lt_max hs
  obtain ⟨hstart, hend⟩ := mem_slots_iff.1 h
  have hnum : (e.startSlot k).toNat ≤ s.toNat := hstart
  rw [toNat_startSlot] at hend hnum
  refine Epoch.ext_toNat ?_
  rw [toNat_epoch_of_ne_zero hk, Nat.div_eq_iff (pos_of_ne_zero hk)]
  omega

/-- **The list of the slots of a slot's epoch holds exactly the slots of that epoch.** -/
theorem mem_slots_epoch_iff (hk : k ≠ 0) {t : Slot} :
    t ∈ (s.epoch k).slots k ↔ t.epoch k = s.epoch k := by
  have hpos := pos_of_ne_zero hk
  rw [mem_slots_iff, ← toNat_inj, toNat_epoch_of_ne_zero hk, toNat_epoch_of_ne_zero hk,
    Nat.div_eq_iff hpos]
  show ((s.epoch k).startSlot k).toNat ≤ t.toNat ∧ _ ↔ _
  rw [toNat_startSlot_epoch hk]
  omega

end Epoch

end Saboteur
