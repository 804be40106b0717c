import Saboteur.Word

/-!
# Slots and epochs

A slot is a point on the chain's schedule and an epoch a run of `slotsPerEpoch` slots. Both are
words with saturating arithmetic. An epoch is described in four ways that are meant to agree: the
epoch of a slot, its first and last slot, a slot's position in it, and a walk from slot to slot. The
slots that the walk finds are also kept as a list.

## Limits

* A spec with no slots per epoch is read as one slot per epoch when an epoch is looked up.
* The list of slots ends early when the next slot would not fit a word.
-/

namespace Saboteur

/-- A slot number. -/
structure Slot where
  val : UInt64
  deriving DecidableEq, Inhabited

/-- An epoch number. -/
structure Epoch where
  val : UInt64
  deriving DecidableEq, Inhabited

namespace Slot

/-- The number of a slot. -/
def toNat (s : Slot) : Nat := s.val.toNat

@[ext] theorem ext_toNat {s t : Slot} (h : s.toNat = t.toNat) : s = t := by
  cases s
  cases t
  simpa [toNat, UInt64.toNat_inj] using h

instance : LT Slot := ⟨fun s t => s.toNat < t.toNat⟩
instance : LE Slot := ⟨fun s t => s.toNat ≤ t.toNat⟩
instance (s t : Slot) : Decidable (s < t) := inferInstanceAs (Decidable (s.toNat < t.toNat))
instance (s t : Slot) : Decidable (s ≤ t) := inferInstanceAs (Decidable (s.toNat ≤ t.toNat))

/-- The last slot a word can name. -/
def last : Slot := ⟨Word.max⟩

/-- The slot `n` later, or the last slot. -/
def addSat (s : Slot) (n : UInt64) : Slot := ⟨Word.addSat s.val n⟩

/-- The slot `n` earlier, or slot zero. -/
def subSat (s : Slot) (n : UInt64) : Slot := ⟨Word.subSat s.val n⟩

theorem toNat_addSat (s : Slot) (n : UInt64) :
    (s.addSat n).toNat = min (s.toNat + n.toNat) Word.max.toNat := Word.toNat_addSat _ _

theorem toNat_subSat (s : Slot) (n : UInt64) : (s.subSat n).toNat = s.toNat - n.toNat :=
  Word.toNat_subSat _ _

/-- The slot after this one, or the last slot. -/
def next (s : Slot) : Slot := s.addSat 1

/-- How a slot compares with another. -/
def compare (s t : Slot) : Ordering := Word.compare s.val t.val

/-- The decimal text of a slot. -/
def display (s : Slot) : String := Word.decimal s.val

/-- The text of a slot inside a diagnostic. -/
def debug (s : Slot) : String := "Slot(" ++ s.display ++ ")"

/-- The epoch that a slot falls into. -/
def epoch (s : Slot) (slotsPerEpoch : UInt64) : Epoch :=
  ⟨s.val / (if slotsPerEpoch = 0 then 1 else slotsPerEpoch)⟩

end Slot

namespace Epoch

/-- The number of an epoch. -/
def toNat (e : Epoch) : Nat := e.val.toNat

@[ext] theorem ext_toNat {e f : Epoch} (h : e.toNat = f.toNat) : e = f := by
  cases e
  cases f
  simpa [toNat, UInt64.toNat_inj] using h

instance : LT Epoch := ⟨fun e f => e.toNat < f.toNat⟩
instance : LE Epoch := ⟨fun e f => e.toNat ≤ f.toNat⟩
instance (e f : Epoch) : Decidable (e < f) := inferInstanceAs (Decidable (e.toNat < f.toNat))
instance (e f : Epoch) : Decidable (e ≤ f) := inferInstanceAs (Decidable (e.toNat ≤ f.toNat))

/-- The last epoch a word can name. It stands for "never" where an end is open. -/
def last : Epoch := ⟨Word.max⟩

/-- The epoch `n` later, or the last epoch. -/
def addSat (e : Epoch) (n : UInt64) : Epoch := ⟨Word.addSat e.val n⟩

/-- The epoch `n` earlier, or epoch zero. -/
def subSat (e : Epoch) (n : UInt64) : Epoch := ⟨Word.subSat e.val n⟩

theorem toNat_epoch (s : Slot) (k : UInt64) :
    (s.epoch k).toNat = s.toNat / (if k = 0 then 1 else k.toNat) := by
  unfold Slot.epoch
  split <;> exact UInt64.toNat_div _ _

theorem toNat_addSat (e : Epoch) (n : UInt64) :
    (e.addSat n).toNat = min (e.toNat + n.toNat) Word.max.toNat := Word.toNat_addSat _ _

theorem toNat_subSat (e : Epoch) (n : UInt64) : (e.subSat n).toNat = e.toNat - n.toNat :=
  Word.toNat_subSat _ _

/-- The epoch after this one, or the last epoch. -/
def next (e : Epoch) : Epoch := e.addSat 1

/-- How an epoch compares with another. -/
def compare (e f : Epoch) : Ordering := Word.compare e.val f.val

/-- The decimal text of an epoch. -/
def display (e : Epoch) : String := Word.decimal e.val

/-- The text of an epoch inside a diagnostic. -/
def debug (e : Epoch) : String := "Epoch(" ++ e.display ++ ")"

/-- The first slot of an epoch. -/
def startSlot (e : Epoch) (slotsPerEpoch : UInt64) : Slot := ⟨Word.mulSat e.val slotsPerEpoch⟩

theorem toNat_startSlot (e : Epoch) (k : UInt64) :
    (e.startSlot k).toNat = min (e.toNat * k.toNat) Word.max.toNat := Word.toNat_mulSat _ _

/-- The last slot of an epoch: the one before the next epoch begins. -/
def endSlot (e : Epoch) (slotsPerEpoch : UInt64) : Slot :=
  ⟨Word.subSat (Word.mulSat (Word.addSat e.val 1) slotsPerEpoch) 1⟩

theorem toNat_endSlot (e : Epoch) (k : UInt64) :
    (e.endSlot k).toNat =
      min (min (e.toNat + 1) Word.max.toNat * k.toNat) Word.max.toNat - 1 := by
  simp [endSlot, Slot.toNat, toNat, Word.toNat_subSat, Word.toNat_mulSat, Word.toNat_addSat]

/-- How far a slot lies behind the start of an epoch, if it is one of the epoch's slots. -/
def position? (e : Epoch) (s : Slot) (slotsPerEpoch : UInt64) : Option Nat :=
  if e.startSlot slotsPerEpoch ≤ s ∧ s ≤ e.endSlot slotsPerEpoch then
    some (s.toNat - (e.startSlot slotsPerEpoch).toNat)
  else none

/-- How many slots of an epoch a word can name. -/
def slotCount (e : Epoch) (slotsPerEpoch : UInt64) : Nat :=
  min slotsPerEpoch.toNat (Word.count - (e.startSlot slotsPerEpoch).toNat)

/-- The slot at a place of an epoch. -/
def slotAt (e : Epoch) (slotsPerEpoch : UInt64) (i : Nat) : Slot :=
  ⟨UInt64.ofNat ((e.startSlot slotsPerEpoch).toNat + i)⟩

/-- The first `limit` slots of an epoch, in ascending order. -/
def firstSlots (e : Epoch) (slotsPerEpoch : UInt64) (limit : Nat) : List Slot :=
  (List.range (min limit (e.slotCount slotsPerEpoch))).map (e.slotAt slotsPerEpoch)

/-- All slots of an epoch, in ascending order. -/
def slots (e : Epoch) (slotsPerEpoch : UInt64) : List Slot :=
  (List.range (e.slotCount slotsPerEpoch)).map (e.slotAt slotsPerEpoch)

theorem length_slots (e : Epoch) (k : UInt64) : (e.slots k).length = e.slotCount k := by
  simp [slots]

end Epoch

/-! ## Walking from slot to slot -/

/-- A walk through the slots of an epoch. -/
structure SlotWalk where
  epoch : Epoch
  slotsPerEpoch : UInt64
  /-- How many slots were asked for. -/
  asked : UInt64

/-- A walk that begins. -/
def Epoch.walk (e : Epoch) (slotsPerEpoch : UInt64) : SlotWalk := ⟨e, slotsPerEpoch, 0⟩

namespace SlotWalk

/-- The next slot, if the epoch has one and a word can name it, and the walk from there on. -/
def next (w : SlotWalk) : Option Slot × SlotWalk :=
  if w.slotsPerEpoch ≤ w.asked then (none, w)
  else match Word.ofNat? (w.asked.toNat + 1) with
    | none => (none, w)
    | some asked =>
      ((Word.ofNat? ((w.epoch.startSlot w.slotsPerEpoch).toNat + w.asked.toNat)).map Slot.mk,
        { w with asked })

/-- A walk after a number of questions. -/
def after (w : SlotWalk) : Nat → SlotWalk
  | 0 => w
  | n + 1 => (w.after n).next.2

/-- The answer of a walk to a question, whose number counts from zero. -/
def answer (w : SlotWalk) (n : Nat) : Option Slot := (w.after n).next.1

end SlotWalk

end Saboteur
