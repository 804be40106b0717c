import Saboteur.Duration
import Saboteur.Slot

/-!
# Slot clocks

A clock knows when its first slot begins, how long a slot is, and what time it is. Times are
durations since a common origin. The slot of a time and the start of a slot are partial: there is no
slot before the first one, and a start may lie beyond what a duration can hold.

Slots are counted in whole milliseconds.
-/

namespace Saboteur

/-- A schedule of slots together with a reading of the time. -/
structure SlotClock where
  genesisSlot : Slot
  genesis : Duration
  slotDuration : Duration
  now : Duration
  deriving DecidableEq

namespace SlotClock

/-- A clock that stands at the start of its first slot. -/
def atGenesis (genesisSlot : Slot) (genesis slotDuration : Duration) : SlotClock :=
  { genesisSlot, genesis, slotDuration, now := genesis }

/-- The slot in progress at a time. -/
def slotOf? (c : SlotClock) (t : Duration) : Option Slot :=
  (t.sub? c.genesis).bind fun elapsed =>
    if c.slotDuration.millis = 0 then none
    else (Word.ofNat? (elapsed.millis / c.slotDuration.millis)).map c.genesisSlot.addSat

/-- The slot in progress now. -/
def slot? (c : SlotClock) : Option Slot := c.slotOf? c.now

/-- When a slot starts. -/
def startOf? (c : SlotClock) (s : Slot) : Option Duration :=
  if c.genesisSlot ≤ s then
    (c.slotDuration.mul? (s.toNat - c.genesisSlot.toNat)).bind c.genesis.add?
  else none

/-- The time left until `offset` after the start of a slot. Nothing is left when that moment has
passed or does not exist. -/
def timeUntil (c : SlotClock) (s : Slot) (offset : Duration) : Duration :=
  (((c.startOf? s).bind (·.add? offset)).bind (·.sub? c.now)).getD Duration.zero

/-- The clock at another time. -/
def setTime (c : SlotClock) (t : Duration) : SlotClock := { c with now := t }

/-- The clock at the start of a slot, or unchanged if the slot has no start. -/
def setSlot (c : SlotClock) (s : Slot) : SlotClock :=
  match c.startOf? s with
  | some t => c.setTime t
  | none => c

/-- The clock some time later. -/
def advance (c : SlotClock) (d : Duration) : SlotClock := c.setTime (c.now.addSat d)

end SlotClock

end Saboteur
