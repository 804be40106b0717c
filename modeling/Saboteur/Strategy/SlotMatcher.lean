import Saboteur.Slot
import Saboteur.Strategy.Error
import Saboteur.Text.Cutting
import Saboteur.Text.Integer

/-!
# Slot matchers

A rule names the slot at which it applies, either by number or by a function that computes a slot
from the one at hand.
-/

namespace Saboteur

/-- A slot that is computed from the slot at hand. -/
inductive SlotFunction where
  | firstSlotInCurrentEpoch
  | lastSlotInCurrentEpoch
  | firstSlotInNextEpoch
  | lastSlotInNextEpoch
  /-- The slot itself, if an attacker proposes in it. -/
  | attackerSlot
  | lastAttackerSlotInCurrentEpoch
  | lastAttackerSlotInNextEpoch
  deriving DecidableEq

/-- The slot at which a rule applies. -/
inductive SlotMatcher where
  | literal (slot : Slot)
  | computed (f : SlotFunction)
  deriving DecidableEq

namespace SlotFunction

/-- All functions. -/
def all : List SlotFunction :=
  [firstSlotInCurrentEpoch, lastSlotInCurrentEpoch, firstSlotInNextEpoch, lastSlotInNextEpoch,
    attackerSlot, lastAttackerSlotInCurrentEpoch, lastAttackerSlotInNextEpoch]

/-- The name of a function. -/
def name : SlotFunction → String
  | firstSlotInCurrentEpoch => "firstSlotInCurrentEpoch"
  | lastSlotInCurrentEpoch => "lastSlotInCurrentEpoch"
  | firstSlotInNextEpoch => "firstSlotInNextEpoch"
  | lastSlotInNextEpoch => "lastSlotInNextEpoch"
  | attackerSlot => "attackerSlot"
  | lastAttackerSlotInCurrentEpoch => "lastAttackerSlotInCurrentEpoch"
  | lastAttackerSlotInNextEpoch => "lastAttackerSlotInNextEpoch"

/-- The function with a name. -/
def ofName? (s : String) : Option SlotFunction := all.find? fun f => f.name = s

theorem ofName?_name (f : SlotFunction) : ofName? f.name = some f := by
  cases f <;> rfl

end SlotFunction

namespace SlotMatcher

/-- Reads a matcher: an integer is a slot number, and anything else the name of a function. -/
def parse (text : String) : Except StrategyError SlotMatcher :=
  let s := Text.trim text
  match Text.readSigned s with
  | .ok i =>
    if i < 0 then .error (.invalidSlot s) else .ok (.literal ⟨UInt64.ofNat i.toNat⟩)
  | .error _ =>
    match SlotFunction.ofName? s with
    | some f => .ok (.computed f)
    | none => .error (.unknownSlotFunction s)

/-- The text of a matcher. -/
def display : SlotMatcher → String
  | literal s => s.display
  | computed f => f.name

/-- Whether a matcher is a function. -/
def isComputed : SlotMatcher → Bool
  | literal _ => false
  | computed _ => true

/-- The slot number of a matcher that has one. -/
def literal? : SlotMatcher → Option Slot
  | literal s => some s
  | computed _ => none

end SlotMatcher

end Saboteur
