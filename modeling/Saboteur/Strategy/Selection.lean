import Saboteur.Backend
import Saboteur.Strategy.RuleSet
import Saboteur.ValidatorStore

/-!
# Selecting a rule

A rule applies at a slot when its matcher designates exactly that slot. Computed matchers are
looked at anew for every call: the duties may have changed. Of the rules that apply, the highest
level wins, and of several on that level the last one.

Every matcher of a rule set is looked at, in order, also when an earlier rule applies.
-/

namespace Saboteur

variable {β : Type} [Backend β]

/-- The slots of duties whose proposer is an attacker at a slot. -/
def attackerSlots (ctx : Context) (store : ValidatorStore) (now : Slot)
    (duties : List ProposerDuty) : List Slot :=
  (duties.filter fun d => ctx.roleOf store now d.validatorIndex = .attacker).map (·.slot)

/-- The slots of an epoch in which an attacker proposes, unless its duties cannot be read. -/
def attackerProposals (ctx : Context) (store : ValidatorStore) (now : Slot) (epoch : Epoch) :
    StateM β (Option (List Slot)) := do
  match ← proposerDuties epoch with
  | .ok duties => return some (attackerSlots ctx store now duties)
  | .error _ => return none

/-- The latest slot of a list. -/
def latest? : List Slot → Option Slot
  | [] => none
  | s :: rest =>
    match latest? rest with
    | some t => some (if t < s then s else t)
    | none => some s

/-- The slot itself, if it is in the list. -/
def present? (s : Slot) (slots : List Slot) : Option Slot := if s ∈ slots then some s else none

namespace SlotFunction

/-- The slot that a function designates at a slot. -/
def resolve (ctx : Context) (store : ValidatorStore) (f : SlotFunction) (slot : Slot) :
    StateM β (Option Slot) := do
  let k := ctx.spec.slotsPerEpoch
  let epoch := slot.epoch k
  match f with
  | firstSlotInCurrentEpoch => return some (epoch.startSlot k)
  | lastSlotInCurrentEpoch => return some (epoch.endSlot k)
  | firstSlotInNextEpoch => return some (epoch.next.startSlot k)
  | lastSlotInNextEpoch => return some (epoch.next.endSlot k)
  | attackerSlot => return (← attackerProposals ctx store slot epoch).bind (present? slot)
  | lastAttackerSlotInCurrentEpoch =>
    return (← attackerProposals ctx store slot epoch).bind latest?
  | lastAttackerSlotInNextEpoch =>
    return (← attackerProposals ctx store slot epoch.next).bind latest?

end SlotFunction

namespace SlotMatcher

/-- The slot that a matcher designates at a slot, if there is one. -/
def resolve (ctx : Context) (store : ValidatorStore) (m : SlotMatcher) (slot : Slot) :
    StateM β (Option Slot) :=
  match m with
  | literal s => pure (some s)
  | computed f => f.resolve ctx store slot

/-- How a designated slot lies to the slot at hand. No slot counts as an earlier one. -/
def position (designated : Option Slot) (slot : Slot) : Ordering :=
  match designated with
  | some target => target.compare slot
  | none => .lt

/-- How the slot that a matcher designates lies to the slot at hand. -/
def compare (ctx : Context) (store : ValidatorStore) (m : SlotMatcher) (slot : Slot) :
    StateM β Ordering := do
  return position (← m.resolve ctx store slot) slot

/-- Whether a matcher designates the slot at hand. -/
def applies (ctx : Context) (store : ValidatorStore) (m : SlotMatcher) (slot : Slot) :
    StateM β Bool := do
  return (← m.compare ctx store slot) == .eq

end SlotMatcher

namespace RuleSet

/-- The rules that apply at a slot, with their places. -/
def applicable (ctx : Context) (store : ValidatorStore) (slot : Slot) (place : Nat) :
    List Rule → StateM β (List (Nat × Rule))
  | [] => return []
  | rule :: rest => do
    let applies ← rule.slot.applies ctx store slot
    let others ← applicable ctx store slot (place + 1) rest
    return if applies then (place, rule) :: others else others

/-- The better of two rules, the second of which comes later. -/
def better (a b : Nat × Rule) : Nat × Rule := if a.2.level ≤ b.2.level then b else a

/-- The last rule of the highest level. -/
def strongest? : List (Nat × Rule) → Option (Nat × Rule)
  | [] => none
  | r :: rest =>
    match strongest? rest with
    | some s => some (better r s)
    | none => some r

/-- The rule that is selected at a slot, with its place. -/
def select (ctx : Context) (store : ValidatorStore) (rules : RuleSet) (slot : Slot) :
    StateM β (Option (Nat × Rule)) := do
  return strongest? (← applicable ctx store slot 0 rules.rules)

end RuleSet

end Saboteur
