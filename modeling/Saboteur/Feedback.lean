import Saboteur.Mailbox
import Saboteur.Strategy.RuleSet

/-!
# Feedback

An operator wants to know when a strategy has run its course. The tracker keeps every installed
strategy until the chain is two epochs past the last slot that the strategy names; then it announces
the end, to those who ask for the strategy by name and to those who have subscribed.

A strategy with a computed slot never ends, and neither does one without rules: it names no last
slot.

Pending strategies are kept by their time of installation, in milliseconds. One whose time is taken
gets the next free one.

## Limits

* Times are counted without a bound. They are meant to be words, and stay so unless an installation
  comes so close to the end of the words that no free one is left there.
-/

namespace Saboteur

/-- The announcement that a strategy has ended. -/
structure StrategyEnd where
  uid : String
  minEpoch : Epoch
  maxEpoch : Epoch
  deriving DecidableEq

/-- The strategies that are pending and those that have ended. -/
structure Feedback where
  slotsPerEpoch : UInt64
  /-- By time of installation, in ascending order. -/
  pending : List (Nat × RuleSet)
  /-- The last end of each name. -/
  completed : Table String StrategyEnd
  subscribers : List (Mailbox StrategyEnd)

namespace Feedback

/-- How many epochs after its last one a strategy counts as ended. -/
def completionDelay : UInt64 := 2

/-- How many announcements a subscriber may leave unread. -/
def mailboxCapacity : Nat := 64

/-- The tracker of a service that has just begun. -/
def empty (slotsPerEpoch : UInt64) : Feedback := ⟨slotsPerEpoch, [], Table.empty, []⟩

/-! ## The epochs of a strategy -/

/-- The epochs of the slots that rules name. -/
def literalEpochs (rules : List Rule) (slotsPerEpoch : UInt64) : List Epoch :=
  rules.filterMap fun r => r.slot.literal?.map (·.epoch slotsPerEpoch)

/-- The earlier of two epochs. -/
def earlier (a b : Epoch) : Epoch := if b < a then b else a

/-- The later of two epochs. -/
def later (a b : Epoch) : Epoch := if a < b then b else a

/-- The first of some epochs, or the last epoch there is. -/
def firstEpoch : List Epoch → Epoch
  | [] => Epoch.last
  | e :: rest => rest.foldl earlier e

/-- The last of some epochs, or the last epoch there is. -/
def lastEpoch : List Epoch → Epoch
  | [] => Epoch.last
  | e :: rest => rest.foldl later e

/-- The first and the last epoch of a strategy. -/
def epochBounds (rules : List Rule) (slotsPerEpoch : UInt64) : Epoch × Epoch :=
  let epochs := literalEpochs rules slotsPerEpoch
  (firstEpoch epochs,
    if rules.any (·.slot.isComputed) then Epoch.last else lastEpoch epochs)

/-! ## Tracking -/

/-- Puts a rule set into an ascending list at a time, or at the next free time. -/
def insertPending (time : Nat) (r : RuleSet) : List (Nat × RuleSet) → List (Nat × RuleSet)
  | [] => [(time, r)]
  | (t, other) :: rest =>
    if time < t then (time, r) :: (t, other) :: rest
    else if time = t then (t, other) :: insertPending (time + 1) r rest
    else (t, other) :: insertPending time r rest

/-- Begins to track a rule set. -/
def add (f : Feedback) (time : Nat) (r : RuleSet) : Feedback :=
  { f with pending := insertPending time r f.pending }

/-- The announcement of the end of a rule set. -/
def endOf (f : Feedback) (r : RuleSet) : StrategyEnd :=
  let (minEpoch, maxEpoch) := epochBounds r.rules f.slotsPerEpoch
  { uid := r.uid, minEpoch, maxEpoch }

/-- Whether a rule set has ended at a slot. -/
def hasEnded (f : Feedback) (slot : Slot) (r : RuleSet) : Bool :=
  (f.endOf r).maxEpoch.addSat completionDelay ≤ slot.epoch f.slotsPerEpoch

/-- The announcements that are due at a slot, in the order of installation. -/
def due (f : Feedback) (slot : Slot) : List StrategyEnd :=
  (f.pending.filter fun p => f.hasEnded slot p.2).map fun p => f.endOf p.2

/-- Makes the announcements that are due at a slot. -/
def poll (f : Feedback) (slot : Slot) : Feedback :=
  let ends := f.due slot
  { f with
    pending := f.pending.filter fun p => !f.hasEnded slot p.2
    completed := ends.foldl (fun t e => t.set e.uid e) f.completed
    subscribers := f.subscribers.map (·.deliverAll mailboxCapacity ends) }

/-- The end of the strategy with a name. -/
def completed? (f : Feedback) (uid : String) : Option StrategyEnd := f.completed.get? uid

/-- Forgets the ends of strategies whose last epoch is before the given one. -/
def pruneCompleted (f : Feedback) (oldest : Epoch) : Feedback :=
  { f with completed := f.completed.filter fun _ e => oldest ≤ e.maxEpoch }

/-- One round of the feedback loop: announcements, and then pruning if ends are kept for so many
epochs only. -/
def tick (f : Feedback) (retention : Option UInt64) (slot : Slot) : Feedback :=
  let polled := f.poll slot
  match retention with
  | some r => polled.pruneCompleted ((slot.epoch f.slotsPerEpoch).subSat r)
  | none => polled

/-- How many looks for completed strategies fall into a time. Without a pause between them one look
is as good as many. -/
def looks (interval time : Nat) : Nat := if interval = 0 then 1 else time / interval

/-- The tracker after some looks, at the slot in progress. -/
def look (f : Feedback) (retention : Option UInt64) (slot : Option Slot) (times : Nat) : Feedback :=
  match slot with
  | none => f
  | some s => times.repeat (fun f => f.tick retention s) f

/-! ## Subscribers -/

/-- Adds a subscriber, who gets every later announcement. -/
def subscribe (f : Feedback) : Feedback :=
  { f with subscribers := f.subscribers ++ [Mailbox.empty] }

/-- The mailbox of a subscriber. -/
def mailbox (f : Feedback) (subscriber : Nat) : Mailbox StrategyEnd :=
  f.subscribers[subscriber]?.getD Mailbox.empty

/-- The tracker after a subscriber has read its mailbox. -/
def clearMailbox (f : Feedback) (subscriber : Nat) : Feedback :=
  { f with subscribers := f.subscribers.set subscriber Mailbox.empty }

end Feedback

instance : WriteJson StrategyEnd where
  write e := .obj [
    ("uid", .text e.uid), ("min_epoch", write e.minEpoch), ("max_epoch", write e.maxEpoch)]

instance : ReadJson StrategyEnd where
  read j := do
    let f ← Json.fields ["uid", "min_epoch", "max_epoch"] j
    let uid ← f.required "uid" Json.readText
    let minEpoch ← f.required "min_epoch" read
    let maxEpoch ← f.required "max_epoch" read
    return { uid, minEpoch, maxEpoch }

end Saboteur
