import Saboteur.ChainSpec
import Saboteur.Command
import Saboteur.Duration
import Saboteur.Random
import Saboteur.Strategy.Error
import Saboteur.Text.Cutting

/-!
# Actions

What the service does when a rule applies to a hook call. An action is written as a name, and for
some names a number behind a colon. Where a delay needs a number and none is written, one is drawn
at random when the action is read, once and for all.
-/

namespace Saboteur

/-- An action, with its parameter. -/
inductive Action where
  | control (c : Command)
  | addAttestToPool
  | storeSignedAttest
  | storeSignedBlock
  | delayWithSecond (seconds : UInt64)
  | delayToNextSlot
  | delayToAfterNextSlot (seconds : UInt64)
  | delayToNextNEpochStart (epochs : UInt64)
  | delayToNextNEpochEnd (epochs : UInt64)
  | delayToNextNEpochHalf (epochs : UInt64)
  | delayToEpochEnd
  | delayHalfEpoch
  | packPooledAttest
  | rePackAttestation
  | modifyParentRoot (slot : Slot)
  deriving DecidableEq

namespace Action

/-- The name of a command as an action. -/
def commandName : Command → String
  | .null => "null"
  | .continue => "continue"
  | .return => "return"
  | .abort => "abort"
  | .skip => "skip"
  | .exit => "exit"

/-- The name of an action. -/
def name : Action → String
  | control c => commandName c
  | addAttestToPool => "addAttestToPool"
  | storeSignedAttest => "storeSignedAttest"
  | storeSignedBlock => "storeSignedBlock"
  | delayWithSecond _ => "delayWithSecond"
  | delayToNextSlot => "delayToNextSlot"
  | delayToAfterNextSlot _ => "delayToAfterNextSlot"
  | delayToNextNEpochStart _ => "delayToNextNEpochStart"
  | delayToNextNEpochEnd _ => "delayToNextNEpochEnd"
  | delayToNextNEpochHalf _ => "delayToNextNEpochHalf"
  | delayToEpochEnd => "delayToEpochEnd"
  | delayHalfEpoch => "delayHalfEpoch"
  | packPooledAttest => "packPooledAttest"
  | rePackAttestation => "rePackAttestation"
  | modifyParentRoot _ => "modifyParentRoot"

/-- The parameter that is written behind the name. -/
def parameter? : Action → Option UInt64
  | delayWithSecond n | delayToAfterNextSlot n | delayToNextNEpochStart n
  | delayToNextNEpochEnd n | delayToNextNEpochHalf n => some n
  | modifyParentRoot s => some s.val
  | _ => none

/-- The text of an action. -/
def display (a : Action) : String :=
  match a.parameter? with
  | some n => a.name ++ ":" ++ Word.decimal n
  | none => a.name

/-! ## Reading -/

/-- The name of an action in a text, and the parameters that are integers. Pieces that are none are
passed over. -/
def parseName (text : String) : String × List Int :=
  match Text.splitList ':' (Text.trimList text.toList) with
  | [] => ("", [])
  | name :: rest =>
    (String.ofList name,
      rest.filterMap fun p => (Text.readSigned (String.ofList (Text.trimList p))).toOption)

/-- A parameter as a word. What is below zero counts as zero. -/
def parameterWord (i : Int) : UInt64 := UInt64.ofNat i.toNat

/-- Random delays are below this number of seconds. -/
def randomDelayBound : Nat := 10

/-- The first parameter, or a random number of seconds. -/
def secondsOrRandom (params : List Int) (r : RandomStream) : UInt64 × RandomStream :=
  match params with
  | i :: _ => (parameterWord i, r)
  | [] =>
    let (n, r) := r.draw randomDelayBound
    (UInt64.ofNat n, r)

/-- The first parameter, or a default. -/
def parameterOr (default : UInt64) : List Int → UInt64
  | i :: _ => parameterWord i
  | [] => default

/-- The slot whose block root is handed out. It has to be given. -/
def readRootSlot (name : String) : List Int → Except StrategyError Slot
  | [] => .error (.missingParameter name)
  | i :: _ =>
    if i < 0 then .error (.invalidParameter name i) else .ok ⟨parameterWord i⟩

/-- Actions without a number, by name. -/
def plain? (name : String) : Option Action :=
  [control .null, control .return, control .continue, control .abort, control .skip,
    control .exit, addAttestToPool, storeSignedAttest, storeSignedBlock, delayToNextSlot,
    delayToEpochEnd, delayHalfEpoch, packPooledAttest, rePackAttestation].find? fun a =>
      a.name = name

/-- Reads an action. -/
def parse (text : String) (r : RandomStream) : Except StrategyError (Action × RandomStream) :=
  let (name, params) := parseName text
  match plain? name with
  | some a => .ok (a, r)
  | none =>
    if name = "delayWithSecond" then
      let (n, r) := secondsOrRandom params r
      .ok (delayWithSecond n, r)
    else if name = "delayToAfterNextSlot" then
      let (n, r) := secondsOrRandom params r
      .ok (delayToAfterNextSlot n, r)
    else if name = "delayToNextNEpochStart" then
      .ok (delayToNextNEpochStart (parameterOr 1 params), r)
    else if name = "delayToNextNEpochEnd" then
      .ok (delayToNextNEpochEnd (parameterOr 0 params), r)
    else if name = "delayToNextNEpochHalf" then
      .ok (delayToNextNEpochHalf (parameterOr 1 params), r)
    else if name = "modifyParentRoot" then
      (readRootSlot name params).map fun s => (modifyParentRoot s, r)
    else .error (.unknownAction name)

/-! ## Delays -/

/-- How long a call is held back. -/
inductive Delay where
  | lasting (d : Duration)
  /-- Until some time after the start of a slot. -/
  | untilSlot (slot : Slot) (offset : Duration)
  deriving DecidableEq

/-- The delay of an action that is called at a slot. -/
def delay? (a : Action) (slot : Slot) (spec : ChainSpec) : Option Delay :=
  let k := spec.slotsPerEpoch
  let epoch := slot.epoch k
  match a with
  | delayWithSecond s => some (.lasting (Duration.ofSeconds s))
  | delayToNextSlot => some (.untilSlot slot.next Duration.zero)
  | delayToAfterNextSlot s => some (.untilSlot slot.next (Duration.ofSeconds s))
  | delayToNextNEpochStart n => some (.untilSlot ((epoch.addSat n).startSlot k) Duration.zero)
  | delayToNextNEpochEnd n => some (.untilSlot ((epoch.addSat n).endSlot k) Duration.zero)
  | delayToNextNEpochHalf n =>
    some (.untilSlot (((epoch.addSat n).startSlot k).addSat (k / 2)) Duration.zero)
  | delayToEpochEnd => some (.untilSlot (epoch.endSlot k) Duration.zero)
  | delayHalfEpoch => some (.lasting (Duration.ofSeconds (Word.mulSat spec.secondsPerSlot (k / 2))))
  | _ => none

end Action

end Saboteur
