import Saboteur.Json.Fields
import Saboteur.Strategy.Error

/-!
# Strategy documents

What an operator installs: rules for slots, windows in which validators attack, and the settings of
the broadcast endpoints. Every part may be left out. A slot may be written as a number or as a text
and is kept as a text.
-/

namespace Saboteur

/-- A rule as it is written. -/
structure SlotEntry where
  slot : String
  level : Int
  /-- Action texts by hook name, in the order of the names. -/
  actions : List (String × String)
  deriving DecidableEq

/-- A window as it is written. -/
structure WindowEntry where
  validatorIndex : UInt64
  startSlot : UInt64
  endSlot : UInt64
  deriving DecidableEq

/-- The settings of a broadcast endpoint. -/
structure BroadcastSettings where
  delayEnable : Bool
  /-- Milliseconds. -/
  broadCastDelay : UInt64
  modifyEnable : Bool
  deriving DecidableEq

/-- A strategy document. -/
structure Strategy where
  uid : Option String
  slots : List SlotEntry
  validators : List WindowEntry
  block : BroadcastSettings
  attest : BroadcastSettings
  deriving DecidableEq

namespace BroadcastSettings

/-- The settings that change nothing. -/
def off : BroadcastSettings := ⟨false, 0, false⟩

end BroadcastSettings

namespace Strategy

/-- The document that says nothing. -/
def empty : Strategy := ⟨none, [], [], BroadcastSettings.off, BroadcastSettings.off⟩

/-- Gives a key a value in a list of entries in ascending order of keys. -/
def insertSorted (k v : String) : List (String × String) → List (String × String)
  | [] => [(k, v)]
  | (k', v') :: rest =>
    if k = k' then (k, v) :: rest
    else if k < k' then (k, v) :: (k', v') :: rest
    else (k', v') :: insertSorted k v rest

end Strategy

/-- Reads a slot, which is a text or an integer. -/
def readSlotText : Json → Except JsonError String
  | .string (.text s) => .ok s
  | j => (Json.readSigned j).map toString

instance : ReadJson SlotEntry where
  read j := do
    let f ← Json.fields ["slot", "level", "actions"] j
    let slot ← f.required "slot" readSlotText
    let level ← f.defaulted "level" 0 Json.readSigned
    let actions ← f.defaulted "actions" [] (Json.readTable Json.readText Strategy.insertSorted)
    return { slot, level, actions }

instance : WriteJson SlotEntry where
  write s := .obj [
    ("slot", .text s.slot),
    ("level", .int s.level),
    ("actions", .obj (s.actions.map fun a => (a.1, .text a.2)))]

instance : ReadJson WindowEntry where
  read j := do
    let f ← Json.fields ["validator_index", "attacker_start_slot", "attacker_end_slot"] j
    let validatorIndex ← f.required "validator_index" Json.readWord
    let startSlot ← f.required "attacker_start_slot" Json.readWord
    let endSlot ← f.required "attacker_end_slot" Json.readWord
    return { validatorIndex, startSlot, endSlot }

instance : WriteJson WindowEntry where
  write w := .obj [
    ("validator_index", .word w.validatorIndex),
    ("attacker_start_slot", .word w.startSlot),
    ("attacker_end_slot", .word w.endSlot)]

instance : ReadJson BroadcastSettings where
  read j := do
    let f ← Json.fields ["delay_enable", "broad_cast_delay", "modify_enable"] j
    let delayEnable ← f.defaulted "delay_enable" false Json.readBool
    let broadCastDelay ← f.defaulted "broad_cast_delay" 0 Json.readWord
    let modifyEnable ← f.defaulted "modify_enable" false Json.readBool
    return { delayEnable, broadCastDelay, modifyEnable }

instance : WriteJson BroadcastSettings where
  write b := .obj [
    ("delay_enable", .bool b.delayEnable),
    ("broad_cast_delay", .word b.broadCastDelay),
    ("modify_enable", .bool b.modifyEnable)]

instance : ReadJson Strategy where
  read j := do
    let f ← Json.fields ["uid", "slots", "validator", "block", "attest"] j
    let uid ← f.defaulted "uid" none (Json.readOption Json.readText)
    let slots ← f.defaulted "slots" [] (Json.readArray read)
    let validators ← f.defaulted "validator" [] (Json.readArray read)
    let block ← f.defaulted "block" BroadcastSettings.off read
    let attest ← f.defaulted "attest" BroadcastSettings.off read
    return { uid, slots, validators, block, attest }

instance : WriteJson Strategy where
  write s := .obj ((match s.uid with
      | some uid => [("uid", .text uid)]
      | none => []) ++ [
    ("slots", .array (s.slots.map write)),
    ("validator", .array (s.validators.map write)),
    ("block", write s.block),
    ("attest", write s.attest)])

namespace Strategy

/-- Reads a document from its text. -/
def ofText (s : String) : Except StrategyError Strategy :=
  (Json.parse Strategy s).mapError fun _ => .invalidJson

end Strategy

end Saboteur
