import Saboteur.Word

/-!
# Strategy errors

What can be wrong with a strategy document, and how it is said.
-/

namespace Saboteur

/-- Why a strategy is rejected. -/
inductive StrategyError where
  | invalidJson
  | unknownSlotFunction (text : String)
  /-- A slot number below zero. -/
  | invalidSlot (text : String)
  | unknownAction (name : String)
  | unknownHook (name : String)
  | missingParameter (action : String)
  | invalidParameter (action : String) (value : Int)
  /-- A window that ends before it starts. -/
  | invalidWindow (index start stop : UInt64)
  deriving DecidableEq

namespace StrategyError

/-- The kind of an error. -/
def kind : StrategyError → String
  | invalidJson => "InvalidJson"
  | unknownSlotFunction _ => "UnknownSlotFunction"
  | invalidSlot _ => "InvalidSlot"
  | unknownAction _ => "UnknownAction"
  | unknownHook _ => "UnknownHook"
  | missingParameter _ => "MissingParameter"
  | invalidParameter .. => "InvalidParameter"
  | invalidWindow .. => "InvalidWindow"

/-- The wording of an error. -/
def message : StrategyError → String
  | invalidJson => "invalid strategy json: "
  | unknownSlotFunction s => "unknown slot function: " ++ s
  | invalidSlot s => "invalid slot: " ++ s
  | unknownAction s => "unknown action: " ++ s
  | unknownHook s => "unknown hook: " ++ s
  | missingParameter a => "action " ++ a ++ " requires a parameter"
  | invalidParameter a v => "invalid parameter " ++ toString v ++ " for action " ++ a
  | invalidWindow i a b =>
    "attacker window [" ++ Word.decimal a ++ ", " ++ Word.decimal b ++ "] of validator " ++
      Word.decimal i ++ " is empty"

end StrategyError

end Saboteur
