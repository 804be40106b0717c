import Saboteur.Action
import Saboteur.Hook
import Saboteur.Role
import Saboteur.Strategy.Document
import Saboteur.Strategy.SlotMatcher

/-!
# Rule sets

A document is compiled once, when it is installed. Compiling reads every text of the document and
draws the random delays, so a rule set that exists has no fault left in it and always does the same.

The first fault of a document is reported: windows come before rules, rules come in their order, and
within a rule the slot comes before the hooks, each hook before its action.
-/

namespace Saboteur

/-- A rule: what to do at which hooks of a slot. -/
structure Rule where
  slot : SlotMatcher
  level : Int
  actions : List (Hook × Action)
  deriving DecidableEq

/-- A compiled strategy. -/
structure RuleSet where
  uid : String
  strategy : Strategy
  rules : List Rule
  deriving DecidableEq

namespace WindowEntry

/-- The window of a declaration. -/
def window (w : WindowEntry) : Window := ⟨⟨w.startSlot⟩, ⟨w.endSlot⟩⟩

/-- Whether a window has no slot. -/
def isEmpty (w : WindowEntry) : Bool := w.endSlot < w.startSlot

end WindowEntry

namespace Strategy

/-- The declared windows, in their order. -/
def declarations (s : Strategy) : List (UInt64 × Window) :=
  s.validators.map fun w => (w.validatorIndex, w.window)

/-- Reports the first window that has no slot. -/
def checkWindows : List WindowEntry → Except StrategyError Unit
  | [] => .ok ()
  | w :: rest =>
    if w.isEmpty then .error (.invalidWindow w.validatorIndex w.startSlot w.endSlot)
    else checkWindows rest

end Strategy

namespace Rule

/-- Reads the actions of a rule in the order of the names of their hooks. -/
def compileActions (r : RandomStream) :
    List (String × String) → Except StrategyError (List (Hook × Action) × RandomStream)
  | [] => .ok ([], r)
  | (hook, action) :: rest =>
    match Hook.ofName? hook with
    | none => .error (.unknownHook hook)
    | some h =>
      match Action.parse action r with
      | .error e => .error e
      | .ok (a, r) =>
        match compileActions r rest with
        | .error e => .error e
        | .ok (others, r) => .ok ((h, a) :: others, r)

/-- Reads a rule. -/
def compile (e : SlotEntry) (r : RandomStream) : Except StrategyError (Rule × RandomStream) :=
  match SlotMatcher.parse e.slot with
  | .error fault => .error fault
  | .ok slot =>
    match compileActions r e.actions with
    | .error fault => .error fault
    | .ok (actions, r) => .ok (⟨slot, e.level, actions⟩, r)

/-- Reads rules in their order. -/
def compileAll (r : RandomStream) :
    List SlotEntry → Except StrategyError (List Rule × RandomStream)
  | [] => .ok ([], r)
  | e :: rest =>
    match compile e r with
    | .error fault => .error fault
    | .ok (rule, r) =>
      match compileAll r rest with
      | .error fault => .error fault
      | .ok (rules, r) => .ok (rule :: rules, r)

/-- The action of a rule for a hook. -/
def action? (rule : Rule) (h : Hook) : Option Action := rule.actions.lookup h

end Rule

namespace RuleSet

/-- The rule set that does nothing. It is in force before a strategy is installed. -/
def empty : RuleSet := ⟨"", Strategy.empty, []⟩

/-- Compiles a document under a name. -/
def compile (s : Strategy) (uid : String) (r : RandomStream) :
    Except StrategyError (RuleSet × RandomStream) :=
  match Strategy.checkWindows s.validators with
  | .error fault => .error fault
  | .ok () =>
    match Rule.compileAll r s.slots with
    | .error fault => .error fault
    | .ok (rules, r) => .ok (⟨uid, s, rules⟩, r)

/-- The windows of a rule set by validator. -/
def windows (r : RuleSet) : Windows := Windows.ofDeclarations r.strategy.declarations

/-- The document of a rule set, which carries the name of the rule set if it has one. -/
def document (r : RuleSet) : Strategy :=
  if r.uid = "" then r.strategy else { r.strategy with uid := some r.uid }

end RuleSet

end Saboteur
