import Mathlib.Logic.Function.Basic
import Mathlib.Logic.Relation
import Saboteur.Proofs.Feedback.Run
import Saboteur.Proofs.Service.Roles

/-!
# Calls that overlap

Installations and hook calls come from many threads. An installation compiles its strategy, takes a
lock, and puts the rule set in force piece by piece: windows, roles, rules, tracker. A hook call
takes no lock: it reads the rules in force and builds its context from what it has read. Between any
two of these steps every other call may go on.

A call that nobody interrupts does what the service does in one go.

What else happens to a service, to its clock, its backend, its records and its counters, may happen
between any two steps and is left open. That roles are written in one step is no restriction, since
records may change at any time.
-/

namespace Saboteur

/-! ## The pieces of an installation -/

namespace Service

variable {β : Type}

/-- Puts the windows of a rule set in force. -/
def placeWindows (s : Service β) (rules : RuleSet) : Service β :=
  { s with validators := s.validators.setWindows rules.windows }

/-- Brings the records up to the slot in progress. -/
def refreshRoles (s : Service β) : Service β :=
  { s with validators := updateRolesNow s.clock s.validators }

/-- Puts the rules of a rule set in force. -/
def swapRules (s : Service β) (rules : RuleSet) : Service β := { s with rules }

/-- Hands a rule set to the tracker. -/
def track (s : Service β) (time : UInt64) (rules : RuleSet) : Service β :=
  { s with feedback := s.feedback.add time.toNat rules }

/-- The context of a call that has read its rules before. -/
def contextOf (s : Service β) (rules : RuleSet) : Context :=
  { spec := s.spec, clock := s.clock, windows := rules.windows }

theorem enforce_eq (s : Service β) (time : UInt64) (rules : RuleSet) :
    s.enforce time rules =
      (((s.placeWindows rules).refreshRoles).swapRules rules).track time rules := rfl

theorem contextOf_rules (s : Service β) : s.contextOf s.rules = s.context := rfl

theorem windows_refreshRoles (s : Service β) :
    s.refreshRoles.validators.windows = s.validators.windows :=
  windows_updateRolesNow _ _

/-- The same rules, windows and tracker. -/
structure Undisturbed (s t : Service β) : Prop where
  rules : s.rules = t.rules
  windows : s.validators.windows = t.validators.windows
  feedback : s.feedback = t.feedback

theorem feedback_dispatch [Backend β] (s : Service β) (h : Hook) (call : HookRequest) :
    (s.dispatch h call).2.feedback = s.feedback := by
  rw [snd_dispatch_eq s h call]

/-- **Of all that happens to a service only an installation concerns rules, windows and tracker.** -/
theorem undisturbed_step [Backend β] (s : Service β) {e : Event}
    (he : ∀ time random strategy, e ≠ .install time random strategy) :
    Undisturbed (s.step e) s := by
  cases e with
  | register index pubkey => exact ⟨rfl, rfl, rfl⟩
  | setTime now => exact ⟨rfl, rfl, rfl⟩
  | updateRoles retention =>
    exact ⟨rfl, (sameRoster_maintain _ _ _ _ _).windows.trans (windows_updateRolesNow _ _), rfl⟩
  | install time random strategy => exact absurd rfl (he time random strategy)
  | dispatch hook call =>
    have same := sameCourse_dispatch s hook call
    exact ⟨same.rules, same.roster.windows, feedback_dispatch s hook call⟩

end Service

namespace Concurrent

/-! ## States and steps -/

/-- How far an accepted installation has come. -/
inductive Stage where
  /-- It waits for the lock. -/
  | waiting
  | locked
  /-- Its windows are in force. -/
  | placed
  /-- The roles that its windows give are in the records. -/
  | refreshed
  /-- Its rules are in force. -/
  | swapped
  /-- The tracker has it. -/
  | tracked
  /-- The lock is given back. -/
  | released
  /-- It is counted and has returned. -/
  | returned
  deriving DecidableEq

namespace Stage

/-- Whether an installation has the lock. -/
def Inside : Stage → Prop
  | locked | placed | refreshed | swapped | tracked => True
  | waiting | released | returned => False

/-- Whether an installation has come to the tracker. -/
def HandedOver : Stage → Prop
  | tracked | released | returned => True
  | waiting | locked | placed | refreshed | swapped => False

/-- The stage that follows. -/
def next : Stage → Stage
  | waiting => locked
  | locked => placed
  | placed => refreshed
  | refreshed => swapped
  | swapped => tracked
  | tracked => released
  | released | returned => returned

/-- How many steps there are to the end. -/
def left : Stage → Nat
  | waiting => 7
  | locked => 6
  | placed => 5
  | refreshed => 4
  | swapped => 3
  | tracked => 2
  | released => 1
  | returned => 0

end Stage

/-- A rule set that is to be installed, with the time of the call. -/
structure Compiled where
  time : UInt64
  rules : RuleSet

/-- A call that installs a strategy. -/
inductive Installer where
  | idle
  /-- The strategy has a fault. -/
  | rejected
  | accepted (call : Compiled) (stage : Stage)

namespace Installer

/-- Whether a call has the lock. -/
def Inside : Installer → Prop
  | accepted _ stage => stage.Inside
  | idle | rejected => False

/-- Whether a call has handed a rule set to the tracker. -/
def HandedOver (rules : RuleSet) : Installer → Prop
  | accepted call stage => stage.HandedOver ∧ call.rules = rules
  | idle | rejected => False

end Installer

/-- A hook call. -/
inductive Caller where
  | idle
  /-- It has read the rules in force. -/
  | read (rules : RuleSet)
  /-- It has built the context in which it selects from its rules. -/
  | ready (rules : RuleSet) (ctx : Context)

/-- A service with the calls that are under way. Each call has a number of its own. -/
structure State (β : Type) where
  service : Service β
  /-- Who has the lock. -/
  lock : Option Nat
  installers : Nat → Installer
  callers : Nat → Caller
  /-- The calls that came to the tracker, in their order, with what they handed over. -/
  handed : List (Nat × RuleSet)

variable {β : Type}

namespace State

/-- A service without calls. -/
def initial (service : Service β) : State β :=
  { service, lock := none, installers := fun _ => .idle, callers := fun _ => .idle, handed := [] }

/-- The state in which an installing call has come so far. -/
def put (s : State β) (i : Nat) (x : Installer) : State β :=
  { s with installers := Function.update s.installers i x }

theorem put_self (s : State β) (i : Nat) (x : Installer) : (s.put i x).installers i = x := by
  simp [put]

/-- The rule set that was handed over last, or the one that is in force before. -/
def newest (s : State β) : RuleSet := (s.handed.getLast?.map Prod.snd).getD RuleSet.empty

end State

/-- A step of one call, or of something else. -/
inductive Step : State β → State β → Prop
  | reject {s : State β} {i : Nat} {time : UInt64} {random : RandomStream} {strategy : Strategy}
    (at_stage : s.installers i = .idle)
    (faulty : Service.compiled? time random strategy = none) :
    Step s { s.put i .rejected with service := s.service.count .strategyRejected }
  | accept {s : State β} {i : Nat} {time : UInt64} {random : RandomStream} {strategy : Strategy}
    {rules : RuleSet} (at_stage : s.installers i = .idle)
    (compiles : Service.compiled? time random strategy = some rules) :
    Step s (s.put i (.accepted ⟨time, rules⟩ .waiting))
  | acquire {s : State β} {i : Nat} {call : Compiled}
    (at_stage : s.installers i = .accepted call .waiting) (free : s.lock = none) :
    Step s { s.put i (.accepted call .locked) with lock := some i }
  | place {s : State β} {i : Nat} {call : Compiled}
    (at_stage : s.installers i = .accepted call .locked) :
    Step s { s.put i (.accepted call .placed) with
      service := s.service.placeWindows call.rules }
  | refresh {s : State β} {i : Nat} {call : Compiled}
    (at_stage : s.installers i = .accepted call .placed) :
    Step s { s.put i (.accepted call .refreshed) with service := s.service.refreshRoles }
  | swap {s : State β} {i : Nat} {call : Compiled}
    (at_stage : s.installers i = .accepted call .refreshed) :
    Step s { s.put i (.accepted call .swapped) with service := s.service.swapRules call.rules }
  | track {s : State β} {i : Nat} {call : Compiled}
    (at_stage : s.installers i = .accepted call .swapped) :
    Step s { s.put i (.accepted call .tracked) with
      service := s.service.track call.time call.rules
      handed := s.handed ++ [(i, call.rules)] }
  | release {s : State β} {i : Nat} {call : Compiled}
    (at_stage : s.installers i = .accepted call .tracked) :
    Step s { s.put i (.accepted call .released) with lock := none }
  | finish {s : State β} {i : Nat} {call : Compiled}
    (at_stage : s.installers i = .accepted call .released) :
    Step s { s.put i (.accepted call .returned) with
      service := s.service.count .strategyInstalled }
  | read {s : State β} {j : Nat} (at_stage : s.callers j = .idle) :
    Step s { s with callers := Function.update s.callers j (.read s.service.rules) }
  | build {s : State β} {j : Nat} {rules : RuleSet} (at_stage : s.callers j = .read rules) :
    Step s { s with
      callers := Function.update s.callers j (.ready rules (s.service.contextOf rules)) }
  /-- The tracker is looked at, pruned or read. -/
  | tracker {s : State β} {op : Feedback.Op} (adds_nothing : Feedback.added [op] = []) :
    Step s { s with service := { s.service with feedback := s.service.feedback.step op } }
  /-- Whatever else happens. -/
  | elsewhere {s : State β} {service : Service β}
    (undisturbed : Service.Undisturbed service s.service) : Step s { s with service }

/-- Any number of steps. -/
abbrev Steps : State β → State β → Prop := Relation.ReflTransGen Step

/-- The states that a service comes to from a start without windows. -/
def Reachable (s : State β) : Prop :=
  ∃ spec clock backend validators, validators.windows = Table.empty ∧
    Steps (.initial (Service.start spec clock backend validators)) s

theorem Reachable.steps {s t : State β} (h : Reachable s) (hst : Steps s t) : Reachable t := by
  obtain ⟨spec, clock, backend, validators, hwindows, hs⟩ := h
  exact ⟨spec, clock, backend, validators, hwindows, hs.trans hst⟩

/-! ## Calls that are not interrupted -/

/-- A call can come to a stage with the service as given. -/
def Brings (s : State β) (i : Nat) (x : Installer) (service : Service β) : Prop :=
  ∃ t, Steps s t ∧ t.installers i = x ∧ t.service = service

theorem Brings.tail {s : State β} {i : Nat} {x y : Installer} {service service' : Service β}
    (h : Brings s i x service)
    (hstep : ∀ t, t.installers i = x → t.service = service →
      ∃ u, Step t u ∧ u.installers i = y ∧ u.service = service') : Brings s i y service' := by
  obtain ⟨t, hst, hx, hservice⟩ := h
  obtain ⟨u, htu, hu⟩ := hstep t hx hservice
  exact ⟨u, hst.tail htu, hu⟩

/-- **Without interruption the steps of an installation are an installation.** -/
theorem brings_install {s : State β} {i : Nat} (hidle : s.installers i = .idle)
    (hfree : s.lock = none) (time : UInt64) (random : RandomStream) (strategy : Strategy) :
    ∃ x, Brings s i x (s.service.install time random strategy).2 := by
  unfold Service.install
  cases hcompile : RuleSet.compile strategy (Service.uidFor strategy time) random with
  | error fault =>
    have hfaulty : Service.compiled? time random strategy = none := by
      rw [Service.compiled?, hcompile]
    exact ⟨_, _, .single (.reject hidle hfaulty), State.put_self _ _ _, rfl⟩
  | ok result =>
    have hrules : Service.compiled? time random strategy = some result.1 := by
      rw [Service.compiled?, hcompile]
    change ∃ x, Brings s i x ((s.service.enforce time result.1).count .strategyInstalled)
    rw [Service.enforce_eq]
    have locked : Brings s i (.accepted ⟨time, result.1⟩ .locked) s.service :=
      ⟨_, .tail (.single (.accept hidle hrules)) (.acquire (State.put_self _ _ _) hfree),
        State.put_self _ _ _, rfl⟩
    have placed := locked.tail fun t hat hs =>
      ⟨_, .place hat, State.put_self _ _ _, congrArg (Service.placeWindows · result.1) hs⟩
    have refreshed := placed.tail fun t hat hs =>
      ⟨_, .refresh hat, State.put_self _ _ _, congrArg Service.refreshRoles hs⟩
    have swapped := refreshed.tail fun t hat hs =>
      ⟨_, .swap hat, State.put_self _ _ _, congrArg (Service.swapRules · result.1) hs⟩
    have tracked := swapped.tail fun t hat hs =>
      ⟨_, .track hat, State.put_self _ _ _, congrArg (Service.track · time result.1) hs⟩
    have released := tracked.tail fun t hat hs => ⟨_, .release hat, State.put_self _ _ _, hs⟩
    exact ⟨_, released.tail fun t hat hs =>
      ⟨_, .finish hat, State.put_self _ _ _, congrArg (Service.count · .strategyInstalled) hs⟩⟩

/-- **Without interruption a hook call has the context of a call that begins now.** -/
theorem exists_steps_context {s : State β} {j : Nat} (hidle : s.callers j = .idle) :
    ∃ t, Steps s t ∧ t.service = s.service ∧
      t.callers j = .ready s.service.rules s.service.context := by
  have hread : Step s { s with
      callers := Function.update s.callers j (.read s.service.rules) } := .read hidle
  refine ⟨_, .tail (.single hread) (.build (Function.update_self _ _ _)), rfl, ?_⟩
  rw [← Service.contextOf_rules]
  exact Function.update_self _ _ _

end Concurrent

end Saboteur
