import Saboteur.Duties
import Saboteur.Proofs.Roles.Store
import Saboteur.Service.Dispatch

/-!
# Runs of a service

Everything that happens to a service comes as events, one after the other: validators appear in
duties, time goes on, roles are brought up to date, strategies are installed or rejected, and hooks
are called. A run is a list of events from a service that has just started.

For each kind of event a lemma says what it does to the rules in force, to the clock and to the
roster of validators. A hook call does nothing to them.
-/

namespace Saboteur

/-- Something that happens to a service. -/
inductive Event where
  /-- A validator appears in duties. -/
  | register (index : UInt64) (pubkey : Pubkey)
  /-- The clock is read again. -/
  | setTime (now : Duration)
  /-- A round of the role updater. -/
  | updateRoles (retention : Option UInt64)
  | install (time : UInt64) (random : RandomStream) (strategy : Strategy)
  | dispatch (h : Hook) (call : HookRequest)

open ValidatorStore

/-! ## Actions -/

namespace Action

theorem sameRoster_keep (a : Action) (slot : Slot) (pubkey : Pubkey) (payload : Option Payload)
    (store : ValidatorStore) : SameRoster (a.keep slot pubkey payload store) store := by
  unfold keep
  split <;> exact ⟨rfl, rfl, rfl⟩

/-- **No action touches the roster.** -/
theorem sameRoster_execute {β : Type} [Backend β] (ctx : Context) (a : Action) (slot : Slot)
    (pubkey : Pubkey) (payload : Option Payload) (store : ValidatorStore) (b : β) :
    SameRoster ((a.execute ctx slot pubkey payload store).run b).1.2 store := by
  unfold execute
  split
  · exact SameRoster.refl _
  · split
    · split
      · -- the pool is emptied
        exact ⟨rfl, rfl, rfl⟩
      · exact SameRoster.refl _
    · exact SameRoster.refl _
  · split
    · split <;> exact SameRoster.refl _
    · exact SameRoster.refl _
  · rename_i target
    rw [StateT.run_bind]
    obtain ⟨answer, _⟩ := (blockRoot target : StateM β _).run b
    cases answer <;> exact SameRoster.refl _
  · exact sameRoster_keep _ _ _ _ _

end Action

namespace Service

variable {β : Type}

/-! ## Hook calls -/

/-- The same rules in force, at the same time, for the same roster. -/
structure SameCourse (s t : Service β) : Prop where
  rules : s.rules = t.rules
  clock : s.clock = t.clock
  roster : SameRoster s.validators t.validators

theorem SameCourse.trans {s t u : Service β} (h : SameCourse s t) (h' : SameCourse t u) :
    SameCourse s u :=
  ⟨h.rules.trans h'.rules, h.clock.trans h'.clock, h.roster.trans h'.roster⟩

theorem sameCourse_count (s : Service β) (o : Occurrence) : SameCourse (s.count o) s :=
  ⟨rfl, rfl, SameRoster.refl _⟩

section Dispatch

variable [Backend β]

theorem sameCourse_actionFor (s : Service β) (h : Hook) (slot : Slot) :
    SameCourse (s.actionFor h slot).2 s := ⟨rfl, rfl, SameRoster.refl _⟩

theorem sameCourse_perform (s : Service β) (a : Action) (h : Hook) (slot : Slot) (pubkey : Pubkey)
    (given : String) : SameCourse (s.perform a h slot pubkey given).2 s := by
  unfold perform
  split
  · exact sameCourse_count s _
  · exact ⟨rfl, rfl, Action.sameRoster_execute _ _ _ _ _ _ _⟩

/-- A hook call changes at most the store, what the backend has been asked, and the counters. -/
theorem snd_dispatch_eq (s : Service β) (h : Hook) (call : HookRequest) :
    let after := (s.dispatch h call).2
    after = { s with
      validators := after.validators, backend := after.backend, tally := after.tally } := by
  unfold dispatch
  simp only
  split
  · rename_i heq
    rw [← congrArg Prod.snd heq]
    rfl
  · rename_i selected heq
    obtain rfl : _ = selected := congrArg Prod.snd heq
    rw [perform]
    split <;> rfl

/-- **A hook call changes neither the rules in force nor the roster.** -/
theorem sameCourse_dispatch (s : Service β) (h : Hook) (call : HookRequest) :
    SameCourse (s.dispatch h call).2 s := by
  have counted : SameCourse ((s.count (.hookCall h)).count (.hookDispatch h)) s :=
    (sameCourse_count _ _).trans (sameCourse_count _ _)
  have selected := (sameCourse_actionFor _ h call.slot).trans counted
  unfold dispatch
  simp only
  split
  · rename_i heq
    rw [heq] at selected
    exact selected
  · rename_i heq
    rw [heq] at selected
    exact (sameCourse_perform _ _ _ _ _ _).trans selected

end Dispatch

/-! ## Events -/

variable [Backend β]

/-- The service after an event. -/
def step (s : Service β) : Event → Service β
  | .register index pubkey => { s with validators := s.validators.register index pubkey none }
  | .setTime now => { s with clock := s.clock.setTime now }
  | .updateRoles retention =>
    { s with
      validators := (maintain s.spec s.clock retention s.validators DutyCache.empty).1 }
  | .install time random strategy => (s.install time random strategy).2
  | .dispatch h call => (s.dispatch h call).2

/-- The service after some events. -/
def run (s : Service β) (es : List Event) : Service β := es.foldl step s

theorem run_concat (s : Service β) (es : List Event) (e : Event) :
    s.run (es ++ [e]) = (s.run es).step e := by
  simp [run]

/-- **What every event preserves holds after every run.** -/
theorem run_invariant {inv : Service β → Prop} (hstep : ∀ s e, inv s → inv (s.step e))
    {s : Service β} (h : inv s) (es : List Event) : inv (s.run es) := by
  induction es generalizing s with
  | nil => exact h
  | cons e rest ih => exact ih (hstep s e h)

/-- The rule set that a strategy compiles to at a time. -/
def compiled? (time : UInt64) (random : RandomStream) (strategy : Strategy) : Option RuleSet :=
  match RuleSet.compile strategy (uidFor strategy time) random with
  | .ok (rules, _) => some rules
  | .error _ => none

/-- **An installation either is rejected and leaves everything as it is, or puts the compiled rule
set in force.** -/
theorem step_install (s : Service β) (time : UInt64) (random : RandomStream)
    (strategy : Strategy) :
    (compiled? time random strategy = none ∧
        s.step (.install time random strategy) = s.count .strategyRejected) ∨
      ∃ rules, compiled? time random strategy = some rules ∧
        s.step (.install time random strategy) =
          (s.enforce time rules).count .strategyInstalled := by
  simp only [step, install, compiled?]
  cases RuleSet.compile strategy (uidFor strategy time) random with
  | error fault => exact .inl ⟨rfl, rfl⟩
  | ok result => exact .inr ⟨result.1, rfl, rfl⟩

end Service

end Saboteur
