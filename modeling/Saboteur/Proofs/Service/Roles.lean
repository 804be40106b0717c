import Mathlib.Data.List.Induction
import Saboteur.Proofs.Roles.Windows
import Saboteur.Proofs.Service.Run

/-!
# Roles over a run

Whether a validator attacks at a slot should be a matter of the strategy in force alone. It is, for
every validator that the strategy declares. A validator without windows has the role of its record,
and that is what the last update of roles wrote there while an earlier strategy declared it. So the
law holds for such a validator exactly when the last role written was not that of an attacker.
-/

namespace Saboteur

open ValidatorStore

namespace Service

variable {β : Type}

/-! ## Updates of roles -/

/-- A round of the role updater is an update at the slot in progress, as far as the roster goes. -/
theorem sameRoster_maintain (spec : ChainSpec) (clock : SlotClock) (retention : Option UInt64)
    (store : ValidatorStore) (cache : DutyCache) :
    SameRoster (maintain spec clock retention store cache).1 (updateRolesNow clock store) := by
  unfold maintain updateRolesNow
  cases clock.slot? with
  | none => exact SameRoster.refl _
  | some slot =>
    cases retention with
    | none => exact SameRoster.refl _
    | some r => exact sameRoster_prune _ _

theorem windows_updateRolesNow (clock : SlotClock) (store : ValidatorStore) :
    (updateRolesNow clock store).windows = store.windows := by
  unfold updateRolesNow
  split <;> rfl

theorem keyed_updateRolesNow {store : ValidatorStore} (h : store.Keyed) (clock : SlotClock) :
    (updateRolesNow clock store).Keyed := by
  unfold updateRolesNow
  split
  · exact keyed_updateRoles h _
  · exact h

/-- The role that an update writes for a validator under the windows of a rule set. It writes
nothing while no slot is in progress, nor where the rule set declares nothing. -/
def roleNow? (rules : RuleSet) (clock : SlotClock) (index : UInt64) : Option Role :=
  if rules.Declares index then
    clock.slot?.map fun now => if rules.Attacks index now then .attacker else .normal
  else none

theorem storedRole_updateRolesNow {store : ValidatorStore} {rules : RuleSet} (h : store.Keyed)
    (hw : store.windows = rules.windows) (clock : SlotClock) (index : UInt64) :
    (updateRolesNow clock store).storedRole index =
      (if store.Knows index then roleNow? rules clock index else none).getD
        (store.storedRole index) := by
  unfold updateRolesNow roleNow?
  cases clock.slot? with
  | none => simp
  | some now =>
    simp only [Option.map_some]
    rw [storedRole_updateRoles h, hw, RuleSet.role?_windows]
    by_cases hk : store.Knows index
    · rw [if_pos hk, if_pos hk]
    · rw [if_neg hk, if_neg hk]
      rfl

/-! ## What a run keeps -/

/-- The windows in force are those of the rules in force, and records lie under their indices. -/
structure Sound (s : Service β) : Prop where
  keyed : s.validators.Keyed
  windows : s.validators.windows = s.rules.windows

theorem sound_start (spec : ChainSpec) (clock : SlotClock) (backend : β) :
    (start spec clock backend ValidatorStore.empty).Sound where
  keyed := by
    intro i r h
    cases h
  windows := rfl

theorem sound_enforce {s : Service β} (h : s.Sound) (time : UInt64) (rules : RuleSet) :
    (s.enforce time rules).Sound where
  keyed := by
    have hk : (s.validators.setWindows rules.windows).Keyed := h.keyed
    exact keyed_updateRolesNow hk s.clock
  windows := windows_updateRolesNow _ _

theorem SameCourse.sound {s t : Service β} (h : SameCourse s t) (ht : t.Sound) : s.Sound where
  keyed := h.roster.keyed ht.keyed
  windows := by rw [h.roster.windows, h.rules, ht.windows]

variable [Backend β]

theorem sound_step (s : Service β) (e : Event) (h : s.Sound) : (s.step e).Sound := by
  cases e with
  | register index pubkey => exact ⟨keyed_register h.keyed _ _ _, h.windows⟩
  | setTime now => exact ⟨h.keyed, h.windows⟩
  | updateRoles retention =>
    have roster := sameRoster_maintain s.spec s.clock retention s.validators DutyCache.empty
    exact ⟨roster.keyed (keyed_updateRolesNow h.keyed _),
      roster.windows.trans ((windows_updateRolesNow _ _).trans h.windows)⟩
  | install time random strategy =>
    obtain ⟨-, hs⟩ | ⟨rules, -, hs⟩ := s.step_install time random strategy
    · rw [hs]
      exact (sameCourse_count _ _).sound h
    · rw [hs]
      exact (sameCourse_count _ _).sound (sound_enforce h _ _)
  | dispatch hook call => exact (sameCourse_dispatch s hook call).sound h

theorem sound_run (spec : ChainSpec) (clock : SlotClock) (backend : β) (es : List Event) :
    ((start spec clock backend ValidatorStore.empty).run es).Sound :=
  run_invariant sound_step (sound_start _ _ _) es

/-! ## Roles that events write -/

/-- Whether an event brings the roles in the records up to date. -/
def updatesRoles : Event → Bool
  | .updateRoles _ => true
  | .install time random strategy => (compiled? time random strategy).isSome
  | _ => false

/-- The role that an event writes into the record of a validator: only into a record that is there,
and only if the strategy in force after the event declares the validator. -/
def written? (s : Service β) (e : Event) (index : UInt64) : Option Role :=
  if updatesRoles e ∧ s.validators.Knows index then
    roleNow? (s.step e).rules (s.step e).clock index
  else none

/-- **An event stores the role that it writes and no other.** -/
theorem storedRole_step {s : Service β} (h : s.Sound) (e : Event) (index : UInt64) :
    (s.step e).validators.storedRole index =
      (s.written? e index).getD (s.validators.storedRole index) := by
  cases e with
  | register i pubkey => exact storedRole_register _ _ _ _
  | setTime now => rfl
  | updateRoles retention =>
    have roster := sameRoster_maintain s.spec s.clock retention s.validators DutyCache.empty
    exact (roster.storedRole index).trans
      ((storedRole_updateRolesNow h.keyed h.windows _ _).trans
        (by simp [written?, updatesRoles, step]))
  | install time random strategy =>
    obtain ⟨hc, hs⟩ | ⟨rules, hc, hs⟩ := s.step_install time random strategy
    · rw [written?, updatesRoles, hc, hs]
      rfl
    · rw [written?, updatesRoles, hc, hs]
      have hk : (s.validators.setWindows rules.windows).Keyed := h.keyed
      have hw : (s.validators.setWindows rules.windows).windows = rules.windows := rfl
      refine (storedRole_updateRolesNow hk hw s.clock index).trans ?_
      simp only [Option.isSome_some, true_and]
      rfl
  | dispatch hook call => exact (sameCourse_dispatch s hook call).roster.storedRole index

/-- The last role that a run writes into the record of a validator. -/
def LastWritten (s : Service β) (es : List Event) (index : UInt64) (role : Role) : Prop :=
  ∃ before e after, es = before ++ e :: after ∧ (s.run before).written? e index = some role ∧
    ∀ between e' rest, after = between ++ e' :: rest →
      (s.run (before ++ e :: between)).written? e' index = none

theorem not_lastWritten_nil (s : Service β) (index : UInt64) (role : Role) :
    ¬ s.LastWritten [] index role := by
  rintro ⟨before, e, after, h, -⟩
  simp at h

/-- **The last role written after one more event is what that event writes, if it writes one.** -/
theorem lastWritten_concat {s : Service β} {es : List Event} {e : Event} {index : UInt64}
    {role : Role} :
    s.LastWritten (es ++ [e]) index role ↔
      (s.run es).written? e index = some role ∨
        (s.run es).written? e index = none ∧ s.LastWritten es index role := by
  constructor
  · rintro ⟨before, x, after, hes, hx, hafter⟩
    obtain rfl | ⟨after', y, rfl⟩ := after.eq_nil_or_concat
    · obtain ⟨rfl, he⟩ := List.append_inj' hes rfl
      cases he
      exact .inl hx
    · have hes' : es ++ [e] = (before ++ x :: after') ++ [y] := by simpa using hes
      obtain ⟨rfl, he⟩ := List.append_inj' hes' rfl
      cases he
      refine .inr ⟨hafter after' e [] (by simp), before, x, after', rfl, hx, ?_⟩
      intro between e' rest hbetween
      exact hafter between e' (rest ++ [e]) (by simp [hbetween])
  · rintro (he | ⟨he, before, x, after, rfl, hx, hafter⟩)
    · refine ⟨es, e, [], rfl, he, ?_⟩
      intro between e' rest h
      simp at h
    · refine ⟨before, x, after ++ [e], by simp, hx, ?_⟩
      intro between e' rest h
      obtain rfl | ⟨rest', y, rfl⟩ := rest.eq_nil_or_concat
      · obtain ⟨rfl, he'⟩ := List.append_inj' h rfl
        cases he'
        exact he
      · have h' : after ++ [e] = (between ++ e' :: rest') ++ [y] := by simpa using h
        obtain ⟨h', -⟩ := List.append_inj' h' rfl
        exact hafter between e' rest' h'

/-- **A record says attacker when that was the last role written into it.** -/
theorem storedRole_run_eq_attacker (spec : ChainSpec) (clock : SlotClock) (backend : β)
    (es : List Event) (index : UInt64) :
    ((start spec clock backend ValidatorStore.empty).run es).validators.storedRole index =
        .attacker ↔
      (start spec clock backend ValidatorStore.empty).LastWritten es index .attacker := by
  induction es using List.reverseRecOn with
  | nil =>
    refine iff_of_false ?_ (not_lastWritten_nil _ _ _)
    intro h
    cases h
  | append_singleton es e ih =>
    rw [run_concat, storedRole_step (sound_run spec clock backend es), lastWritten_concat, ← ih]
    cases ((start spec clock backend ValidatorStore.empty).run es).written? e index with
    | none => simp
    | some role => simp

/-! ## The law of roles -/

/-- **A validator attacks where the strategy in force says so, exactly if that strategy declares it
or no earlier one has left it an attacker.** -/
theorem roleOf_run_eq_attacker_iff_attacks (spec : ChainSpec) (clock : SlotClock) (backend : β)
    (es : List Event) (slot : Slot) (index : UInt64) :
    let s := (start spec clock backend ValidatorStore.empty).run es
    (s.validators.roleOf slot index = .attacker ↔ s.rules.Attacks index slot) ↔
      (s.rules.Declares index ∨
        ¬ (start spec clock backend ValidatorStore.empty).LastWritten es index .attacker) := by
  intro s
  have sound : s.Sound := sound_run spec clock backend es
  rw [ValidatorStore.roleOf, roleWithin_eq, sound.windows, RuleSet.role?_windows,
    ← storedRole_run_eq_attacker]
  by_cases hd : s.rules.Declares index
  · rw [if_pos hd, Option.getD_some]
    by_cases ha : s.rules.Attacks index slot
    · simp [hd, ha]
    · simp [hd, ha]
  · have ha : ¬ s.rules.Attacks index slot := fun h => hd (RuleSet.declares_of_attacks h)
    rw [if_neg hd, Option.getD_none]
    simp only [hd, ha, false_or, iff_false]
    rfl

/-- The key of the validator in the run below. -/
def staleKey : Pubkey := Rehearsal.pubkey 7

/-- A strategy in which validator 7 attacks from slot 100 to slot 200. -/
def staleStrategy : Strategy :=
  { Strategy.empty with uid := some "a", validators := [⟨7, 100, 200⟩] }

/-- A strategy is installed in the middle of its window and then replaced by one without windows. -/
def staleRun : List Event :=
  [.register 7 staleKey, .setTime (Duration.ofSeconds 1800),
    .install 0 (RandomStream.progression 0 0) staleStrategy,
    .install 1 (RandomStream.progression 0 0) { Strategy.empty with uid := some "b" }]

/-- **A window may outlive its strategy.** No strategy in force declares anything at the end of this
run, and still the validator attacks a hundred slots after the window. -/
theorem stale_attacker_after_replacement :
    let s := (start ChainSpec.mainnet (SlotClock.atGenesis ⟨0⟩ .zero (Duration.ofSeconds 12))
      (Rehearsal.empty 32) ValidatorStore.empty).run staleRun
    s.validators.roleOf ⟨300⟩ 7 = .attacker ∧ ¬ s.rules.Attacks 7 ⟨300⟩ ∧
      ¬ s.rules.Declares 7 := by
  decide

end Service

end Saboteur
