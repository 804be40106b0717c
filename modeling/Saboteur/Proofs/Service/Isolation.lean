import Saboteur.Proofs.Roles.Declared
import Saboteur.Proofs.Service.Roles

/-!
# Calls in flight

A hook call keeps the windows of the rule set that it began with, and a strategy that is installed
meanwhile should make no difference to it. For the validators that its own rule set declares there
is none. The role of any other validator is read from its record, and a record is shared: a later
strategy that declares the validator writes into it. So the call is left alone exactly as long as
the last role written is the one that the record had when the call began.
-/

namespace Saboteur

open ValidatorStore

namespace Service

variable {β : Type} [Backend β]

/-! ## Reachable states -/

/-- The states of a service, however it came to them. Besides the events of a run, validators may be
registered with a role or given one, and whatever has nothing to do with rules, time and validators
may change. -/
inductive Reachable : Service β → Prop
  | start (spec : ChainSpec) (clock : SlotClock) (backend : β) :
    Reachable (start spec clock backend ValidatorStore.empty)
  | event {s : Service β} (e : Event) : Reachable s → Reachable (s.step e)
  | register {s : Service β} (index : UInt64) (pubkey : Pubkey) (role : Option Role) :
    Reachable s → Reachable { s with validators := s.validators.register index pubkey role }
  | setRole {s : Service β} (index : UInt64) (role : Role) :
    Reachable s → Reachable { s with validators := s.validators.setRole index role }
  | elsewhere {s t : Service β} : SameCourse t s → Reachable s → Reachable t

theorem Reachable.sound {s : Service β} (h : Reachable s) : s.Sound := by
  induction h with
  | start spec clock backend => exact sound_start spec clock backend
  | event e _ ih => exact sound_step _ e ih
  | register index pubkey role _ ih => exact ⟨keyed_register ih.keyed _ _ _, ih.windows⟩
  | setRole index role _ ih =>
    exact ⟨keyed_setRole ih.keyed _ _, (windows_setRole _ _ _).trans ih.windows⟩
  | elsewhere same _ ih => exact same.sound ih

theorem Reachable.run {s : Service β} (h : Reachable s) (es : List Event) : Reachable (s.run es) :=
  run_invariant (fun _ e h => h.event e) h es

/-! ## What a run leaves in a record -/

/-- **After a run a record says what was last written into it, or what it said before.** -/
theorem storedRole_run {s : Service β} (h : s.Sound) (es : List Event) (index : UInt64) :
    (∃ role, s.LastWritten es index role ∧
        (s.run es).validators.storedRole index = role) ∨
      (∀ role, ¬ s.LastWritten es index role) ∧
        (s.run es).validators.storedRole index = s.validators.storedRole index := by
  induction es using List.reverseRecOn with
  | nil => exact .inr ⟨not_lastWritten_nil s index, rfl⟩
  | append_singleton es e ih =>
    simp only [run_concat, storedRole_step (run_invariant sound_step h es), lastWritten_concat]
    cases (s.run es).written? e index with
    | some role => exact .inl ⟨role, .inl rfl, rfl⟩
    | none => simpa using ih

/-- There is at most one role that was written last. -/
theorem LastWritten.unique {s : Service β} {es : List Event} {index : UInt64} {role role' : Role}
    (h : s.LastWritten es index role) (h' : s.LastWritten es index role') : role = role' := by
  induction es using List.reverseRecOn with
  | nil => exact absurd h (not_lastWritten_nil s index role)
  | append_singleton es e ih =>
    rw [lastWritten_concat] at h h'
    rcases h with h | ⟨hnone, h⟩
    · rcases h' with h' | ⟨hnone', -⟩
      · exact Option.some.inj (h.symm.trans h')
      · rw [hnone'] at h
        cases h
    · rcases h' with h' | ⟨-, h'⟩
      · rw [hnone] at h'
        cases h'
      · exact ih h h'

/-- A run leaves the role of a validator to a call that began before it: the rule set of the call
declares the validator, or nothing was written into the record, or the last thing written is what it
said before. -/
def Spares (s : Service β) (es : List Event) (index : UInt64) : Prop :=
  s.rules.Declares index ∨
    ∀ role, s.LastWritten es index role → role = s.validators.storedRole index

/-- A stored role is the same after a run exactly if what was written last, if anything, is the
same. -/
theorem storedRole_run_eq_iff {s : Service β} (h : s.Sound) (es : List Event) (index : UInt64) :
    (s.run es).validators.storedRole index = s.validators.storedRole index ↔
      ∀ role, s.LastWritten es index role → role = s.validators.storedRole index := by
  rcases storedRole_run h es index with ⟨role, hlast, hrole⟩ | ⟨hnone, hrole⟩
  · rw [hrole]
    exact ⟨fun heq role' hlast' => (hlast'.unique hlast).trans heq, fun hall => hall role hlast⟩
  · exact ⟨fun _ role hlast => absurd hlast (hnone role), fun _ => hrole⟩

/-! ## Keys -/

theorem indices_updateRolesNow (clock : SlotClock) (store : ValidatorStore) :
    (updateRolesNow clock store).indices = store.indices := by
  unfold updateRolesNow
  split <;> rfl

/-- Only a registration changes whom a key belongs to. -/
theorem indices_step {s : Service β} {e : Event} (he : ∀ index pubkey, e ≠ .register index pubkey) :
    (s.step e).validators.indices = s.validators.indices := by
  cases e with
  | register index pubkey => exact absurd rfl (he index pubkey)
  | setTime now => rfl
  | updateRoles retention =>
    exact (sameRoster_maintain _ _ _ _ _).indices.trans (indices_updateRolesNow _ _)
  | install time random strategy =>
    obtain ⟨-, hs⟩ | ⟨rules, -, hs⟩ := s.step_install time random strategy
    · rw [hs]
      rfl
    · rw [hs]
      exact indices_updateRolesNow _ _
  | dispatch hook call => exact (sameCourse_dispatch s hook call).roster.indices

/-- Without registrations every key belongs to whom it did. -/
theorem indices_run {s : Service β} {es : List Event}
    (hes : ∀ index pubkey, Event.register index pubkey ∉ es) :
    (s.run es).validators.indices = s.validators.indices := by
  induction es using List.reverseRecOn with
  | nil => rfl
  | append_singleton es e ih =>
    rw [run_concat, indices_step, ih]
    · intro index pubkey h
      exact hes index pubkey (List.mem_append_left _ h)
    · rintro index pubkey rfl
      exact hes index pubkey (List.mem_append_right _ List.mem_cons_self)

/-! ## The roles of a call in flight -/

omit [Backend β] in
/-- In a context the windows decide about whom they are declared for, and the record about everyone
else. -/
theorem roleOf_context (s : Service β) (store : ValidatorStore) (slot : Slot) (index : UInt64) :
    s.context.roleOf store slot index =
      if s.rules.Declares index then
        if s.rules.Attacks index slot then .attacker else .normal
      else store.storedRole index :=
  Context.roleOf_eq rfl store slot index

/-- An open call sees the same role after a run exactly if the run spares the validator. -/
theorem roleOf_context_run_eq_iff {s : Service β} (h : s.Sound) (es : List Event) (slot : Slot)
    (index : UInt64) :
    s.context.roleOf (s.run es).validators slot index =
        s.context.roleOf s.validators slot index ↔ s.Spares es index := by
  rw [roleOf_context, roleOf_context, Spares]
  by_cases hd : s.rules.Declares index
  · rw [if_pos hd]
    simp [hd]
  · rw [if_neg hd, if_neg hd, storedRole_run_eq_iff h]
    simp [hd]

/-- **Whatever is installed after a call has begun, the call sees the same role of a validator
exactly if the validator is spared, and the same role of a key exactly if its validator is.** -/
theorem context_run_eq_iff_spares {s : Service β} (hs : Reachable s) {es : List Event}
    (hes : ∀ index pubkey, Event.register index pubkey ∉ es) :
    (∀ slot index,
      s.context.roleOf (s.run es).validators slot index =
        s.context.roleOf s.validators slot index ↔ s.Spares es index) ∧
    ∀ slot pubkey,
      s.context.roleOfPubkey? (s.run es).validators slot pubkey =
        s.context.roleOfPubkey? s.validators slot pubkey ↔
          ∀ index, s.validators.indexOf? pubkey = some index → s.Spares es index := by
  refine ⟨roleOf_context_run_eq_iff hs.sound es, ?_⟩
  intro slot pubkey
  have hindex : (s.run es).validators.indexOf? pubkey = s.validators.indexOf? pubkey :=
    congrArg (Table.get? · pubkey) (indices_run hes)
  rw [Context.roleOfPubkey?, Context.roleOfPubkey?, hindex]
  cases s.validators.indexOf? pubkey with
  | none => simp
  | some index => simp [roleOf_context_run_eq_iff hs.sound]

/-- A service in slot 150 that knows validator 7, with a strategy in force. -/
def rehearsed (strategy : Strategy) : Service Rehearsal :=
  (start ChainSpec.mainnet (ChainSpec.mainnet.clock .zero) (Rehearsal.empty 32)
    ValidatorStore.empty).run
    [.register 7 (Rehearsal.pubkey 7), .setTime (Duration.ofSeconds 1800),
      .install 0 (RandomStream.progression 0 0) strategy]

/-- A strategy without windows. -/
def windowless : Strategy := { Strategy.empty with uid := some "a" }

/-- A strategy in which validator 7 attacks from slot 100 to slot 200. -/
def windowed : Strategy := { Strategy.empty with uid := some "b", validators := [⟨7, 100, 200⟩] }

theorem context_run_eq_iff_spares_windowed :
    (rehearsed windowed).context.roleOf ((rehearsed windowed).run
        [.setTime (Duration.ofSeconds 3600),
          .install 1 (RandomStream.progression 0 0) windowless]).validators ⟨150⟩ 7 =
      (rehearsed windowed).context.roleOf (rehearsed windowed).validators ⟨150⟩ 7 := by
  refine ((context_run_eq_iff_spares ((Reachable.start _ _ _).run _) ?_).1 _ _).2 (.inl ?_)
  · intro index pubkey h
    simp at h
  · exact ⟨⟨7, 100, 200⟩, by decide, rfl⟩

/-- **A strategy that is installed and taken back reaches into a call.** The rule set of the call
declares nothing and is in force again, and still the call now takes the validator for an attacker,
a hundred slots after the window that came and went. -/
theorem attacker_in_flight_after_installs :
    let s := rehearsed windowless
    let later := s.run [.install 1 (RandomStream.progression 0 0) windowed,
      .install 2 (RandomStream.progression 0 0) windowless]
    s.context.roleOf s.validators ⟨300⟩ 7 = .normal ∧
      s.context.roleOf later.validators ⟨300⟩ 7 = .attacker ∧
      s.context.roleOfPubkey? s.validators ⟨300⟩ (Rehearsal.pubkey 7) = some .normal ∧
      s.context.roleOfPubkey? later.validators ⟨300⟩ (Rehearsal.pubkey 7) = some .attacker := by
  decide

end Service

end Saboteur
