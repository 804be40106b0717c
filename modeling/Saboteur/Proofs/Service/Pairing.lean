import Mathlib.Data.List.Nodup
import Saboteur.Proofs.Service.Interleaving

/-!
# Rules and windows as a pair

The windows and the rules are two stores, and between the two writes of an installation they do not
belong together. So the invariant says what the stores show at each stage of the installation that
has the lock. Nobody else writes to them, and when the lock is given back they are a pair again.

Besides, every installation that comes to the tracker does so once, and none is kept from it.
-/

namespace Saboteur

namespace Concurrent

variable {β : Type}

/-! ## The lock -/

/-- The call that has the lock, and no other, is between taking it and giving it back. -/
def Exclusive (s : State β) : Prop := ∀ i, (s.installers i).Inside ↔ s.lock = some i

theorem Exclusive.update {s : State β} (h : Exclusive s) {i : Nat} {x : Installer}
    {lock : Option Nat} (hi : x.Inside ↔ lock = some i)
    (hothers : ∀ j, j ≠ i → (lock = some j ↔ s.lock = some j)) (j : Nat) :
    (Function.update s.installers i x j).Inside ↔ lock = some j := by
  rcases eq_or_ne j i with rfl | hne
  · rw [Function.update_self]
    exact hi
  · rw [Function.update_of_ne hne, hothers j hne]
    exact h j

/-- A step that neither takes the lock nor gives it back. -/
theorem Exclusive.move {s : State β} (h : Exclusive s) {i : Nat} {x y : Installer}
    (hx : s.installers i = x) (hxy : x.Inside ↔ y.Inside) (j : Nat) :
    (Function.update s.installers i y j).Inside ↔ s.lock = some j := by
  refine h.update ?_ (fun _ _ => Iff.rfl) j
  rw [← hxy, ← hx]
  exact h i

theorem Exclusive.lock_eq {s : State β} (h : Exclusive s) {i : Nat} {x : Installer}
    (hx : s.installers i = x) (hinside : x.Inside) : s.lock = some i := by
  rw [← hx] at hinside
  exact (h i).1 hinside

theorem Exclusive.step {s t : State β} (h : Exclusive s) (hst : Step s t) : Exclusive t := by
  cases hst with
  | acquire at_stage free =>
    refine h.update (iff_of_true trivial rfl) fun j hne => ?_
    rw [free]
    exact iff_of_false (fun heq => hne (Option.some.inj heq).symm) nofun
  | release at_stage =>
    refine h.update (iff_of_false id nofun) fun j hne => ?_
    rw [h.lock_eq at_stage trivial]
    exact iff_of_false nofun fun heq => hne (Option.some.inj heq).symm
  | reject at_stage | accept at_stage | place at_stage | refresh at_stage | swap at_stage
  | track at_stage | finish at_stage => exact h.move at_stage Iff.rfl
  | read | build | tracker | elsewhere => exact h

/-! ## Windows and rules -/

/-- What the stores show while a call has the lock: the windows in force, the rules in force, and
the rule set that the tracker was given last. -/
def Stage.Shows (stage : Stage) (own : RuleSet) (windows : Windows) (current newest : RuleSet) :
    Prop :=
  match stage with
  | locked => windows = current.windows ∧ current = newest
  | placed | refreshed => windows = own.windows ∧ current = newest
  | swapped => windows = own.windows ∧ current = own
  | tracked => windows = own.windows ∧ current = own ∧ newest = own
  | waiting | released | returned => True

/-- Without a call that has the lock the stores show a pair, and otherwise what the stage of the
call says. -/
structure Paired (s : State β) : Prop where
  free : s.lock = none →
    s.service.validators.windows = s.service.rules.windows ∧ s.service.rules = s.newest
  held : ∀ i call stage, s.lock = some i → s.installers i = .accepted call stage →
    stage.Shows call.rules s.service.validators.windows s.service.rules s.newest

/-- A step that leaves the stores alone, and the call that has the lock. -/
theorem Paired.frame {s t : State β} (h : Paired s) (hlock : t.lock = s.lock)
    (hinstallers : ∀ i, s.lock = some i → t.installers i = s.installers i)
    (hwindows : t.service.validators.windows = s.service.validators.windows)
    (hrules : t.service.rules = s.service.rules) (hhanded : t.handed = s.handed) : Paired t := by
  have hnewest : t.newest = s.newest := by rw [State.newest, State.newest, hhanded]
  constructor
  · rw [hlock, hwindows, hrules, hnewest]
    exact h.free
  · intro i call stage hi hcall
    rw [hlock] at hi
    rw [hinstallers i hi] at hcall
    rw [hwindows, hrules, hnewest]
    exact h.held i call stage hi hcall

/-- A call without the lock moves on. -/
theorem Paired.aside {s : State β} (h : Paired s) (hex : Exclusive s) {i : Nat} {x y : Installer}
    (hx : s.installers i = x) (houtside : ¬ x.Inside) {service : Service β}
    (hwindows : service.validators.windows = s.service.validators.windows)
    (hrules : service.rules = s.service.rules) : Paired { s.put i y with service } := by
  refine h.frame rfl (fun j hj => ?_) hwindows hrules rfl
  refine Function.update_of_ne ?_ _ _
  rintro rfl
  rw [← hx] at houtside
  exact houtside ((hex j).2 hj)

/-- The call that has the lock moves on. -/
theorem Paired.advance {t : State β} {i : Nat} {call : Compiled} {stage : Stage}
    (hlock : t.lock = some i) (hstage : t.installers i = .accepted call stage)
    (hshows : stage.Shows call.rules t.service.validators.windows t.service.rules t.newest) :
    Paired t := by
  constructor
  · intro hfree
    rw [hfree] at hlock
    cases hlock
  · intro j call' stage' hj hcall
    obtain rfl : i = j := Option.some.inj (hlock.symm.trans hj)
    obtain ⟨rfl, rfl⟩ := Installer.accepted.inj (hstage.symm.trans hcall)
    exact hshows

theorem newest_concat {s : State β} {handed : List (Nat × RuleSet)} {i : Nat} {rules : RuleSet}
    (h : s.handed = handed ++ [(i, rules)]) : s.newest = rules := by
  rw [State.newest, h, List.getLast?_concat]
  rfl

/-- **What the stores show at a stage is what the next stage needs.** -/
theorem Paired.step {s t : State β} (h : Paired s) (hex : Exclusive s) (hst : Step s t) :
    Paired t := by
  cases hst with
  | reject at_stage | accept at_stage | finish at_stage => exact h.aside hex at_stage id rfl rfl
  | acquire at_stage free =>
    exact Paired.advance rfl (State.put_self _ _ _) (h.free free)
  | place at_stage =>
    have hlock := hex.lock_eq at_stage trivial
    obtain ⟨-, hnewest⟩ := h.held _ _ _ hlock at_stage
    exact Paired.advance hlock (State.put_self _ _ _) ⟨rfl, hnewest⟩
  | refresh at_stage =>
    have hlock := hex.lock_eq at_stage trivial
    obtain ⟨hwindows, hnewest⟩ := h.held _ _ _ hlock at_stage
    exact Paired.advance hlock (State.put_self _ _ _)
      ⟨(Service.windows_refreshRoles _).trans hwindows, hnewest⟩
  | swap at_stage =>
    have hlock := hex.lock_eq at_stage trivial
    obtain ⟨hwindows, -⟩ := h.held _ _ _ hlock at_stage
    exact Paired.advance hlock (State.put_self _ _ _) ⟨hwindows, rfl⟩
  | track at_stage =>
    have hlock := hex.lock_eq at_stage trivial
    obtain ⟨hwindows, hcurrent⟩ := h.held _ _ _ hlock at_stage
    exact Paired.advance hlock (State.put_self _ _ _)
      ⟨hwindows, hcurrent, newest_concat rfl⟩
  | release at_stage =>
    have hlock := hex.lock_eq at_stage trivial
    obtain ⟨hwindows, hcurrent, hnewest⟩ := h.held _ _ _ hlock at_stage
    constructor
    · intro _
      exact ⟨hwindows.trans (congrArg RuleSet.windows hcurrent.symm), hcurrent.trans hnewest.symm⟩
    · intro i call stage hi
      cases hi
  | read | build | tracker => exact h.frame rfl (fun _ _ => rfl) rfl rfl rfl
  | elsewhere undisturbed =>
    exact h.frame rfl (fun _ _ => rfl) undisturbed.windows undisturbed.rules rfl

/-! ## Hook calls -/

/-- Every context that is built has the windows of the rules that are selected from. -/
def Matched (s : State β) : Prop :=
  ∀ j rules ctx, s.callers j = .ready rules ctx → ctx.windows = rules.windows

theorem Matched.update {s : State β} (h : Matched s) (i : Nat) {x : Caller}
    (hx : ∀ rules ctx, x = .ready rules ctx → ctx.windows = rules.windows) :
    Matched { s with callers := Function.update s.callers i x } := by
  intro j rules ctx hready
  change Function.update s.callers i x j = _ at hready
  rcases eq_or_ne j i with rfl | hne
  · rw [Function.update_self] at hready
    exact hx rules ctx hready
  · rw [Function.update_of_ne hne] at hready
    exact h j rules ctx hready

theorem Matched.step {s t : State β} (h : Matched s) (hst : Step s t) : Matched t := by
  cases hst with
  | read at_stage => exact h.update _ nofun
  | build at_stage =>
    refine h.update _ fun rules ctx hready => ?_
    obtain ⟨rfl, rfl⟩ := Caller.ready.inj hready
    rfl
  | reject | accept | acquire | place | refresh | swap | track | release | finish | tracker
  | elsewhere => exact h

/-! ## Handing over -/

/-- The calls that came to the tracker are those that have passed that stage, each once, and the
tracker was given what they handed over and nothing else. -/
structure Handed (s : State β) : Prop where
  once : (s.handed.map Prod.fst).Nodup
  mem_iff : ∀ i rules, (i, rules) ∈ s.handed ↔ (s.installers i).HandedOver rules
  given : ∃ ops, s.service.feedback =
      (Feedback.empty s.service.feedback.slotsPerEpoch).run ops ∧
    Feedback.added ops = s.handed.map Prod.snd

theorem Handed.frame {s t : State β} (h : Handed s) (hhanded : t.handed = s.handed)
    (hinstallers : ∀ i rules,
      (t.installers i).HandedOver rules ↔ (s.installers i).HandedOver rules)
    (hfeedback : t.service.feedback = s.service.feedback) : Handed t := by
  refine ⟨?_, fun i rules => ?_, ?_⟩
  · rw [hhanded]
    exact h.once
  · rw [hhanded, hinstallers]
    exact h.mem_iff i rules
  · rw [hhanded, hfeedback]
    exact h.given

/-- A call moves on that does not come to the tracker by it. -/
theorem Handed.move {s : State β} (h : Handed s) {i : Nat} {x y : Installer}
    (hx : s.installers i = x) (hxy : ∀ rules, y.HandedOver rules ↔ x.HandedOver rules)
    {service : Service β} {lock : Option Nat} (hfeedback : service.feedback = s.service.feedback) :
    Handed { s.put i y with service, lock } := by
  refine h.frame rfl (fun j rules => ?_) hfeedback
  rcases eq_or_ne j i with rfl | hne
  · rw [hx]
    change (Function.update s.installers j y j).HandedOver rules ↔ _
    rw [Function.update_self]
    exact hxy rules
  · change (Function.update s.installers i y j).HandedOver rules ↔ _
    rw [Function.update_of_ne hne]

theorem Handed.step {s t : State β} (h : Handed s) (hst : Step s t) : Handed t := by
  cases hst with
  | reject at_stage | acquire at_stage | place at_stage | refresh at_stage | swap at_stage
  | release at_stage | finish at_stage =>
    refine h.move at_stage (fun _ => ?_) rfl
    exact Iff.rfl
  | accept at_stage =>
    refine h.move at_stage (fun _ => ?_) rfl
    exact iff_of_false (fun hover => hover.1) id
  | @track i call at_stage =>
    have hnew : ∀ rules, (i, rules) ∉ s.handed := by
      intro rules hmem
      have hover := (h.mem_iff i rules).1 hmem
      rw [at_stage] at hover
      exact hover.1
    constructor
    · have hfirst : i ∉ s.handed.map Prod.fst := by
        intro hmem
        obtain ⟨⟨_, rules⟩, hpair, rfl⟩ := List.mem_map.1 hmem
        exact hnew rules hpair
      rw [List.map_append, List.nodup_append_comm]
      exact List.nodup_cons.2 ⟨hfirst, h.once⟩
    · intro j rules
      change (j, rules) ∈ s.handed ++ [(i, call.rules)] ↔
        (Function.update s.installers i (.accepted call .tracked) j).HandedOver rules
      rw [List.mem_append, List.mem_singleton]
      rcases eq_or_ne j i with rfl | hne
      · rw [Function.update_self]
        simp [hnew rules, Installer.HandedOver, Stage.HandedOver, eq_comm]
      · rw [Function.update_of_ne hne, h.mem_iff]
        simp [hne]
    · obtain ⟨ops, hfeedback, hadded⟩ := h.given
      refine ⟨ops ++ [.add call.time.toNat call.rules], ?_, ?_⟩
      · rw [Feedback.run_concat]
        exact congrArg (Feedback.add · call.time.toNat call.rules) hfeedback
      · rw [Feedback.added_append, hadded, List.map_append]
        rfl
  | @tracker op adds_nothing =>
    refine ⟨h.once, h.mem_iff, ?_⟩
    obtain ⟨ops, hfeedback, hadded⟩ := h.given
    refine ⟨ops ++ [op], ?_, ?_⟩
    · rw [Feedback.run_concat, Feedback.slotsPerEpoch_step]
      exact congrArg (Feedback.step · op) hfeedback
    · rw [Feedback.added_append, adds_nothing, List.append_nil]
      exact hadded
  | read | build => exact h.frame rfl (fun _ _ => Iff.rfl) rfl
  | elsewhere undisturbed => exact h.frame rfl (fun _ _ => Iff.rfl) undisturbed.feedback

/-! ## Every interleaving -/

/-- What holds between any two steps. -/
structure Sound (s : State β) : Prop where
  exclusive : Exclusive s
  paired : Paired s
  matched : Matched s
  handed : Handed s

theorem Sound.step {s t : State β} (h : Sound s) (hst : Step s t) : Sound t :=
  ⟨h.exclusive.step hst, h.paired.step h.exclusive hst, h.matched.step hst, h.handed.step hst⟩

theorem sound_initial (spec : ChainSpec) (clock : SlotClock) (backend : β)
    {validators : ValidatorStore} (hwindows : validators.windows = Table.empty) :
    Sound (.initial (Service.start spec clock backend validators)) where
  exclusive := fun _ => iff_of_false id nofun
  paired := ⟨fun _ => ⟨hwindows, rfl⟩, nofun⟩
  matched := nofun
  handed := ⟨List.nodup_nil, fun _ _ => iff_of_false List.not_mem_nil id, [], rfl, rfl⟩

theorem Reachable.sound {s : State β} (h : Reachable s) : Sound s := by
  obtain ⟨spec, clock, backend, validators, hwindows, hs⟩ := h
  induction hs with
  | refl => exact sound_initial spec clock backend hwindows
  | tail _ hst ih => exact ih.step hst

/-! ## Coming to an end -/

theorem exists_step {s : State β} {i : Nat} {call : Compiled} {stage : Stage}
    (hcall : s.installers i = .accepted call stage) (hmore : stage ≠ .returned)
    (hfree : stage = .waiting → s.lock = none) :
    ∃ t, Step s t ∧
      t.installers = Function.update s.installers i (.accepted call stage.next) := by
  cases stage with
  | waiting => exact ⟨_, .acquire hcall (hfree rfl), rfl⟩
  | locked => exact ⟨_, .place hcall, rfl⟩
  | placed => exact ⟨_, .refresh hcall, rfl⟩
  | refreshed => exact ⟨_, .swap hcall, rfl⟩
  | swapped => exact ⟨_, .track hcall, rfl⟩
  | tracked => exact ⟨_, .release hcall, rfl⟩
  | released => exact ⟨_, .finish hcall, rfl⟩
  | returned => exact absurd rfl hmore

/-- A call that has taken the lock, or can, needs no other to come to its end. -/
theorem exists_returned {s : State β} {i : Nat} {call : Compiled} {stage : Stage}
    (hcall : s.installers i = .accepted call stage) (hfree : stage = .waiting → s.lock = none) :
    ∃ t, Steps s t ∧
      t.installers = Function.update s.installers i (.accepted call .returned) := by
  induction hn : stage.left generalizing s stage with
  | zero =>
    have hend : stage = .returned := by
      cases stage <;> first | rfl | cases hn
    rw [← hend, ← hcall]
    exact ⟨s, .refl, (Function.update_eq_self i s.installers).symm⟩
  | succ n ih =>
    have hmore : stage ≠ .returned := by
      rintro rfl
      cases hn
    obtain ⟨t, hst, ht⟩ := exists_step hcall hmore hfree
    have hnext : t.installers i = .accepted call stage.next := by
      rw [ht, Function.update_self]
    have hleft : stage.next.left = n := by
      cases stage <;> first | exact Nat.succ.inj hn | cases hn
    have hbegun : stage.next = .waiting → t.lock = none := by
      cases stage <;> exact nofun
    obtain ⟨u, htu, hu⟩ := ih hnext hbegun hleft
    refine ⟨u, .head hst htu, ?_⟩
    rw [hu, ht, Function.update_idem]

/-- The call that has the lock can give it back, with every call outside where it was. -/
theorem Reachable.exists_free {s : State β} (h : Reachable s) :
    ∃ t, Steps s t ∧ t.lock = none ∧
      ∀ i, ¬ (s.installers i).Inside → t.installers i = s.installers i := by
  cases hlock : s.lock with
  | none => exact ⟨s, .refl, hlock, fun _ _ => rfl⟩
  | some k =>
    have hinside := (h.sound.exclusive k).2 hlock
    cases hk : s.installers k with
    | idle | rejected =>
      rw [hk] at hinside
      exact hinside.elim
    | accepted call stage =>
      have hbegun : stage = .waiting → s.lock = none := by
        rintro rfl
        rw [hk] at hinside
        exact hinside.elim
      obtain ⟨t, hst, ht⟩ := exists_returned hk hbegun
      refine ⟨t, hst, ?_, fun i hi => ?_⟩
      · rw [Option.eq_none_iff_forall_ne_some]
        intro j hj
        have hinside' := ((h.steps hst).sound.exclusive j).2 hj
        rw [ht] at hinside'
        rcases eq_or_ne j k with rfl | hne
        · rw [Function.update_self] at hinside'
          exact hinside'
        · rw [Function.update_of_ne hne, h.sound.exclusive j, hlock] at hinside'
          exact hne (Option.some.inj hinside').symm
      · rw [ht, Function.update_of_ne]
        rintro rfl
        exact hi hinside

/-- **No interleaving keeps an accepted installation from its end.** -/
theorem Reachable.exists_returned {s : State β} (h : Reachable s) {i : Nat} {call : Compiled}
    {stage : Stage} (hcall : s.installers i = .accepted call stage) :
    ∃ t, Steps s t ∧ t.installers i = .accepted call .returned := by
  by_cases hwaits : stage = .waiting
  · subst hwaits
    -- whoever has the lock comes to its end first
    obtain ⟨t, hst, hfree, hothers⟩ := h.exists_free
    have hstill : t.installers i = .accepted call .waiting := by
      rw [hothers i, hcall]
      rw [hcall]
      exact id
    obtain ⟨u, htu, hu⟩ := Concurrent.exists_returned hstill fun _ => hfree
    exact ⟨u, hst.trans htu, by rw [hu, Function.update_self]⟩
  · obtain ⟨t, hst, ht⟩ := Concurrent.exists_returned hcall fun h => absurd h hwaits
    exact ⟨t, hst, by rw [ht, Function.update_self]⟩

/-! ## The pair -/

/-- **Rules and windows are in force as a pair, however the calls interleave.** Without a call that
has the lock the windows in force are those of the rules in force. Every context that is built has
the windows of the rules that are selected from. A call has handed its rule set to the tracker, once
and nothing else, exactly if it has come that far, which every accepted one can. Without a call that
has the lock the rule set that was handed over last is in force. -/
theorem pairs_of_reachable {s : State β} (h : Reachable s) :
    (s.lock = none → s.service.validators.windows = s.service.rules.windows) ∧
    (∀ j rules ctx, s.callers j = .ready rules ctx → ctx.windows = rules.windows) ∧
    ((s.handed.map Prod.fst).Nodup ∧
      (∀ i rules, (i, rules) ∈ s.handed ↔ (s.installers i).HandedOver rules) ∧
      (∃ ops, s.service.feedback =
          (Feedback.empty s.service.feedback.slotsPerEpoch).run ops ∧
        Feedback.added ops = s.handed.map Prod.snd) ∧
      ∀ i call stage, s.installers i = .accepted call stage →
        ∃ t, Steps s t ∧ t.installers i = .accepted call .returned) ∧
    (s.lock = none → ∀ i rules, s.handed.getLast? = some (i, rules) →
      s.service.rules = rules) := by
  have hs := h.sound
  refine ⟨fun hfree => (hs.paired.free hfree).1, hs.matched,
    ⟨hs.handed.once, hs.handed.mem_iff, hs.handed.given, fun i call stage => h.exists_returned⟩, ?_⟩
  intro hfree i rules hlast
  rw [(hs.paired.free hfree).2, State.newest, hlast]
  rfl

/-- A strategy in which validator 7 attacks from slot 100 to slot 200. -/
def attack : Strategy := { Strategy.empty with uid := some "a", validators := [⟨7, 100, 200⟩] }

/-- A hook call between two writes of an installation: the stores do not belong together, and still
the context has the windows of the rules. -/
theorem pairs_of_reachable_midInstall :
    ∃ s : State Unit, Reachable s ∧ s.lock = some 0 ∧
      s.service.validators.windows ≠ s.service.rules.windows ∧
      ∃ ctx, s.callers 0 = .ready RuleSet.empty ctx ∧ ctx.windows = RuleSet.empty.windows := by
  have hcompiles : Service.compiled? 0 (RandomStream.progression 0 0) attack =
      some ⟨"a", attack, []⟩ := rfl
  have hstart : Reachable (State.initial (Service.start ChainSpec.mainnet
      (ChainSpec.mainnet.clock .zero) () ValidatorStore.empty)) := ⟨_, _, _, _, rfl, .refl⟩
  have haccepted := hstart.steps (.single (.accept (i := 0) rfl hcompiles))
  have hlocked := haccepted.steps (.single (.acquire (i := 0) rfl rfl))
  have hplaced := hlocked.steps (.single (.place (i := 0) rfl))
  have hread := hplaced.steps (.single (.read (j := 0) rfl))
  have hready := hread.steps (.single (.build (j := 0) rfl))
  exact ⟨_, hready, rfl, by decide, _, rfl, (pairs_of_reachable hready).2.1 0 _ _ rfl⟩

end Concurrent

end Saboteur
