import Mathlib.Data.List.Forall2
import Saboteur.Proofs.Feedback.Run
import Saboteur.Proofs.Positions

/-!
# When a strategy has ended

A strategy of which every rule names its slot has a last epoch, and it is announced when a look is
taken two epochs after that one. A strategy with a computed slot, or without rules, has none and
should never be announced.

The tracker gives such a strategy the last epoch that a word can name. Two epochs after it is, in
saturating arithmetic, that epoch again, and with at most one slot in an epoch there is a slot that
reaches it. So the announcements of a look are the right ones, except for a look at the last slot
under such a schedule, which announces whatever is pending.
-/

namespace Saboteur

/-- A strategy has rules, and each of them names its slot. -/
def RuleSet.IsLiteral (r : RuleSet) : Prop :=
  r.rules ≠ [] ∧ ∀ rule ∈ r.rules, rule.slot.isComputed = false

instance (r : RuleSet) : Decidable r.IsLiteral := inferInstanceAs (Decidable (_ ∧ _))

namespace Feedback

/-! ## The bounds of a strategy -/

/-- A fold that keeps one of two epochs, the better one, comes upon the best. -/
theorem foldl_pick {pick : Epoch → Epoch → Epoch} (better : Epoch → Epoch → Prop)
    (hmem : ∀ a b, pick a b = a ∨ pick a b = b) (hleft : ∀ a b, better (pick a b) a)
    (hright : ∀ a b, better (pick a b) b) (hrefl : ∀ a, better a a)
    (htrans : ∀ {a b c}, better a b → better b c → better a c) (e : Epoch) (rest : List Epoch) :
    rest.foldl pick e ∈ e :: rest ∧ ∀ x ∈ e :: rest, better (rest.foldl pick e) x := by
  induction rest generalizing e with
  | nil =>
    refine ⟨List.mem_singleton_self e, fun x hx => ?_⟩
    rw [List.mem_singleton.1 hx]
    exact hrefl e
  | cons d rest ih =>
    obtain ⟨hfound, hbest⟩ := ih (pick e d)
    refine ⟨?_, fun x hx => ?_⟩
    · rcases List.mem_cons.1 hfound with heq | hrest
      · rw [List.foldl_cons, heq]
        rcases hmem e d with heq | heq <;> simp [heq]
      · exact List.mem_cons_of_mem _ (List.mem_cons_of_mem _ hrest)
    · have hhead := hbest _ List.mem_cons_self
      rcases List.mem_cons.1 hx with rfl | hx
      · exact htrans hhead (hleft x d)
      · rcases List.mem_cons.1 hx with rfl | hx
        · exact htrans hhead (hright e x)
        · exact hbest x (List.mem_cons_of_mem _ hx)

theorem earlier_eq_or (a b : Epoch) : earlier a b = a ∨ earlier a b = b := by
  unfold earlier
  split
  · exact .inr rfl
  · exact .inl rfl

theorem earlier_le_left (a b : Epoch) : earlier a b ≤ a := by
  unfold earlier
  split
  · exact Nat.le_of_lt ‹_›
  · exact Nat.le_refl _

theorem earlier_le_right (a b : Epoch) : earlier a b ≤ b := by
  unfold earlier
  split
  · exact Nat.le_refl _
  · exact Nat.le_of_not_lt ‹_›

theorem later_eq_or (a b : Epoch) : later a b = a ∨ later a b = b := by
  unfold later
  split
  · exact .inr rfl
  · exact .inl rfl

theorem left_le_later (a b : Epoch) : a ≤ later a b := by
  unfold later
  split
  · exact Nat.le_of_lt ‹_›
  · exact Nat.le_refl _

theorem right_le_later (a b : Epoch) : b ≤ later a b := by
  unfold later
  split
  · exact Nat.le_refl _
  · exact Nat.le_of_not_lt ‹_›

/-- The first epoch is one of the epochs, and none is earlier. -/
theorem firstEpoch_spec {epochs : List Epoch} (h : epochs ≠ []) :
    firstEpoch epochs ∈ epochs ∧ ∀ e ∈ epochs, firstEpoch epochs ≤ e := by
  cases epochs with
  | nil => exact absurd rfl h
  | cons e rest =>
    exact foldl_pick (fun a b => a ≤ b) earlier_eq_or earlier_le_left earlier_le_right
      (fun _ => Nat.le_refl _) Nat.le_trans e rest

/-- The last epoch is one of the epochs, and none is later. -/
theorem lastEpoch_spec {epochs : List Epoch} (h : epochs ≠ []) :
    lastEpoch epochs ∈ epochs ∧ ∀ e ∈ epochs, e ≤ lastEpoch epochs := by
  cases epochs with
  | nil => exact absurd rfl h
  | cons e rest =>
    exact foldl_pick (fun a b => b ≤ a) later_eq_or left_le_later right_le_later
      (fun _ => Nat.le_refl _) (fun hab hbc => Nat.le_trans hbc hab) e rest

/-- A strategy whose rules name their slots has an epoch. -/
theorem literalEpochs_ne_nil {r : RuleSet} (h : r.IsLiteral) (k : UInt64) :
    literalEpochs r.rules k ≠ [] := by
  obtain ⟨hne, hall⟩ := h
  obtain ⟨rule, hrule⟩ := List.exists_mem_of_ne_nil _ hne
  have hslot := hall rule hrule
  cases hs : rule.slot with
  | computed f =>
    rw [hs] at hslot
    cases hslot
  | literal slot =>
    refine List.ne_nil_of_mem (a := slot.epoch k) (List.mem_filterMap.2 ⟨rule, hrule, ?_⟩)
    rw [hs]
    rfl

theorem any_isComputed {r : RuleSet} (h : r.IsLiteral) :
    (r.rules.any fun rule => rule.slot.isComputed) = false := by
  rw [List.any_eq_false]
  intro rule hrule
  rw [h.2 rule hrule]
  exact Bool.false_ne_true

theorem maxEpoch_endOf_of_isLiteral (f : Feedback) {r : RuleSet} (h : r.IsLiteral) :
    (f.endOf r).maxEpoch = lastEpoch (literalEpochs r.rules f.slotsPerEpoch) := by
  simp only [endOf, epochBounds, any_isComputed h]
  rfl

/-- A strategy without an end of its own is given the last epoch there is. -/
theorem maxEpoch_endOf_of_not_isLiteral (f : Feedback) {r : RuleSet} (h : ¬ r.IsLiteral) :
    (f.endOf r).maxEpoch = Epoch.last := by
  simp only [endOf, epochBounds]
  split
  · rfl
  · rename_i hany
    -- no rule is computed, so there is no rule at all
    have hnil : r.rules = [] := by
      by_contra hne
      refine h ⟨hne, fun rule hrule => ?_⟩
      simpa using List.any_eq_false.1 (Bool.eq_false_iff.2 hany) rule hrule
    rw [hnil]
    rfl

/-! ## The end of a strategy -/

/-- A strategy of literal rules is complete at a slot: the slot lies two epochs or more after the
last epoch that a rule names. -/
def Completes (k : UInt64) (slot : Slot) (r : RuleSet) : Prop :=
  r.IsLiteral ∧ ∃ last ∈ literalEpochs r.rules k,
    (∀ e ∈ literalEpochs r.rules k, e ≤ last) ∧ last.addSat 2 ≤ slot.epoch k

instance (k : UInt64) (slot : Slot) (r : RuleSet) : Decidable (Completes k slot r) :=
  inferInstanceAs (Decidable (_ ∧ _))

/-- The look at which even an endless strategy counts as ended. -/
def AtTheEnd (k : UInt64) (slot : Slot) : Prop := slot = Slot.last ∧ k.toNat ≤ 1

/-- The last epoch is reached only by the last slot, and only with one slot in an epoch. -/
theorem last_le_epoch_iff {k : UInt64} {slot : Slot} :
    Epoch.last ≤ slot.epoch k ↔ AtTheEnd k slot := by
  have hmax : slot.toNat ≤ Slot.last.toNat := Word.toNat_le_max _
  have hlast : slot = Slot.last ↔ Slot.last.toNat ≤ slot.toNat :=
    ⟨fun h => h ▸ Nat.le_refl _, fun h => Slot.ext_toNat (Nat.le_antisymm hmax h)⟩
  change Slot.last.toNat ≤ (slot.epoch k).toNat ↔ _
  rw [Epoch.toNat_epoch, AtTheEnd, hlast]
  by_cases hk : k.toNat ≤ 1
  · have hone : (if k = 0 then 1 else k.toNat) = 1 := by
      split
      · rfl
      · rename_i hne
        have hpos : k.toNat ≠ 0 := fun h => hne (UInt64.toNat_inj.1 h)
        omega
    simp [hone, hk]
  · have hne : k ≠ 0 := by
      rintro rfl
      exact hk (Nat.zero_le _)
    rw [if_neg hne]
    -- half of a word is less than the last slot
    have hhalf : slot.toNat / k.toNat ≤ slot.toNat / 2 :=
      Nat.div_le_div_left (Nat.lt_of_not_le hk) (by decide)
    have hpos : 2 ≤ Slot.last.toNat := by decide
    constructor
    · intro h
      omega
    · exact fun h => absurd h.2 hk

/-- A strategy whose rules name their slots completes two epochs after its last one. -/
theorem completes_iff {k : UInt64} {slot : Slot} {r : RuleSet} (h : r.IsLiteral) :
    Completes k slot r ↔ (lastEpoch (literalEpochs r.rules k)).addSat 2 ≤ slot.epoch k := by
  obtain ⟨hmem, hle⟩ := lastEpoch_spec (literalEpochs_ne_nil h k)
  constructor
  · rintro ⟨-, last, hlast, hmax, hslot⟩
    have heq : last = lastEpoch (literalEpochs r.rules k) :=
      Epoch.ext_toNat (Nat.le_antisymm (hle last hlast) (hmax _ hmem))
    rwa [← heq]
  · exact fun hslot => ⟨h, _, hmem, hle, hslot⟩

/-- **A strategy counts as ended when it is complete, or when it is endless and the look is taken at
the very end.** -/
theorem hasEnded_iff (f : Feedback) (slot : Slot) (r : RuleSet) :
    f.hasEnded slot r = true ↔
      Completes f.slotsPerEpoch slot r ∨ ¬ r.IsLiteral ∧ AtTheEnd f.slotsPerEpoch slot := by
  rw [hasEnded, decide_eq_true_iff]
  by_cases h : r.IsLiteral
  · rw [maxEpoch_endOf_of_isLiteral f h]
    refine (completes_iff h).symm.trans ?_
    simp [h]
  · have hlast : Epoch.last.addSat completionDelay = Epoch.last := rfl
    have hnot : ¬ Completes f.slotsPerEpoch slot r := fun hc => h hc.1
    rw [maxEpoch_endOf_of_not_isLiteral f h, hlast, last_le_epoch_iff]
    simp [h, hnot]

/-! ## Announcements -/

/-- What the announcement of a complete strategy says: its name, and the first and the last epoch
that its rules name. -/
structure Announces (k : UInt64) (r : RuleSet) (e : StrategyEnd) : Prop where
  uid : e.uid = r.uid
  min_mem : e.minEpoch ∈ literalEpochs r.rules k
  min_le : ∀ x ∈ literalEpochs r.rules k, e.minEpoch ≤ x
  max_mem : e.maxEpoch ∈ literalEpochs r.rules k
  le_max : ∀ x ∈ literalEpochs r.rules k, x ≤ e.maxEpoch

theorem announces_endOf (f : Feedback) {r : RuleSet} (h : r.IsLiteral) :
    Announces f.slotsPerEpoch r (f.endOf r) := by
  have hne := literalEpochs_ne_nil h f.slotsPerEpoch
  have hfirst := firstEpoch_spec hne
  have hlast := lastEpoch_spec hne
  rw [← maxEpoch_endOf_of_isLiteral f h] at hlast
  exact ⟨rfl, hfirst.1, hfirst.2, hlast.1, hlast.2⟩

/-- An announcement at a look is that of a strategy: of a complete one, or of an endless one at the
very end. -/
def EndsAt (k : UInt64) (slot : Slot) (r : RuleSet) (e : StrategyEnd) : Prop :=
  Completes k slot r ∧ Announces k r e ∨
    ¬ r.IsLiteral ∧ AtTheEnd k slot ∧ e.uid = r.uid

/-- What is announced is the end of a complete strategy, or comes at the very end. -/
theorem endsAt_endOf (f : Feedback) {slot : Slot} {r : RuleSet} (h : f.hasEnded slot r = true) :
    EndsAt f.slotsPerEpoch slot r (f.endOf r) := by
  rcases (hasEnded_iff f slot r).1 h with hc | ⟨hn, hend⟩
  · exact .inl ⟨hc, announces_endOf f hc.1⟩
  · exact .inr ⟨hn, hend, rfl⟩

/-- A look does right: it announces the strategies that are complete, in the order of their
installation, and takes those away and no others. -/
structure LooksRight (f : Feedback) (slot : Slot) : Prop where
  announced : List.Forall₂ (Announces f.slotsPerEpoch)
    ((f.pending.map Prod.snd).filter (Completes f.slotsPerEpoch slot)) (f.due slot)
  kept : (f.poll slot).pending =
    f.pending.filter fun p => ¬ Completes f.slotsPerEpoch slot p.2

/-- A look does right unless it is taken at the very end with an endless strategy pending. -/
theorem looksRight_iff (f : Feedback) (slot : Slot) :
    LooksRight f slot ↔
      ¬ AtTheEnd f.slotsPerEpoch slot ∨ ∀ p ∈ f.pending, p.2.IsLiteral := by
  constructor
  · intro h
    by_contra hcon
    obtain ⟨hend, hsome⟩ := not_or.1 hcon
    obtain ⟨p, hp, hn⟩ := by simpa only [not_forall] using hsome
    -- the endless strategy is not complete, so it had to stay, and the look has taken it away
    have hstays : p ∈ (f.poll slot).pending := by
      rw [h.kept, List.mem_filter]
      exact ⟨hp, decide_eq_true fun hc => hn hc.1⟩
    have hends : f.hasEnded slot p.2 = true := (hasEnded_iff f slot p.2).2 (.inr ⟨hn, not_not.1 hend⟩)
    have hgone := (List.mem_filter.1 hstays).2
    rw [hends] at hgone
    cases hgone
  · intro h
    have hends : ∀ p ∈ f.pending,
        f.hasEnded slot p.2 = decide (Completes f.slotsPerEpoch slot p.2) := by
      intro p hp
      rw [Bool.eq_iff_iff, hasEnded_iff, decide_eq_true_iff]
      refine or_iff_left fun ⟨hn, hend⟩ => ?_
      rcases h with h | h
      · exact h hend
      · exact hn (h p hp)
    refine ⟨?_, List.filter_congr fun p hp => ?_⟩
    · have hending : f.ending slot =
          (f.pending.map Prod.snd).filter (Completes f.slotsPerEpoch slot) := by
        refine List.filter_congr fun r hr => ?_
        obtain ⟨p, hp, rfl⟩ := List.mem_map.1 hr
        exact hends p hp
      rw [due_eq, hending, List.forall₂_map_right_iff, List.forall₂_same]
      intro r hr
      exact announces_endOf f (decide_eq_true_iff.1 (List.mem_filter.1 hr).2).1
    · rw [hends p hp, decide_not]

/-! ## Runs -/

theorem forall₂_announced (f : Feedback) (ops : List Op) :
    List.Forall₂ (fun rs look => List.Forall₂ (EndsAt f.slotsPerEpoch look.1) rs look.2)
      (f.endings ops) (f.announced ops) := by
  induction ops generalizing f with
  | nil => exact List.Forall₂.nil
  | cons op rest ih =>
    cases op with
    | poll slot =>
      refine List.Forall₂.cons ?_ (ih (f.poll slot))
      rw [due_eq, List.forall₂_map_right_iff, List.forall₂_same]
      intro r hr
      exact endsAt_endOf f (List.mem_filter.1 hr).2
    | add time r => exact ih (f.add time r)
    | prune oldest => exact ih (f.pruneCompleted oldest)
    | subscribe => exact ih f.subscribe
    | read subscriber => exact ih (f.clearMailbox subscriber)

/-- **Every strategy that is added is pending or has been announced, once, and a look announces the
complete ones and no others exactly if it is not taken at the very end with an endless strategy
pending.** -/
theorem run_tracks (k : UInt64) (ops : List Op) :
    let f := (empty k).run ops
    let rules := added ops
    Ascending f.pending ∧
    (∃ (kept : List (Fin rules.length)) (ended : List (List (Fin rules.length))),
      (kept ++ ended.flatten).Perm (List.finRange rules.length) ∧
      f.pending.map Prod.snd = kept.map rules.get ∧
      List.Forall₂ (fun is look => List.Forall₂ (fun i e => EndsAt k look.1 (rules.get i) e)
        is look.2) ended ((empty k).announced ops)) ∧
    ∀ slot, LooksRight f slot ↔
      slot ≠ Slot.last ∨ 1 < k.toNat ∨ ∀ p ∈ f.pending, p.2.IsLiteral := by
  intro f rules
  have hk : f.slotsPerEpoch = k := slotsPerEpoch_run (empty k) ops
  refine ⟨ascending_run_empty k ops, ?_, fun slot => ?_⟩
  · have hall : (f.pending.map Prod.snd ++ ((empty k).endings ops).flatten).Perm rules :=
      run_pending_append_endings (empty k) ops
    obtain ⟨is, his, hmap⟩ := exists_positions_of_perm hall
    obtain ⟨kept, gone, rfl, hkept, hgone⟩ := List.append_eq_map_iff.1 hmap
    obtain ⟨ended, rfl, hended⟩ := exists_map_map_eq rules.get hgone.symm
    refine ⟨kept, ended, his, hkept.symm, ?_⟩
    have hannounced := forall₂_announced (empty k) ops
    rw [← hended, List.forall₂_map_left_iff] at hannounced
    exact hannounced.imp fun is look h => List.forall₂_map_left_iff.1 h
  · rw [looksRight_iff, hk, AtTheEnd, not_and_or, Nat.not_le, or_assoc]

/-- A strategy with one rule, for the slots of attackers. -/
def endless : RuleSet := ⟨"endless", Strategy.empty, [⟨.computed .attackerSlot, 0, []⟩]⟩

/-- **With one slot in an epoch an endless strategy ends at the last slot.** -/
theorem endless_announced_at_last :
    let f := (empty 1).run [.add 1 endless]
    ¬ endless.IsLiteral ∧ ((empty 1).run [.add 1 endless, .poll Slot.last]).pending = [] ∧
      f.due Slot.last = [⟨"endless", Epoch.last, Epoch.last⟩] ∧ ¬ LooksRight f Slot.last := by
  refine ⟨by decide, by decide, by decide, ?_⟩
  rw [looksRight_iff, not_or, not_not]
  exact ⟨⟨rfl, by decide⟩, by decide⟩

end Feedback

end Saboteur
