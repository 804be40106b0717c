import Mathlib.Data.List.Induction
import Saboteur.Proofs.Feedback.Record

/-!
# The order of announcements

A look goes through the pending strategies by their places, and strategies should be announced in the
order in which they were installed. A place is the time of installation, unless it is taken: then the
next free one. Of strategies that are installed in the same moment the first has the first place and
the others follow it. But when the first one ends its place is free again, and the next strategy of
that moment is put there, before those that were installed earlier and are still pending.

The main statement says that this is the only way to come out of order: a look announces in the order
of installation exactly if none of those it announces has found a time free before the place of
another one that was pending already.
-/

namespace Saboteur.Feedback

/-! ## Places -/

theorem Ascending.nodup {l : List (Nat × RuleSet)} (h : Ascending l) : (l.map Prod.fst).Nodup := by
  rw [List.Nodup, List.pairwise_map]
  exact h.imp Nat.ne_of_lt

/-- A place is free. -/
theorem place_ne {l : List (Nat × RuleSet)} (h : Ascending l) (time : Nat) :
    ∀ q ∈ l, q.1 ≠ place time l := by
  intro q hq heq
  have hnodup := (h.insertPending time q.2).nodup
  rw [((insertPending_perm_cons time q.2 l).map Prod.fst).nodup_iff, List.map_cons] at hnodup
  exact (List.nodup_cons.1 hnodup).1 (heq ▸ List.mem_map_of_mem hq)

/-- The times from the given one up to the place are taken. -/
theorem exists_of_lt_place {time t : Nat} {l : List (Nat × RuleSet)} (hle : time ≤ t)
    (hlt : t < place time l) : ∃ q ∈ l, q.1 = t := by
  induction l generalizing time with
  | nil => exact absurd hlt (Nat.not_lt.2 hle)
  | cons p rest ih =>
    rw [place] at hlt
    split at hlt
    · exact absurd hlt (Nat.not_lt.2 hle)
    · split at hlt
      · rename_i heq
        rcases Nat.eq_or_lt_of_le hle with rfl | hgt
        · exact ⟨p, List.mem_cons_self, heq.symm⟩
        · obtain ⟨q, hq, hqt⟩ := ih hgt hlt
          exact ⟨q, List.mem_cons_of_mem _ hq, hqt⟩
      · obtain ⟨q, hq, hqt⟩ := ih hle hlt
        exact ⟨q, List.mem_cons_of_mem _ hq, hqt⟩

/-- A time is free before a place. -/
def FreeBefore (l : List (Nat × RuleSet)) (time bound : Nat) : Prop :=
  ∃ t, time ≤ t ∧ t < bound ∧ ∀ q ∈ l, q.1 ≠ t

theorem place_lt_iff {l : List (Nat × RuleSet)} (h : Ascending l) {time bound : Nat} :
    place time l < bound ↔ FreeBefore l time bound := by
  constructor
  · exact fun hlt => ⟨place time l, le_place _ _, hlt, place_ne h time⟩
  · rintro ⟨t, hle, hlt, hfree⟩
    refine Nat.lt_of_not_le fun hbound => ?_
    obtain ⟨q, hq, hqt⟩ := exists_of_lt_place hle (Nat.lt_of_lt_of_le hlt hbound)
    exact hfree q hq hqt

/-! ## The order of installation -/

theorem hasEnded_run (f : Feedback) (ops : List Op) : (f.run ops).hasEnded = f.hasEnded := by
  induction ops generalizing f with
  | nil => rfl
  | cons op rest ih =>
    refine (ih (f.step op)).trans ?_
    cases op <;> rfl

/-- What an operation does to a list of the pending strategies that is kept in the order of their
installation. -/
def enlist (f : Feedback) (q : List (Nat × RuleSet)) : Op → List (Nat × RuleSet)
  | .add time r => q ++ [(place time f.pending, r)]
  | .poll slot => q.filter fun p => !f.hasEnded slot p.2
  | _ => q

/-- The list after some operations. -/
def queueFrom (f : Feedback) (q : List (Nat × RuleSet)) : List Op → List (Nat × RuleSet)
  | [] => q
  | op :: rest => queueFrom (f.step op) (f.enlist q op) rest

/-- The strategies that are pending after a run, with their places, in the order in which they were
installed. -/
def queue (k : UInt64) (ops : List Op) : List (Nat × RuleSet) := queueFrom (empty k) [] ops

theorem queueFrom_concat (f : Feedback) (q : List (Nat × RuleSet)) (ops : List Op) (op : Op) :
    queueFrom f q (ops ++ [op]) = (f.run ops).enlist (queueFrom f q ops) op := by
  induction ops generalizing f q with
  | nil => rfl
  | cons op' rest ih => exact ih (f.step op') (f.enlist q op')

theorem queue_concat (k : UInt64) (ops : List Op) (op : Op) :
    queue k (ops ++ [op]) = ((empty k).run ops).enlist (queue k ops) op :=
  queueFrom_concat _ _ _ _

/-- The strategies that are listed are those that are pending. -/
theorem queue_perm (k : UInt64) (ops : List Op) :
    (queue k ops).Perm ((empty k).run ops).pending := by
  induction ops using List.reverseRecOn with
  | nil => exact List.Perm.refl _
  | append_singleton ops op ih =>
    rw [queue_concat, run_concat]
    cases op with
    | add time r =>
      refine (List.perm_append_singleton _ _).trans ((ih.cons _).trans ?_)
      exact (insertPending_perm_cons _ _ _).symm
    | poll slot => exact ih.filter _
    | prune oldest => exact ih
    | subscribe => exact ih
    | read subscriber => exact ih

/-- A look announces in the order of installation: the pending strategies that it ends, whose
announcements `due` makes in the order of their places, were also installed in that order. -/
def AnnouncesInOrder (k : UInt64) (ops : List Op) (slot : Slot) : Prop :=
  let ends : Nat × RuleSet → Bool := fun p => ((empty k).run ops).hasEnded slot p.2
  ((empty k).run ops).pending.filter ends = (queue k ops).filter ends

instance (k : UInt64) (ops : List Op) (slot : Slot) : Decidable (AnnouncesInOrder k ops slot) :=
  inferInstanceAs (Decidable (_ = _))

/-! ## Overtaking -/

/-- A strategy stays pending: no look of these operations ends it. -/
def Lasts (k : UInt64) (ops : List Op) (r : RuleSet) : Prop :=
  ∀ slot, .poll slot ∈ ops → (empty k).hasEnded slot r = false

/-- In the course of a run a strategy is installed while another one is pending, and finds a time
free before the place of that one. Both are still pending after the run. -/
def Overtakes (k : UInt64) (ops : List Op) (r : RuleSet) (p : Nat × RuleSet) : Prop :=
  ∃ before time after, ops = before ++ .add time r :: after ∧
    p ∈ ((empty k).run before).pending ∧ FreeBefore ((empty k).run before).pending time p.1 ∧
      Lasts k after r ∧ Lasts k after p.2

theorem not_overtakes_nil (k : UInt64) (r : RuleSet) (p : Nat × RuleSet) :
    ¬ Overtakes k [] r p := by
  rintro ⟨before, time, after, h, -⟩
  exact absurd h (by simp)

theorem lasts_concat {k : UInt64} {ops : List Op} {op : Op} {r : RuleSet} :
    Lasts k (ops ++ [op]) r ↔
      Lasts k ops r ∧ ∀ slot, op = .poll slot → (empty k).hasEnded slot r = false := by
  simp only [Lasts, List.mem_append, List.mem_singleton, or_imp, forall_and, eq_comm]

theorem concat_eq_append_cons_iff {α : Type} {l before after : List α} {a b : α} :
    l ++ [a] = before ++ b :: after ↔
      (after = [] ∧ l = before ∧ a = b) ∨
        ∃ rest, after = rest ++ [a] ∧ l = before ++ b :: rest := by
  constructor
  · intro h
    rcases List.eq_nil_or_concat after with rfl | ⟨rest, c, rfl⟩
    · obtain ⟨hl, ha⟩ := List.append_inj' h rfl
      exact .inl ⟨rfl, hl, (List.cons.inj ha).1⟩
    · rw [List.concat_eq_append, ← List.cons_append, ← List.append_assoc] at h
      obtain ⟨hl, ha⟩ := List.append_inj' h rfl
      rw [(List.cons.inj ha).1]
      exact .inr ⟨rest, List.concat_eq_append, hl⟩
  · rintro (⟨rfl, rfl, rfl⟩ | ⟨rest, rfl, rfl⟩)
    · rfl
    · simp

/-- A strategy overtakes another one before the last operation, which ends neither, or by it. -/
theorem overtakes_concat_iff {k : UInt64} {ops : List Op} {op : Op} {r : RuleSet}
    {p : Nat × RuleSet} :
    Overtakes k (ops ++ [op]) r p ↔
      (Overtakes k ops r p ∧ ∀ slot, op = .poll slot →
        (empty k).hasEnded slot r = false ∧ (empty k).hasEnded slot p.2 = false) ∨
      ∃ time, op = .add time r ∧ p ∈ ((empty k).run ops).pending ∧
        FreeBefore ((empty k).run ops).pending time p.1 := by
  constructor
  · rintro ⟨before, time, after, heq, hp, hfree, hr, hlasts⟩
    rcases concat_eq_append_cons_iff.1 heq with ⟨rfl, rfl, rfl⟩ | ⟨rest, rfl, rfl⟩
    · exact .inr ⟨time, rfl, hp, hfree⟩
    · obtain ⟨hr, hrlast⟩ := lasts_concat.1 hr
      obtain ⟨hlasts, hplast⟩ := lasts_concat.1 hlasts
      exact .inl ⟨⟨before, time, rest, rfl, hp, hfree, hr, hlasts⟩,
        fun slot hslot => ⟨hrlast slot hslot, hplast slot hslot⟩⟩
  · rintro (⟨⟨before, time, rest, rfl, hp, hfree, hr, hlasts⟩, hlast⟩ | ⟨time, rfl, hp, hfree⟩)
    · refine ⟨before, time, rest ++ [op], concat_eq_append_cons_iff.2 (.inr ⟨rest, rfl, rfl⟩), hp,
        hfree, lasts_concat.2 ⟨hr, fun slot hslot => (hlast slot hslot).1⟩,
        lasts_concat.2 ⟨hlasts, fun slot hslot => (hlast slot hslot).2⟩⟩
    · exact ⟨ops, time, [], rfl, hp, hfree, by simp [Lasts], by simp [Lasts]⟩

/-- One more strategy at the end of a list stands in order if it overtakes none of them. -/
theorem ascending_concat_filter_iff {q l : List (Nat × RuleSet)} (hperm : q.Perm l)
    (hl : Ascending l) (P : RuleSet → Bool) (time : Nat) (r : RuleSet) :
    Ascending ((q ++ [(place time l, r)]).filter fun p => P p.2) ↔
      Ascending (q.filter fun p => P p.2) ∧
        ∀ p ∈ l, FreeBefore l time p.1 → ¬ (P r = true ∧ P p.2 = true) := by
  rw [Ascending, List.filter_append, List.pairwise_append]
  refine and_congr_right fun _ => ?_
  constructor
  · rintro ⟨-, hlt⟩ p hp hfree ⟨hr, hpp⟩
    have hbehind := hlt p (List.mem_filter.2 ⟨hperm.mem_iff.2 hp, hpp⟩) (place time l, r)
      (List.mem_filter.2 ⟨List.mem_singleton_self _, hr⟩)
    exact Nat.lt_asymm hbehind ((place_lt_iff hl).2 hfree)
  · refine fun h => ⟨(List.pairwise_singleton _ _).filter _, fun p hp x hx => ?_⟩
    obtain ⟨hp, hpp⟩ := List.mem_filter.1 hp
    obtain ⟨hx, hr⟩ := List.mem_filter.1 hx
    rw [List.mem_singleton.1 hx] at hr ⊢
    have hp := hperm.mem_iff.1 hp
    -- the place is not that of `p`, and it is not before it
    refine Nat.lt_of_le_of_ne (Nat.le_of_not_lt fun hlt => ?_) (place_ne hl time p hp)
    exact h p hp ((place_lt_iff hl).1 hlt) ⟨hr, hpp⟩

/-- **Some of the pending strategies stand in the order of their places exactly if none of them has
overtaken another.** -/
theorem ascending_queue_filter_iff (k : UInt64) (ops : List Op) (P : RuleSet → Bool) :
    Ascending ((queue k ops).filter fun p => P p.2) ↔
      ∀ r p, Overtakes k ops r p → ¬ (P r = true ∧ P p.2 = true) := by
  induction ops using List.reverseRecOn generalizing P with
  | nil => exact iff_of_true List.Pairwise.nil fun r p h => absurd h (not_overtakes_nil k r p)
  | append_singleton ops op ih =>
    simp only [queue_concat, overtakes_concat_iff]
    cases op with
    | add time r =>
      refine (ascending_concat_filter_iff (queue_perm k ops) (ascending_run_empty k ops) P time
        r).trans ?_
      rw [ih P]
      constructor
      · rintro ⟨hbefore, hnow⟩ r' p (⟨hr', -⟩ | ⟨time', heq, hp, hfree⟩)
        · exact hbefore r' p hr'
        · cases heq
          exact hnow p hp hfree
      · refine fun h => ⟨fun r' p hr' => h r' p (.inl ⟨hr', fun _ => nofun⟩), ?_⟩
        exact fun p hp hfree => h r p (.inr ⟨time, rfl, hp, hfree⟩)
    | poll slot =>
      -- what the look leaves is some of what was pending before
      simp only [enlist, List.filter_filter, hasEnded_run]
      refine (ih fun r => P r && !(empty k).hasEnded slot r).trans ?_
      refine forall_congr' fun r => forall_congr' fun p => ?_
      simp only [Op.poll.injEq, forall_eq', reduceCtorEq, false_and, exists_false, or_false,
        Bool.and_eq_true, Bool.not_eq_true']
      tauto
    | prune oldest => simpa [enlist] using ih P
    | subscribe => simpa [enlist] using ih P
    | read subscriber => simpa [enlist] using ih P

/-! ## Announcements -/

theorem announcesInOrder_iff_ascending (k : UInt64) (ops : List Op) (slot : Slot) :
    AnnouncesInOrder k ops slot ↔
      Ascending ((queue k ops).filter fun p => (empty k).hasEnded slot p.2) := by
  rw [AnnouncesInOrder, hasEnded_run]
  have hascending := (ascending_run_empty k ops).filter fun p => (empty k).hasEnded slot p.2
  constructor
  · intro h
    rwa [← h]
  · intro h
    refine ((queue_perm k ops).symm.filter _).eq_of_pairwise ?_ hascending h
    exact fun _ _ _ _ hab hba => absurd hba (Nat.lt_asymm hab)

/-- The times at which operations install strategies. -/
def times : List Op → List Nat
  | [] => []
  | .add time _ :: rest => time :: times rest
  | _ :: rest => times rest

theorem times_append (ops ops' : List Op) : times (ops ++ ops') = times ops ++ times ops' := by
  induction ops with
  | nil => rfl
  | cons op rest ih =>
    cases op with
    | add time r => exact congrArg (time :: ·) ih
    | poll | prune | subscribe | read => exact ih

/-- No more strategies are pending than were installed. -/
theorem length_pending_le (k : UInt64) (ops : List Op) :
    ((empty k).run ops).pending.length ≤ (times ops).length := by
  induction ops using List.reverseRecOn with
  | nil => exact Nat.le_refl _
  | append_singleton ops op ih =>
    rw [run_concat, times_append, List.length_append]
    cases op with
    | add time r =>
      have hlength := (insertPending_perm_cons time r ((empty k).run ops).pending).length_eq
      exact hlength ▸ Nat.succ_le_succ ih
    | poll slot => exact Nat.le_trans (List.length_filter_le _ _) ih
    | prune | subscribe | read => exact ih

/-- A strategy is put at its time, or behind it by less than the number of installations. -/
theorem exists_time_of_mem_pending {k : UInt64} {ops : List Op} {p : Nat × RuleSet}
    (hp : p ∈ ((empty k).run ops).pending) :
    ∃ t ∈ times ops, t ≤ p.1 ∧ p.1 < t + (times ops).length := by
  induction ops using List.reverseRecOn generalizing p with
  | nil => cases hp
  | append_singleton ops op ih =>
    have hkept (hp : p ∈ ((empty k).run ops).pending) : ∃ t ∈ times (ops ++ [op]),
        t ≤ p.1 ∧ p.1 < t + (times (ops ++ [op])).length := by
      obtain ⟨t, ht, hle, hlt⟩ := ih hp
      rw [times_append, List.length_append]
      exact ⟨t, List.mem_append_left _ ht, hle, by omega⟩
    rw [run_concat] at hp
    cases op with
    | add time r =>
      rcases List.mem_cons.1 ((insertPending_perm_cons _ _ _).mem_iff.1 hp) with rfl | hp
      · have hplace := place_le time ((empty k).run ops).pending
        have hcount := length_pending_le k ops
        refine ⟨time, ?_, le_place _ _, ?_⟩
        · rw [times_append]
          exact List.mem_append_right _ (List.mem_singleton_self _)
        · rw [times_append, List.length_append, times, List.length_cons]
          omega
      · exact hkept hp
    | poll slot => exact hkept (List.mem_filter.1 hp).1
    | prune | subscribe | read => exact hkept hp

/-- **Every place fits a word**, as long as the number of installations can be added to each of their
times within the words. -/
theorem lt_count_of_mem_pending {k : UInt64} {ops : List Op}
    (h : ∀ t ∈ times ops, t + (times ops).length ≤ Word.count) :
    ∀ p ∈ ((empty k).run ops).pending, p.1 < Word.count := by
  intro p hp
  obtain ⟨t, ht, -, hlt⟩ := exists_time_of_mem_pending hp
  exact Nat.lt_of_lt_of_le hlt (h t ht)

/-- Strategies that are installed one after the other, no two in the same moment, get their times as
places. -/
theorem mem_times_of_mem_pending {k : UInt64} {ops : List Op}
    (h : (times ops).Pairwise (· < ·)) {p : Nat × RuleSet}
    (hp : p ∈ ((empty k).run ops).pending) : p.1 ∈ times ops := by
  induction ops using List.reverseRecOn generalizing p with
  | nil => cases hp
  | append_singleton ops op ih =>
    rw [times_append] at h ⊢
    obtain ⟨hbefore, -, hlt⟩ := List.pairwise_append.1 h
    rw [run_concat] at hp
    cases op with
    | add time r =>
      have hplace : place time ((empty k).run ops).pending = time := by
        refine Nat.le_antisymm (Nat.le_of_not_lt fun htaken => ?_) (le_place _ _)
        obtain ⟨q, hq, hqt⟩ := exists_of_lt_place (Nat.le_refl _) htaken
        exact Nat.lt_irrefl _ (hqt ▸ hlt q.1 (ih hbefore hq) time (List.mem_singleton_self _))
      rcases List.mem_cons.1 ((insertPending_perm_cons _ _ _).mem_iff.1 hp) with rfl | hp
      · rw [hplace]
        exact List.mem_append_right _ (List.mem_singleton_self _)
      · exact List.mem_append_left _ (ih hbefore hp)
    | poll slot => exact List.mem_append_left _ (ih hbefore (List.mem_filter.1 hp).1)
    | prune oldest => exact List.mem_append_left _ (ih hbefore hp)
    | subscribe => exact List.mem_append_left _ (ih hbefore hp)
    | read subscriber => exact List.mem_append_left _ (ih hbefore hp)

/-- **If no two strategies are installed in the same moment, every look announces in the order of
installation.** -/
theorem announcesInOrder_of_times_ascend (k : UInt64) {ops : List Op}
    (h : (times ops).Pairwise (· < ·)) (slot : Slot) : AnnouncesInOrder k ops slot := by
  refine (announcesInOrder_iff_ascending k ops slot).2 ?_
  refine (ascending_queue_filter_iff k ops fun r => (empty k).hasEnded slot r).2 fun r p hr => ?_
  obtain ⟨before, time, after, rfl, hp, ⟨t, hle, hlt, -⟩, -⟩ := hr
  rw [times_append] at h
  obtain ⟨hbefore, -, hacross⟩ := List.pairwise_append.1 h
  have hearlier := hacross p.1 (mem_times_of_mem_pending hbefore hp) time List.mem_cons_self
  exact absurd (Nat.lt_of_le_of_lt hle hlt) (Nat.lt_asymm hearlier)

/-- **A look announces in the order of installation exactly if none of those that it announces has
overtaken another of them.** The places in question are words, unless the times of installation come
closer to the end of the words than there are installations. -/
theorem announcesInOrder_iff (k : UInt64) (ops : List Op) (slot : Slot) :
    (queue k ops).Perm ((empty k).run ops).pending ∧
      (AnnouncesInOrder k ops slot ↔
        ∀ r p, Overtakes k ops r p →
          ¬ ((empty k).hasEnded slot r = true ∧ (empty k).hasEnded slot p.2 = true)) ∧
      ((∀ t ∈ times ops, t + (times ops).length ≤ Word.count) →
        ∀ p ∈ ((empty k).run ops).pending, p.1 < Word.count) :=
  ⟨queue_perm k ops, (announcesInOrder_iff_ascending k ops slot).trans
    (ascending_queue_filter_iff k ops fun r => (empty k).hasEnded slot r),
    lt_count_of_mem_pending⟩

/-- Three strategies are installed in the same moment, the third one after the first has ended. -/
def sameMoment : List Op :=
  [.add 7 (single "first" ⟨1⟩), .add 7 (single "second" ⟨1000⟩), .poll ⟨96⟩,
    .add 7 (single "third" ⟨1000⟩)]

/-- **The third takes the place of the first and is announced before the second.** -/
theorem third_announced_before_second :
    (added sameMoment).map (·.uid) = ["first", "second", "third"] ∧
      (((empty 32).run sameMoment).due ⟨1056⟩).map (·.uid) = ["third", "second"] ∧
      ¬ AnnouncesInOrder 32 sameMoment ⟨1056⟩ := by
  decide

end Saboteur.Feedback
