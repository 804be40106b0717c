import Saboteur.Feedback

/-!
# Runs of the tracker

What is done to a tracker of strategies comes one after the other, in any order: strategies are
added, looks are taken at a slot, old ends are forgotten, subscribers come and read. A run is
followed by what it added and by what its looks announced.

The main statement is the conservation of strategies: what was added is still pending or was
announced, each once. Times do not matter for it: a strategy whose time is taken is put elsewhere
and replaces nothing.
-/

namespace Saboteur.Feedback

/-- Something that is done to a tracker. -/
inductive Op where
  /-- A rule set is installed at a time. -/
  | add (time : Nat) (r : RuleSet)
  /-- A look is taken at a slot. -/
  | poll (slot : Slot)
  /-- Ends before an epoch are forgotten. -/
  | prune (oldest : Epoch)
  | subscribe
  /-- A subscriber reads its mailbox. -/
  | read (subscriber : Nat)

/-- The tracker after an operation. -/
def step (f : Feedback) : Op → Feedback
  | .add time r => f.add time r
  | .poll slot => f.poll slot
  | .prune oldest => f.pruneCompleted oldest
  | .subscribe => f.subscribe
  | .read subscriber => f.clearMailbox subscriber

/-- The tracker after some operations. -/
def run (f : Feedback) (ops : List Op) : Feedback := ops.foldl step f

/-- The rule sets that operations add, in order. -/
def added : List Op → List RuleSet
  | [] => []
  | .add _ r :: rest => r :: added rest
  | _ :: rest => added rest

/-- What the looks of a run announce, each with the slot of the look. -/
def announced (f : Feedback) : List Op → List (Slot × List StrategyEnd)
  | [] => []
  | .poll slot :: rest => (slot, f.due slot) :: announced (f.poll slot) rest
  | op :: rest => announced (f.step op) rest

theorem run_concat (f : Feedback) (ops : List Op) (op : Op) :
    f.run (ops ++ [op]) = (f.run ops).step op := by
  simp [run]

theorem run_append (f : Feedback) (ops ops' : List Op) :
    f.run (ops ++ ops') = (f.run ops).run ops' := List.foldl_append

theorem added_append (ops ops' : List Op) : added (ops ++ ops') = added ops ++ added ops' := by
  induction ops with
  | nil => rfl
  | cons op rest ih =>
    cases op with
    | add time r => exact congrArg (r :: ·) ih
    | poll | prune | subscribe | read => exact ih

theorem announced_append (f : Feedback) (ops ops' : List Op) :
    f.announced (ops ++ ops') = f.announced ops ++ (f.run ops).announced ops' := by
  induction ops generalizing f with
  | nil => rfl
  | cons op rest ih =>
    cases op with
    | poll slot => exact congrArg ((slot, f.due slot) :: ·) (ih (f.poll slot))
    | add | prune | subscribe | read => exact ih _

theorem slotsPerEpoch_step (f : Feedback) (op : Op) :
    (f.step op).slotsPerEpoch = f.slotsPerEpoch := by
  cases op <;> rfl

theorem slotsPerEpoch_run (f : Feedback) (ops : List Op) :
    (f.run ops).slotsPerEpoch = f.slotsPerEpoch := by
  induction ops generalizing f with
  | nil => rfl
  | cons op rest ih => exact (ih (f.step op)).trans (slotsPerEpoch_step f op)

/-! ## Adding -/

/-- The time at which a rule set is put in: the given one, or else the next that is free. -/
def place (time : Nat) : List (Nat × RuleSet) → Nat
  | [] => time
  | (t, _) :: rest =>
    if time < t then time else if time = t then place (time + 1) rest else place time rest

/-- No strategy is put before its time. -/
theorem le_place (time : Nat) (l : List (Nat × RuleSet)) : time ≤ place time l := by
  induction l generalizing time with
  | nil => exact Nat.le_refl _
  | cons p rest ih =>
    rw [place]
    split
    · exact Nat.le_refl _
    · split
      · exact Nat.le_trans (Nat.le_succ _) (ih _)
      · exact ih _

/-- Only times that are taken are passed over. -/
theorem place_le (time : Nat) (l : List (Nat × RuleSet)) : place time l ≤ time + l.length := by
  induction l generalizing time with
  | nil => exact Nat.le_refl _
  | cons p rest ih =>
    have hrest := ih time
    have hnext := ih (time + 1)
    rw [place, List.length_cons]
    split
    · omega
    · split <;> omega

/-- A rule set that is put in finds a place of its own, and every other one keeps its. -/
theorem insertPending_perm_cons (time : Nat) (r : RuleSet) (l : List (Nat × RuleSet)) :
    (insertPending time r l).Perm ((place time l, r) :: l) := by
  induction l generalizing time with
  | nil => exact List.Perm.refl _
  | cons p rest ih =>
    rw [insertPending, place]
    split
    · exact List.Perm.refl _
    · split
      · exact ((ih _).cons p).trans (List.Perm.swap _ _ _)
      · exact ((ih _).cons p).trans (List.Perm.swap _ _ _)

theorem insertPending_perm (time : Nat) (r : RuleSet) (l : List (Nat × RuleSet)) :
    ((insertPending time r l).map Prod.snd).Perm (r :: l.map Prod.snd) :=
  (insertPending_perm_cons time r l).map Prod.snd

/-- Behind an insertion every strategy was there before or stands at the time of insertion or later.
-/
theorem mem_insertPending {time : Nat} {r : RuleSet} {l : List (Nat × RuleSet)}
    {p : Nat × RuleSet} (h : p ∈ insertPending time r l) : p ∈ l ∨ time ≤ p.1 := by
  rcases List.mem_cons.1 ((insertPending_perm_cons time r l).mem_iff.1 h) with rfl | h
  · exact .inr (le_place _ _)
  · exact .inl h

/-- Strategies are pending in the order of their times, and no two at the same time. -/
def Ascending (l : List (Nat × RuleSet)) : Prop := l.Pairwise fun p q => p.1 < q.1

/-- Insertion keeps the order of the times. -/
theorem Ascending.insertPending {l : List (Nat × RuleSet)} (h : Ascending l) (time : Nat)
    (r : RuleSet) : Ascending (insertPending time r l) := by
  induction l generalizing time with
  | nil => exact List.pairwise_singleton _ _
  | cons q rest ih =>
    obtain ⟨t, other⟩ := q
    obtain ⟨hhead, hrest⟩ := List.pairwise_cons.1 h
    rw [Feedback.insertPending]
    split
    · rename_i hlt
      refine List.pairwise_cons.2 ⟨?_, h⟩
      intro p hp
      rcases List.mem_cons.1 hp with rfl | hp
      · exact hlt
      · exact Nat.lt_trans hlt (hhead p hp)
    · split
      · refine List.pairwise_cons.2 ⟨fun p hp => ?_, ih hrest _⟩
        rcases mem_insertPending hp with hp | hle
        · exact hhead p hp
        · simp only
          omega
      · refine List.pairwise_cons.2 ⟨fun p hp => ?_, ih hrest _⟩
        rcases mem_insertPending hp with hp | hle
        · exact hhead p hp
        · simp only
          omega

/-- No operation disturbs the order of the times. -/
theorem ascending_step {f : Feedback} (h : Ascending f.pending) (op : Op) :
    Ascending (f.step op).pending := by
  cases op with
  | add time r => exact h.insertPending time r
  | poll slot => exact List.Pairwise.filter _ h
  | prune oldest => exact h
  | subscribe => exact h
  | read subscriber => exact h

/-- No run disturbs the order of the times. -/
theorem ascending_run {f : Feedback} (h : Ascending f.pending) (ops : List Op) :
    Ascending (f.run ops).pending := by
  induction ops generalizing f with
  | nil => exact h
  | cons op rest ih => exact ih (ascending_step h op)

theorem ascending_run_empty (k : UInt64) (ops : List Op) : Ascending ((empty k).run ops).pending :=
  have hempty : Ascending (empty k).pending := List.Pairwise.nil
  ascending_run hempty ops

/-! ## Looking -/

/-- The rule sets that end at a look, in the order of their times. -/
def ending (f : Feedback) (slot : Slot) : List RuleSet :=
  (f.pending.map Prod.snd).filter fun r => f.hasEnded slot r

theorem due_eq (f : Feedback) (slot : Slot) : f.due slot = (f.ending slot).map f.endOf := by
  rw [due, ending, List.filter_map, List.map_map]
  rfl

/-- A look takes away what ends and nothing else. -/
theorem ending_append_pending_poll (f : Feedback) (slot : Slot) :
    (f.ending slot ++ (f.poll slot).pending.map Prod.snd).Perm (f.pending.map Prod.snd) := by
  have hkept : (f.poll slot).pending.map Prod.snd =
      (f.pending.map Prod.snd).filter fun r => !f.hasEnded slot r := by
    rw [List.filter_map]
    rfl
  rw [hkept]
  exact List.filter_append_perm _ _

/-! ## Conservation -/

/-- The rule sets that end at the looks of a run. -/
def endings (f : Feedback) : List Op → List (List RuleSet)
  | [] => []
  | .poll slot :: rest => f.ending slot :: endings (f.poll slot) rest
  | op :: rest => endings (f.step op) rest

/-- **What was pending or is added is pending after the run or ends at one of its looks.** -/
theorem run_pending_append_endings (f : Feedback) (ops : List Op) :
    (((f.run ops).pending.map Prod.snd) ++ (f.endings ops).flatten).Perm
      (f.pending.map Prod.snd ++ added ops) := by
  induction ops generalizing f with
  | nil => exact List.Perm.refl _
  | cons op rest ih =>
    cases op with
    | add time r =>
      refine (ih (f.add time r)).trans ?_
      refine ((insertPending_perm time r f.pending).append_right (added rest)).trans ?_
      exact (List.perm_middle).symm
    | poll slot =>
      have hrest := ih (f.poll slot)
      refine (List.perm_append_comm_assoc ..).trans ?_
      refine (hrest.append_left (f.ending slot)).trans ?_
      rw [← List.append_assoc]
      exact (ending_append_pending_poll f slot).append_right _
    | prune oldest => exact ih (f.pruneCompleted oldest)
    | subscribe => exact ih f.subscribe
    | read subscriber => exact ih (f.clearMailbox subscriber)

end Saboteur.Feedback
