import Saboteur.Proofs.Feedback.Record

/-!
# How long an end is on record

A tracker whose retention is bounded prunes after every look. What counts is the last epoch of a
strategy, not the epoch of the look that announced its end: an end is dropped as soon as a look is
taken more epochs after that last epoch than are to be kept. As a strategy ends two epochs after its
last one at the earliest, a look may drop what it has just announced.
-/

namespace Saboteur.Feedback

/-- Something that happens to a tracker while the feedback loop runs: the loop goes round, or a rule
set is installed in between. -/
inductive Turn where
  | add (time : Nat) (r : RuleSet)
  | look (slot : Slot)

namespace Turn

/-- What a turn does, step by step. -/
def ops (k retention : UInt64) : Turn → List Op
  | add time r => [.add time r]
  | look slot => [.poll slot, .prune ((slot.epoch k).subSat retention)]

end Turn

/-- The tracker after a turn. -/
def turn (f : Feedback) (retention : UInt64) : Turn → Feedback
  | .add time r => f.add time r
  | .look slot => f.tick (some retention) slot

/-- The tracker after some turns. -/
def loop (f : Feedback) (retention : UInt64) (turns : List Turn) : Feedback :=
  turns.foldl (fun f t => f.turn retention t) f

theorem turn_eq_run (f : Feedback) (retention : UInt64) (t : Turn) :
    f.turn retention t = f.run (t.ops f.slotsPerEpoch retention) := by
  cases t <;> rfl

theorem loop_eq_run (f : Feedback) (retention : UInt64) (turns : List Turn) :
    f.loop retention turns = f.run (turns.flatMap (Turn.ops f.slotsPerEpoch retention)) := by
  induction turns generalizing f with
  | nil => rfl
  | cons t rest ih =>
    have hk : (f.turn retention t).slotsPerEpoch = f.slotsPerEpoch := by
      rw [turn_eq_run, slotsPerEpoch_run]
    rw [List.flatMap_cons, run_append, ← turn_eq_run, ← hk]
    exact ih (f.turn retention t)

/-! ## What a look drops -/

/-- A slot is so few epochs after the last epoch of an end that the end is still kept. -/
def Within (k retention : UInt64) (slot : Slot) (e : StrategyEnd) : Prop :=
  (slot.epoch k).toNat ≤ e.maxEpoch.toNat + retention.toNat

instance (k retention : UInt64) (slot : Slot) (e : StrategyEnd) :
    Decidable (Within k retention slot e) := inferInstanceAs (Decidable (_ ≤ _))

theorem keeps_prune_iff {k retention : UInt64} {slot : Slot} {e : StrategyEnd} :
    (Op.prune ((slot.epoch k).subSat retention)).keeps e = true ↔ Within k retention slot e := by
  have hle : (slot.epoch k).subSat retention ≤ e.maxEpoch ↔
      ((slot.epoch k).subSat retention).toNat ≤ e.maxEpoch.toNat := Iff.rfl
  rw [Op.keeps, decide_eq_true_iff, hle, Epoch.toNat_subSat, Within]
  omega

theorem keeps_turn_iff {k retention : UInt64} {t : Turn} {e : StrategyEnd} :
    (∀ op ∈ t.ops k retention, op.keeps e = true) ↔
      ∀ slot, t = .look slot → Within k retention slot e := by
  cases t with
  | add time r => simp [Turn.ops, Op.keeps]
  | look slot =>
    rw [Turn.ops, List.forall_mem_cons, List.forall_mem_singleton, keeps_prune_iff]
    simp [Op.keeps]

theorem keeps_turns_iff {k retention : UInt64} {turns : List Turn} {e : StrategyEnd} :
    (∀ op ∈ turns.flatMap (Turn.ops k retention), op.keeps e = true) ↔
      ∀ slot, .look slot ∈ turns → Within k retention slot e := by
  rw [List.forall_mem_flatMap]
  constructor
  · intro h slot hmem
    exact keeps_turn_iff.1 (h _ hmem) slot rfl
  · intro h t ht
    exact keeps_turn_iff.2 fun slot hslot => h slot (hslot ▸ ht)

/-! ## Retention -/

/-- **An end that a look announces, last under its name, is on record after that turn of the loop and
after further turns that announce nothing under the name, exactly if none of the looks, the first
included, was more epochs after the last epoch of the strategy than are to be kept.** -/
theorem completed?_loop_iff_within (k retention : UInt64) (ops : List Op) (slot : Slot)
    (turns : List Turn) {e : StrategyEnd}
    (hdue : lastOf? e.uid (((empty k).run ops).due slot) = some e)
    (hsilent : (((empty k).run ops).tick (some retention) slot).Silent
      (turns.flatMap (Turn.ops k retention)) e.uid) :
    ((((empty k).run ops).tick (some retention) slot).loop retention turns).completed? e.uid =
        some e ↔
      Within k retention slot e ∧ ∀ s, .look s ∈ turns → Within k retention s e := by
  have hk : ((empty k).run ops).slotsPerEpoch = k := slotsPerEpoch_run _ _
  set f := (empty k).run ops
  have hdistinct : f.completed.Distinct := distinct_completed_run Table.distinct_empty ops
  set prune : Op := .prune ((slot.epoch k).subSat retention) with hprune
  have htick : f.tick (some retention) slot = (f.step (.poll slot)).step prune := by
    rw [hprune, ← hk]
    rfl
  have hloop : (f.tick (some retention) slot).loop retention turns =
      (f.step (.poll slot)).run (prune :: turns.flatMap (Turn.ops k retention)) := by
    rw [loop_eq_run, htick, slotsPerEpoch_step, slotsPerEpoch_step, hk]
    rfl
  have hannounced : (f.step (.poll slot)).completed? e.uid = some e := by
    rw [completed?_step hdistinct, announces?, hdue, Option.some_or]
  have hquiet : (f.step (.poll slot)).Silent
      (prune :: turns.flatMap (Turn.ops k retention)) e.uid :=
    silent_cons.2 ⟨rfl, htick ▸ hsilent⟩
  rw [hloop, completed?_run_of_silent (distinct_completed_step hdistinct _) hquiet,
    List.forall_mem_cons, hprune, keeps_prune_iff, keeps_turns_iff]
  exact and_iff_right hannounced

/-- A strategy that ends at slot 96. -/
def shortLived : List Op := [.add 1 (single "short" ⟨50⟩)]

/-- Its end. -/
def shortEnd : StrategyEnd := ⟨"short", ⟨1⟩, ⟨1⟩⟩

/-- Two strategies of one name that end at the same look. -/
def namesakes : List Op := [.add 1 (single "twin" ⟨10⟩), .add 2 (single "twin" ⟨50⟩)]

/-- **A look may drop at once what it has announced, and of two ends under a name it keeps only the
last.** -/
theorem announced_and_dropped :
    (((empty 32).run shortLived).due ⟨96⟩ = [shortEnd] ∧
        (((empty 32).run shortLived).tick (some 0) ⟨96⟩).completed? "short" = none) ∧
      ((empty 32).run namesakes).due ⟨96⟩ = [⟨"twin", ⟨0⟩, ⟨0⟩⟩, ⟨"twin", ⟨1⟩, ⟨1⟩⟩] ∧
        (((empty 32).run namesakes).tick (some 5) ⟨96⟩).completed? "twin" =
          some ⟨"twin", ⟨1⟩, ⟨1⟩⟩ := by
  decide

/-- A retention of two epochs reaches from epoch 1 to epoch 3 and not to epoch 4. -/
theorem completed?_loop_iff_within_shortLived :
    let f := (empty 32).run shortLived
    lastOf? shortEnd.uid (f.due ⟨96⟩) = some shortEnd ∧
      (f.tick (some 2) ⟨96⟩).Silent ([.look ⟨127⟩, .look ⟨128⟩].flatMap (Turn.ops 32 2))
        shortEnd.uid ∧
      ((f.tick (some 2) ⟨96⟩).loop 2 [.look ⟨127⟩]).completed? "short" = some shortEnd ∧
      ((f.tick (some 2) ⟨96⟩).loop 2 [.look ⟨127⟩, .look ⟨128⟩]).completed? "short" ≠
        some shortEnd := by
  intro f
  have hdue : lastOf? shortEnd.uid (f.due ⟨96⟩) = some shortEnd := by decide
  have hsilent : (f.tick (some 2) ⟨96⟩).Silent
      ([.look ⟨127⟩, .look ⟨128⟩].flatMap (Turn.ops 32 2)) shortEnd.uid := by decide
  have hone := completed?_loop_iff_within 32 2 shortLived ⟨96⟩ [.look ⟨127⟩] hdue (by decide)
  have htwo := completed?_loop_iff_within 32 2 shortLived ⟨96⟩ [.look ⟨127⟩, .look ⟨128⟩] hdue
    hsilent
  refine ⟨hdue, hsilent, hone.2 ⟨by decide, ?_⟩, fun h => ?_⟩
  · intro s hs
    cases List.mem_singleton.1 hs
    decide
  · exact absurd ((htwo.1 h).2 ⟨128⟩ (by simp)) (by decide)

end Saboteur.Feedback
