import Saboteur.Action.Execution
import Saboteur.Proofs.Clock.Waiting
import Saboteur.Proofs.Epochs

/-!
# How long delays last

Four delays have a parameter that says how far off they end: so many epochs further on, or so many
seconds into the next slot. A larger parameter moves the end back, and a call is held back for
longer, as long as the end can be computed. Where it cannot, because it is further off than a
clock can reckon, the call is not held back at all. So a larger parameter makes a shorter wait
exactly when its end is beyond the clock while the end of the smaller one is still to come.
-/

namespace Saboteur

namespace Action

/-- How long an action holds back a call at a slot. -/
def waitAt (ctx : Context) (slot : Slot) (a : Action) : Duration :=
  ((a.delay? slot ctx.spec).map ctx.wait).getD Duration.zero

/-- **Executing an action takes as long as its delay, and no time if it has none.** -/
theorem wait_execute {β : Type} [Backend β] (ctx : Context) (a : Action) (slot : Slot)
    (pubkey : Pubkey) (payload : Option Payload) (store : ValidatorStore) (b : β) :
    ((a.execute ctx slot pubkey payload store).run b).1.1.wait = a.waitAt ctx slot := by
  cases a with
  | packPooledAttest | rePackAttestation =>
    cases payload with
    | none => rfl
    | some p =>
      simp only [execute]
      split <;> rfl
  | modifyParentRoot target =>
    simp only [execute, StateT.run_bind]
    obtain ⟨answer, _⟩ := (blockRoot target : StateM β _).run b
    cases answer <;> rfl
  | _ => rfl

/-! ## Parameters -/

/-- The delays whose parameter says how far off they end. -/
def graded : List (UInt64 → Action) :=
  [delayToNextNEpochStart, delayToNextNEpochEnd, delayToNextNEpochHalf, delayToAfterNextSlot]

/-- The end of a delay can be computed. -/
def HasEnd (ctx : Context) (slot : Slot) (a : Action) : Prop :=
  ∃ target offset, a.delay? slot ctx.spec = some (.untilSlot target offset) ∧
    ctx.clock.Reaches target offset

/-- **A larger parameter does not move the end of a delay forward.** -/
theorem delay?_of_le {f : UInt64 → Action} (hf : f ∈ graded) {n m : UInt64} (h : n ≤ m)
    (slot : Slot) (spec : ChainSpec) :
    ∃ target target' offset offset',
      (f n).delay? slot spec = some (.untilSlot target offset) ∧
        (f m).delay? slot spec = some (.untilSlot target' offset') ∧
          target ≤ target' ∧ offset ≤ offset' := by
  let k := spec.slotsPerEpoch
  have hepoch : (slot.epoch k).addSat n ≤ (slot.epoch k).addSat m :=
    Epoch.addSat_le_addSat _ h
  have hstart := Epoch.startSlot_le_startSlot hepoch k
  have hsame : Duration.zero ≤ Duration.zero := Nat.le_refl _
  simp only [graded, List.mem_cons, List.not_mem_nil, or_false] at hf
  rcases hf with rfl | rfl | rfl | rfl
  · exact ⟨_, _, _, _, rfl, rfl, hstart, hsame⟩
  · exact ⟨_, _, _, _, rfl, rfl, Epoch.endSlot_le_endSlot hepoch k, hsame⟩
  · exact ⟨_, _, _, _, rfl, rfl, Slot.addSat_le_addSat hstart _, hsame⟩
  · have hseconds : Duration.ofSeconds n ≤ Duration.ofSeconds m := Nat.mul_le_mul_right _ h
    exact ⟨_, _, _, _, rfl, rfl, Nat.le_refl _, hseconds⟩

theorem waitAt_of_untilSlot {ctx : Context} {slot target : Slot} {offset : Duration} {a : Action}
    (h : a.delay? slot ctx.spec = some (.untilSlot target offset)) :
    a.waitAt ctx slot = ctx.clock.timeUntil target offset := by
  rw [waitAt, h]
  rfl

/-- **A larger parameter makes for a wait that is not shorter, exactly if the end can be computed or
the smaller parameter makes for no wait either.** -/
theorem waitAt_le_waitAt_iff (ctx : Context) (slot : Slot) {f : UInt64 → Action} (hf : f ∈ graded)
    {n m : UInt64} (h : n ≤ m) :
    (f n).waitAt ctx slot ≤ (f m).waitAt ctx slot ↔
      HasEnd ctx slot (f m) ∨ (f n).waitAt ctx slot = Duration.zero := by
  obtain ⟨target, target', offset, offset', hn, hm, htarget, hoffset⟩ :=
    delay?_of_le hf h slot ctx.spec
  rw [waitAt_of_untilSlot hn, waitAt_of_untilSlot hm]
  constructor
  · intro hle
    by_cases hreach : ctx.clock.Reaches target' offset'
    · exact .inl ⟨target', offset', hm, hreach⟩
    · rw [SlotClock.timeUntil_of_not_reaches hreach] at hle
      exact .inr (Duration.eq_zero_of_le_zero hle)
  · rintro (⟨_, _, hend, hreach⟩ | hzero)
    · obtain ⟨rfl, rfl⟩ := Delay.untilSlot.inj (Option.some.inj (hm.symm.trans hend))
      exact SlotClock.timeUntil_le_timeUntil htarget hoffset hreach
    · rw [hzero]
      exact Duration.zero_le _

/-- The main network at its beginning. -/
def atBeginning : Context :=
  ⟨ChainSpec.mainnet, ChainSpec.mainnet.clock Duration.zero, Table.empty⟩

/-- The last epoch whose beginning the clock can reckon with. -/
theorem waitAt_le_waitAt_iff_atBeginning :
    delayToNextNEpochStart ∈ graded ∧ (1 : UInt64) ≤ 134217727 ∧
      HasEnd atBeginning ⟨0⟩ (delayToNextNEpochStart 134217727) ∧
      ((delayToNextNEpochStart 1).waitAt atBeginning ⟨0⟩ ≤
          (delayToNextNEpochStart 134217727).waitAt atBeginning ⟨0⟩ ↔
        HasEnd atBeginning ⟨0⟩ (delayToNextNEpochStart 134217727) ∨
          (delayToNextNEpochStart 1).waitAt atBeginning ⟨0⟩ = Duration.zero) :=
  ⟨List.mem_cons_self, by decide, ⟨⟨4294967264⟩, Duration.zero, by decide, by decide⟩,
    waitAt_le_waitAt_iff atBeginning ⟨0⟩ List.mem_cons_self (by decide)⟩

/-- **One epoch further on, the call is not held back at all.** -/
theorem waitAt_beyond_reckoning :
    (delayToNextNEpochStart 1).waitAt atBeginning ⟨0⟩ = Duration.ofSeconds 384 ∧
      (delayToNextNEpochStart 134217728).waitAt atBeginning ⟨0⟩ = Duration.zero ∧
      ¬ (delayToNextNEpochStart 1).waitAt atBeginning ⟨0⟩ ≤
        (delayToNextNEpochStart 134217728).waitAt atBeginning ⟨0⟩ := by
  decide

end Action

end Saboteur
