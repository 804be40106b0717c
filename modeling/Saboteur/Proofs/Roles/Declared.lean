import Saboteur.Proofs.Roles.Windows
import Saboteur.Proofs.Service.Run
import Saboteur.Proofs.Strategy.Compilation

/-!
# Declared windows decide

Before anyone asks for a role, the windows of a document have been regrouped by validator, and the
answer may come from a window, from a record or from nowhere. For a validator that the document
declares it comes from the declarations, and from what they cover together: in which order they
stand, whether they overlap, and what the store says do not come into it.
-/

namespace Saboteur

open ValidatorStore

namespace Strategy

/-- A document declares a window for a validator. -/
def Declares (d : Strategy) (index : UInt64) : Prop :=
  ∃ w ∈ d.validators, w.validatorIndex = index

/-- The declarations of a validator in a document cover a slot. -/
def Covers (d : Strategy) (index : UInt64) (slot : Slot) : Prop :=
  ∃ w ∈ d.validators, w.validatorIndex = index ∧ ⟨w.startSlot⟩ ≤ slot ∧ slot ≤ ⟨w.endSlot⟩

instance (d : Strategy) (index : UInt64) : Decidable (d.Declares index) :=
  inferInstanceAs (Decidable (∃ w ∈ d.validators, w.validatorIndex = index))

instance (d : Strategy) (index : UInt64) (slot : Slot) : Decidable (d.Covers index slot) :=
  inferInstanceAs (Decidable (∃ w ∈ d.validators,
    w.validatorIndex = index ∧ ⟨w.startSlot⟩ ≤ slot ∧ slot ≤ ⟨w.endSlot⟩))

variable {d d' : Strategy} {index : UInt64}

/-- What is declared for a validator is a set of windows. -/
theorem declares_congr
    (h : ∀ w, w.validatorIndex = index → (w ∈ d.validators ↔ w ∈ d'.validators)) :
    d.Declares index ↔ d'.Declares index :=
  exists_congr fun w => and_congr_left fun hw => h w hw

theorem covers_congr
    (h : ∀ w, w.validatorIndex = index → (w ∈ d.validators ↔ w ∈ d'.validators)) (slot : Slot) :
    d.Covers index slot ↔ d'.Covers index slot :=
  exists_congr fun w => and_congr_left fun hw => h w hw.1

end Strategy

namespace Context

/-- A context of a compiled document: it carries the windows that the document was compiled to. -/
def IsOf (ctx : Context) (d : Strategy) : Prop :=
  ∃ uid r rules r', RuleSet.compile d uid r = .ok (rules, r') ∧ ctx.windows = rules.windows

/-- **A rule set gives the roles of the validators that it declares, and the store those of the
others.** -/
theorem roleOf_eq {ctx : Context} {rules : RuleSet} (h : ctx.windows = rules.windows)
    (store : ValidatorStore) (slot : Slot) (index : UInt64) :
    ctx.roleOf store slot index =
      if rules.Declares index then
        if rules.Attacks index slot then .attacker else .normal
      else store.storedRole index := by
  rw [roleOf, roleWithin_eq, h, RuleSet.role?_windows]
  split <;> rfl

variable {ctx ctx' : Context} {d d' : Strategy} {index : UInt64}

theorem IsOf.roleOf_eq_attacker_iff (h : ctx.IsOf d) (hi : d.Declares index)
    (store : ValidatorStore) (slot : Slot) :
    ctx.roleOf store slot index = .attacker ↔ d.Covers index slot := by
  obtain ⟨uid, r, rules, r', hcompile, hwindows⟩ := h
  obtain ⟨-, -, rfl, -⟩ := RuleSet.compile_eq_ok_iff.1 hcompile
  have hdeclares : rules.Declares index := hi
  rw [roleOf_eq hwindows, if_pos hdeclares]
  by_cases ha : rules.Attacks index slot
  · exact iff_of_true (if_pos ha) ha
  · rw [if_neg ha]
    exact iff_of_false nofun ha

/-- **Documents that cover the same slots for a validator give it the same roles.** -/
theorem IsOf.roleOf_eq_iff (h : ctx.IsOf d) (hi : d.Declares index) (h' : ctx'.IsOf d')
    (hi' : d'.Declares index) (store store' : ValidatorStore) (slot : Slot) :
    ctx.roleOf store slot index = ctx'.roleOf store' slot index ↔
      (d.Covers index slot ↔ d'.Covers index slot) := by
  rw [← h.roleOf_eq_attacker_iff hi store, ← h'.roleOf_eq_attacker_iff hi' store']
  cases ctx.roleOf store slot index <;> cases ctx'.roleOf store' slot index <;> simp

end Context

namespace Service

variable {β : Type} [Backend β]

theorem isOf_context_install {s : Service β} {time : UInt64} {random : RandomStream}
    {d : Strategy} {rules : RuleSet} (h : compiled? time random d = some rules) :
    (s.step (.install time random d)).context.IsOf d := by
  obtain ⟨hnone, -⟩ | ⟨rules', hrules, hs⟩ := s.step_install time random d
  · rw [h] at hnone
    cases hnone
  · rw [hs]
    unfold compiled? at hrules
    split at hrules
    case h_1 result r' hcompile =>
      cases hrules
      exact ⟨_, _, _, _, hcompile, rfl⟩
    case h_2 => cases hrules

/-- **Declared windows decide.** In a context of a document a validator that it declares attacks
exactly in the slots that its declarations cover, whatever the store says of it. The same windows in
another order, again or among those of others make no difference, nor do other windows that cover
the same slots together, nor anything that happens to a service while a call is in flight. -/
theorem roleOf_eq_attacker_iff_covers {d : Strategy} {ctx : Context} (h : ctx.IsOf d)
    {index : UInt64} (hi : d.Declares index) :
    (∀ store slot, ctx.roleOf store slot index = .attacker ↔
      ∃ w ∈ d.validators, w.validatorIndex = index ∧ ⟨w.startSlot⟩ ≤ slot ∧ slot ≤ ⟨w.endSlot⟩) ∧
    (∀ d' ctx', Context.IsOf ctx' d' →
      (∀ w, w.validatorIndex = index → (w ∈ d.validators ↔ w ∈ d'.validators)) →
      ∀ store store' slot, ctx'.roleOf store' slot index = ctx.roleOf store slot index) ∧
    (∀ d' ctx', Context.IsOf ctx' d' → d'.Declares index →
      ∀ store store' slot, ctx'.roleOf store' slot index = ctx.roleOf store slot index ↔
        (d'.Covers index slot ↔ d.Covers index slot)) ∧
    (∀ store store' slot, ctx.roleOf store' slot index = ctx.roleOf store slot index) ∧
    ∀ s : Service β, s.context.IsOf d → ∀ es slot,
      s.context.roleOf (s.run es).validators slot index = .attacker ↔ d.Covers index slot := by
  refine ⟨h.roleOf_eq_attacker_iff hi, fun d' ctx' h' hsame store store' slot => ?_,
    fun d' ctx' h' hi' store store' slot => h'.roleOf_eq_iff hi' h hi store' store slot,
    fun store store' slot => (h.roleOf_eq_iff hi h hi store' store slot).2 Iff.rfl,
    fun s hs es slot => hs.roleOf_eq_attacker_iff hi _ slot⟩
  have hi' := (Strategy.declares_congr hsame).1 hi
  exact (h'.roleOf_eq_iff hi' h hi store' store slot).2 (Strategy.covers_congr hsame slot).symm

/-- A document with windows that overlap and that are declared twice. -/
def overlapping : Strategy :=
  { Strategy.empty with
    uid := some "a", validators := [⟨7, 150, 300⟩, ⟨9, 0, 5⟩, ⟨7, 100, 200⟩, ⟨7, 150, 300⟩] }

/-- Its context. -/
def overlappingContext : Context :=
  { spec := ChainSpec.mainnet, clock := ChainSpec.mainnet.clock .zero,
    windows := RuleSet.windows ⟨"a", overlapping, []⟩ }

theorem roleOf_eq_attacker_iff_covers_overlapping :
    overlappingContext.IsOf overlapping ∧ overlapping.Declares 7 ∧
      ∀ store, overlappingContext.roleOf store ⟨250⟩ 7 = .attacker ∧
        overlappingContext.roleOf store ⟨301⟩ 7 ≠ .attacker := by
  have hof : overlappingContext.IsOf overlapping :=
    ⟨"a", RandomStream.progression 0 0, ⟨"a", overlapping, []⟩, _, rfl, rfl⟩
  have hdeclares : overlapping.Declares 7 := by decide
  have hlaw := (roleOf_eq_attacker_iff_covers (β := Rehearsal) hof hdeclares).1
  refine ⟨hof, hdeclares, fun store => ⟨(hlaw store ⟨250⟩).2 (by decide), fun hattacks => ?_⟩⟩
  exact absurd ((hlaw store ⟨301⟩).1 hattacks) (by decide)

end Service

end Saboteur
