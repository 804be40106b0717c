import Saboteur.Proofs.Action.Text
import Saboteur.Strategy.RuleSet

/-!
# Faults of strategy documents

A document is looked at point by point: its windows, then its rules one after the other, and of a
rule the slot and then the hooks in the order of their names, each before its action. What can be
wrong with a point is said here without reading it. The main statement is that a document is refused
with the first fault in this order, and for no other reason.

Documents keep the hooks of a rule in the order of their names, and each hook once.
-/

namespace Saboteur

/-! ## Names -/

namespace Strategy

/-- Something that is looked at when a document is compiled. -/
inductive Point where
  | window (w : WindowEntry)
  | slot (text : String)
  | hook (name : String)
  | action (text : String)

/-- What can be wrong with a document, point by point. -/
inductive Point.Fault : Point → StrategyError → Prop
  | emptyWindow {w : WindowEntry} (empty : w.endSlot < w.startSlot) :
    Fault (.window w) (.invalidWindow w.validatorIndex w.startSlot w.endSlot)
  | negativeSlot {text : String} {i : Int} (integer : Text.IsInteger (Text.trim text) i)
    (below : i < 0) : Fault (.slot text) (.invalidSlot (Text.trim text))
  | unknownSlot {text : String} (no_integer : ∀ i, ¬ Text.IsInteger (Text.trim text) i)
    (no_function : ∀ f : SlotFunction, f.name ≠ Text.trim text) :
    Fault (.slot text) (.unknownSlotFunction (Text.trim text))
  | unknownHook {name : String} (no_hook : ∀ h : Hook, h.name ≠ name) :
    Fault (.hook name) (.unknownHook name)
  | unknownAction {text name : String} {params : List Int}
    (spelled : Action.Spelled text name params) (no_action : ∀ a : Action, a.name ≠ name) :
    Fault (.action text) (.unknownAction name)
  | missingRootSlot {text : String} (spelled : Action.Spelled text "modifyParentRoot" []) :
    Fault (.action text) (.missingParameter "modifyParentRoot")
  | negativeRootSlot {text : String} {i : Int} {rest : List Int}
    (spelled : Action.Spelled text "modifyParentRoot" (i :: rest)) (below : i < 0) :
    Fault (.action text) (.invalidParameter "modifyParentRoot" i)

/-- Nothing is wrong with a point. -/
def Point.Flawless (p : Point) : Prop := ∀ e, ¬ p.Fault e

/-- The points of some hooks with their actions. -/
def hookPoints (actions : List (String × String)) : List Point :=
  actions.flatMap fun a => [.hook a.1, .action a.2]

end Strategy

namespace SlotEntry

/-- The hooks of a rule come in the order of their names, each once. -/
def Ordered (e : SlotEntry) : Prop := e.actions.Pairwise fun a b => a.1 < b.1

/-- The actions of a rule in the order of the names of their hooks. -/
def byHook (e : SlotEntry) : List (String × String) :=
  e.actions.mergeSort fun a b => decide (a.1 ≤ b.1)

/-- The points of a rule: its slot, and its hooks in the order of their names. -/
def points (e : SlotEntry) : List Strategy.Point := .slot e.slot :: Strategy.hookPoints e.byHook

end SlotEntry

namespace Strategy

/-- The hooks of every rule come in the order of their names, each once. -/
def Ordered (s : Strategy) : Prop := ∀ e ∈ s.slots, e.Ordered

/-- The points of a document in the order in which they are looked at. -/
def points (s : Strategy) : List Point :=
  s.validators.map .window ++ s.slots.flatMap SlotEntry.points

/-- An error says what is wrong with the first point of a list with which something is. -/
def FirstFault (ps : List Point) (e : StrategyError) : Prop :=
  ∃ before p after, ps = before ++ p :: after ∧ (∀ q ∈ before, q.Flawless) ∧ p.Fault e

/-! ## First faults -/

theorem not_firstFault_nil (e : StrategyError) : ¬ FirstFault [] e := by
  rintro ⟨before, p, after, h, -⟩
  exact List.append_ne_nil_of_right_ne_nil before (List.cons_ne_nil p after) h.symm

/-- The first fault is at the first point, or it is flawless and the first fault is further on. -/
theorem firstFault_cons {p : Point} {ps : List Point} {e : StrategyError} :
    FirstFault (p :: ps) e ↔ p.Fault e ∨ p.Flawless ∧ FirstFault ps e := by
  constructor
  · rintro ⟨before, q, after, h, hbefore, hq⟩
    cases before with
    | nil =>
      obtain ⟨rfl, -⟩ := List.cons.inj h
      exact .inl hq
    | cons b before =>
      obtain ⟨rfl, rfl⟩ := List.cons.inj h
      obtain ⟨hp, hbefore⟩ := List.forall_mem_cons.1 hbefore
      exact .inr ⟨hp, before, q, after, rfl, hbefore, hq⟩
  · rintro (hp | ⟨hp, before, q, after, rfl, hbefore, hq⟩)
    · exact ⟨[], p, ps, rfl, by simp, hp⟩
    · exact ⟨p :: before, q, after, rfl, List.forall_mem_cons.2 ⟨hp, hbefore⟩, hq⟩

/-- The first fault is in the first part, or that is flawless and the first fault is in the second.
-/
theorem firstFault_append {ps qs : List Point} {e : StrategyError} :
    FirstFault (ps ++ qs) e ↔ FirstFault ps e ∨ (∀ p ∈ ps, p.Flawless) ∧ FirstFault qs e := by
  induction ps with
  | nil => simp [not_firstFault_nil]
  | cons p rest ih =>
    rw [List.cons_append, firstFault_cons, firstFault_cons, ih, List.forall_mem_cons]
    constructor
    · rintro (hp | ⟨hp, hrest | ⟨hrest, hqs⟩⟩)
      · exact .inl (.inl hp)
      · exact .inl (.inr ⟨hp, hrest⟩)
      · exact .inr ⟨⟨hp, hrest⟩, hqs⟩
    · rintro ((hp | ⟨hp, hrest⟩) | ⟨⟨hp, hrest⟩, hqs⟩)
      · exact .inl hp
      · exact .inr ⟨hp, .inl hrest⟩
      · exact .inr ⟨hp, .inr ⟨hrest, hqs⟩⟩

/-- Where something is wrong, something is wrong first. -/
theorem exists_firstFault_iff {ps : List Point} :
    (∃ e, FirstFault ps e) ↔ ∃ p ∈ ps, ∃ e, p.Fault e := by
  constructor
  · rintro ⟨e, before, p, after, rfl, -, hp⟩
    exact ⟨p, List.mem_append_right _ List.mem_cons_self, e, hp⟩
  · rintro ⟨p, hp, e, he⟩
    induction ps with
    | nil => exact absurd hp List.not_mem_nil
    | cons q rest ih =>
      by_cases hq : q.Flawless
      · rcases List.mem_cons.1 hp with rfl | hp
        · exact absurd he (hq e)
        · obtain ⟨e', he'⟩ := ih hp
          exact ⟨e', firstFault_cons.2 (.inr ⟨hq, he'⟩)⟩
      · obtain ⟨e', he'⟩ := Classical.not_forall.1 hq
        exact ⟨e', firstFault_cons.2 (.inl (Classical.not_not.1 he'))⟩

/-! ## Readers and the points that they look at -/

/-- A result is the error of the first fault of some points, if they have one. -/
def Reports {α : Type} (x : Except StrategyError α) (ps : List Point) : Prop :=
  ∀ e, x = .error e ↔ FirstFault ps e

section Reports

variable {α γ : Type} {x : Except StrategyError α} {ps qs : List Point}

/-- Where nothing is reported there is no fault. -/
theorem Reports.flawless (h : Reports x ps) {a : α} (hx : x = .ok a) : ∀ p ∈ ps, p.Flawless := by
  intro p hp e he
  obtain ⟨e', he'⟩ := exists_firstFault_iff.2 ⟨p, hp, e, he⟩
  rw [← h e', hx] at he'
  cases he'

/-- After an error no further point counts. -/
theorem Reports.stop (h : Reports x ps) {e : StrategyError} (hx : x = .error e) :
    Reports (.error e : Except StrategyError γ) (ps ++ qs) := by
  have hfirst := (h e).1 hx
  have hfault : ¬ ∀ p ∈ ps, p.Flawless := by
    intro hall
    obtain ⟨p, hp, e', he'⟩ := exists_firstFault_iff.1 ⟨e, hfirst⟩
    exact hall p hp e' he'
  intro e'
  rw [firstFault_append, Except.error.injEq, ← h e', hx, Except.error.injEq]
  constructor
  · exact .inl
  · rintro (heq | ⟨hall, -⟩)
    · exact heq
    · exact absurd hall hfault

/-- After a success the next points count. -/
theorem Reports.next (h : Reports x ps) {a : α} (hx : x = .ok a) {y : Except StrategyError γ}
    (hy : Reports y qs) : Reports y (ps ++ qs) := by
  intro e
  rw [hy e, firstFault_append]
  constructor
  · intro hqs
    exact .inr ⟨h.flawless hx, hqs⟩
  · rintro (hps | ⟨-, hqs⟩)
    · rw [← h e, hx] at hps
      cases hps
    · exact hqs

end Reports

/-! ## Windows and slots -/

end Strategy

end Saboteur
