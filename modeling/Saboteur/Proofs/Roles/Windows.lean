import Saboteur.Strategy.RuleSet

/-!
# Declared windows

A strategy lists windows one by one. They are regrouped by validator before anyone asks for a role,
and the statements here speak of the list again: whether it declares a window for a validator, and
whether one of those contains a slot.
-/

namespace Saboteur

namespace Windows

/-- The windows that a list of declarations holds for a validator. -/
def declaredFor (index : UInt64) (ds : List (UInt64 × Window)) : List Window :=
  (ds.filter fun d => d.1 = index).map Prod.snd

theorem mem_declaredFor {index : UInt64} {ds : List (UInt64 × Window)} {w : Window} :
    w ∈ declaredFor index ds ↔ (index, w) ∈ ds := by
  simp [declaredFor]

/-- The windows of a validator after more declarations: those from before, then the new ones. -/
theorem get?_foldl_declarations (index : UInt64) (ds : List (UInt64 × Window)) (ws : Windows) :
    (ds.foldl (fun ws d => ws.alter d.1 [] (· ++ [d.2])) ws).get? index =
      if declaredFor index ds = [] then ws.get? index
      else some ((ws.get? index).getD [] ++ declaredFor index ds) := by
  induction ds generalizing ws with
  | nil => simp [declaredFor]
  | cons d rest ih =>
    rw [List.foldl_cons, ih]
    by_cases h : d.1 = index
    · have hd : declaredFor index (d :: rest) = d.2 :: declaredFor index rest := by
        simp [declaredFor, h]
      rw [hd, if_neg (List.cons_ne_nil _ _)]
      by_cases hr : declaredFor index rest = []
      · simp [hr, Table.alter, h]
      · simp [hr, Table.alter, h]
    · have hd : declaredFor index (d :: rest) = declaredFor index rest := by
        simp [declaredFor, h]
      rw [hd]
      simp [Table.alter, h]

theorem get?_ofDeclarations (index : UInt64) (ds : List (UInt64 × Window)) :
    (ofDeclarations ds).get? index =
      if declaredFor index ds = [] then none else some (declaredFor index ds) := by
  simp [ofDeclarations, get?_foldl_declarations]

/-- **A validator without declarations has no role from the windows, and any other is an attacker
inside its declarations only.** -/
theorem role?_ofDeclarations (ds : List (UInt64 × Window)) (s : Slot) (index : UInt64) :
    (ofDeclarations ds).role? s index =
      if declaredFor index ds = [] then none
      else some (Role.ofBool ((declaredFor index ds).any (·.contains s))) := by
  rw [role?, get?_ofDeclarations]
  split <;> rfl

end Windows

namespace RuleSet

/-- A rule set declares a window for a validator. -/
def Declares (r : RuleSet) (index : UInt64) : Prop :=
  ∃ w ∈ r.strategy.validators, w.validatorIndex = index

/-- A rule set declares a window for a validator that contains a slot. -/
def Attacks (r : RuleSet) (index : UInt64) (s : Slot) : Prop :=
  ∃ w ∈ r.strategy.validators, w.validatorIndex = index ∧ ⟨w.startSlot⟩ ≤ s ∧ s ≤ ⟨w.endSlot⟩

instance (r : RuleSet) (index : UInt64) : Decidable (r.Declares index) :=
  inferInstanceAs (Decidable (∃ w ∈ r.strategy.validators, w.validatorIndex = index))

instance (r : RuleSet) (index : UInt64) (s : Slot) : Decidable (r.Attacks index s) :=
  inferInstanceAs (Decidable (∃ w ∈ r.strategy.validators,
    w.validatorIndex = index ∧ ⟨w.startSlot⟩ ≤ s ∧ s ≤ ⟨w.endSlot⟩))

theorem declares_of_attacks {r : RuleSet} {index : UInt64} {s : Slot} (h : r.Attacks index s) :
    r.Declares index := by
  obtain ⟨w, hw, hi, -⟩ := h
  exact ⟨w, hw, hi⟩

theorem declaredFor_declarations_eq_nil {r : RuleSet} {index : UInt64} :
    Windows.declaredFor index r.strategy.declarations = [] ↔ ¬ r.Declares index := by
  simp [Windows.declaredFor, Strategy.declarations, Declares]

theorem any_contains_declarations {r : RuleSet} {index : UInt64} {s : Slot} :
    (Windows.declaredFor index r.strategy.declarations).any (·.contains s) = true ↔
      r.Attacks index s := by
  simp only [List.any_eq_true, Windows.mem_declaredFor, Strategy.declarations, List.mem_map,
    Attacks, Window.contains, Bool.and_eq_true, decide_eq_true_eq]
  constructor
  · rintro ⟨_, ⟨w, hw, he⟩, hs⟩
    obtain ⟨rfl, rfl⟩ := Prod.mk.inj he
    exact ⟨w, hw, rfl, hs⟩
  · rintro ⟨w, hw, rfl, hs⟩
    exact ⟨w.window, ⟨w, hw, rfl⟩, hs⟩

/-- **The windows of a rule set give a role to the validators that it declares.** -/
theorem role?_windows (r : RuleSet) (s : Slot) (index : UInt64) :
    r.windows.role? s index =
      if r.Declares index then some (if r.Attacks index s then .attacker else .normal)
      else none := by
  rw [windows, Windows.role?_ofDeclarations]
  by_cases hd : r.Declares index
  · rw [if_neg (fun h => declaredFor_declarations_eq_nil.mp h hd), if_pos hd, Role.ofBool]
    simp only [any_contains_declarations]
  · rw [if_pos (declaredFor_declarations_eq_nil.mpr hd), if_neg hd]

end RuleSet

end Saboteur
