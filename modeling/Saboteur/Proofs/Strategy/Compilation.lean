import Saboteur.Strategy.RuleSet

/-!
# What compiling gives

A document that compiles gives a rule for each of its entries and an action for each of their hooks.
One lemma for each stage says what a success consists of, and how the random stream is handed on.
-/

namespace Saboteur

namespace Rule

theorem compileActions_nil_eq_ok_iff {r r' : RandomStream} {actions : List (Hook × Action)} :
    compileActions r [] = .ok (actions, r') ↔ actions = [] ∧ r' = r := by
  simp only [compileActions, Except.ok.injEq, Prod.mk.injEq]
  exact and_congr eq_comm eq_comm

/-- The first binding compiles with the stream at hand, the others with what it leaves. -/
theorem compileActions_cons_eq_ok_iff {name text : String} {rest : List (String × String)}
    {r r' : RandomStream} {actions : List (Hook × Action)} :
    compileActions r ((name, text) :: rest) = .ok (actions, r') ↔
      ∃ h a between others, Hook.ofName? name = some h ∧ Action.parse text r = .ok (a, between) ∧
        compileActions between rest = .ok (others, r') ∧ actions = (h, a) :: others := by
  rw [compileActions]
  cases hhook : Hook.ofName? name with
  | none => simp
  | some h =>
    cases hparse : Action.parse text r with
    | error e => simp
    | ok result =>
      obtain ⟨a, between⟩ := result
      cases hrest : compileActions between rest with
      | error e => simp [hrest]
      | ok result =>
        obtain ⟨others, after⟩ := result
        simp only [hrest, Except.ok.injEq, Prod.mk.injEq]
        constructor
        · rintro ⟨rfl, rfl⟩
          exact ⟨h, a, between, others, rfl, ⟨rfl, rfl⟩, hrest, rfl⟩
        · rintro ⟨h', a', between', others', hh, ⟨rfl, rfl⟩, hothers, rfl⟩
          obtain rfl := Option.some.inj hh
          obtain ⟨rfl, rfl⟩ := Prod.mk.inj (Except.ok.inj (hrest.symm.trans hothers))
          exact ⟨rfl, rfl⟩

theorem compile_eq_ok_iff {e : SlotEntry} {r r' : RandomStream} {rule : Rule} :
    compile e r = .ok (rule, r') ↔
      SlotMatcher.parse e.slot = .ok rule.slot ∧ rule.level = e.level ∧
        compileActions r e.actions = .ok (rule.actions, r') := by
  rw [compile]
  cases hslot : SlotMatcher.parse e.slot with
  | error fault => simp
  | ok slot =>
    cases hactions : compileActions r e.actions with
    | error fault => simp
    | ok result =>
      obtain ⟨actions, after⟩ := result
      obtain ⟨slot', level', actions'⟩ := rule
      simp only [Except.ok.injEq, Prod.mk.injEq, Rule.mk.injEq]
      constructor
      · rintro ⟨⟨rfl, rfl, rfl⟩, rfl⟩
        exact ⟨rfl, rfl, rfl, rfl⟩
      · rintro ⟨rfl, rfl, rfl, rfl⟩
        exact ⟨⟨rfl, rfl, rfl⟩, rfl⟩

theorem compileAll_nil_eq_ok_iff {r r' : RandomStream} {rules : List Rule} :
    compileAll r [] = .ok (rules, r') ↔ rules = [] ∧ r' = r := by
  simp only [compileAll, Except.ok.injEq, Prod.mk.injEq]
  exact and_congr eq_comm eq_comm

/-- The first entry compiles with the stream at hand, the others with what it leaves. -/
theorem compileAll_cons_eq_ok_iff {e : SlotEntry} {rest : List SlotEntry} {r r' : RandomStream}
    {rules : List Rule} :
    compileAll r (e :: rest) = .ok (rules, r') ↔
      ∃ rule between others, compile e r = .ok (rule, between) ∧
        compileAll between rest = .ok (others, r') ∧ rules = rule :: others := by
  rw [compileAll]
  cases hcompile : compile e r with
  | error fault => simp
  | ok result =>
    obtain ⟨rule, between⟩ := result
    cases hrest : compileAll between rest with
    | error fault => simp [hrest]
    | ok result =>
      obtain ⟨others, after⟩ := result
      simp only [hrest, Except.ok.injEq, Prod.mk.injEq]
      constructor
      · rintro ⟨rfl, rfl⟩
        exact ⟨rule, between, others, ⟨rfl, rfl⟩, hrest, rfl⟩
      · rintro ⟨rule', between', others', ⟨rfl, rfl⟩, hothers, rfl⟩
        obtain ⟨rfl, rfl⟩ := Prod.mk.inj (Except.ok.inj (hrest.symm.trans hothers))
        exact ⟨rfl, rfl⟩

end Rule

namespace RuleSet

theorem compile_eq_ok_iff {s : Strategy} {uid : String} {r r' : RandomStream} {rules : RuleSet} :
    compile s uid r = .ok (rules, r') ↔
      Strategy.checkWindows s.validators = .ok () ∧ rules.uid = uid ∧ rules.strategy = s ∧
        Rule.compileAll r s.slots = .ok (rules.rules, r') := by
  rw [compile]
  cases hcheck : Strategy.checkWindows s.validators with
  | error fault => simp
  | ok _ =>
    cases hall : Rule.compileAll r s.slots with
    | error fault => simp
    | ok result =>
      obtain ⟨all, after⟩ := result
      obtain ⟨uid', strategy', rules'⟩ := rules
      simp only [Except.ok.injEq, Prod.mk.injEq, RuleSet.mk.injEq, true_and]
      constructor
      · rintro ⟨⟨rfl, rfl, rfl⟩, rfl⟩
        exact ⟨rfl, rfl, rfl, rfl⟩
      · rintro ⟨rfl, rfl, rfl, rfl⟩
        exact ⟨⟨rfl, rfl, rfl⟩, rfl⟩

end RuleSet

end Saboteur
