import Mathlib.Data.List.Forall2
import Mathlib.Data.List.Nodup
import Saboteur.Proofs.Action.Display
import Saboteur.Proofs.Strategy.Compilation
import Saboteur.Proofs.Strategy.Faults

/-!
# The normal form of a document

The normal form of a rule set is a document that spells out each slot and each action as it was
read. It compiles to the same rules again whatever the random stream is, and nothing is drawn.

Two rule sets of one document differ at most in the seconds of delays for which the document gives
none.
-/

namespace Saboteur

/-! ## Slots -/

namespace SlotMatcher

/-- The number of a slot, if it has one, is read back from its decimal text. -/
def Readable (m : SlotMatcher) : Prop := ∀ s, m.literal? = some s → s.val.toNat < Word.negativeCount

/-- **The display of a matcher is read as that matcher.** -/
theorem parse_display {m : SlotMatcher} (h : m.Readable) : parse m.display = .ok m := by
  cases m with
  | computed f => cases f <;> rfl
  | literal s =>
    have hinteger := Text.isInteger_repr (h s rfl)
    have htrim : Text.trim (Nat.repr s.val.toNat) = Nat.repr s.val.toNat :=
      Text.trim_eq_self fun c hc => Text.isBlank_of_isAlphanum (Action.isAlphanum_of_mem_decimal hc)
    rw [display, Slot.display, Word.decimal, parse]
    simp only [htrim, Text.readSigned_eq_ok_iff.2 hinteger]
    rw [if_neg (by omega), Int.toNat_natCast, UInt64.ofNat_toNat]

/-- A matcher that was read can be read back from its display. -/
theorem readable_of_parse {text : String} {m : SlotMatcher} (h : parse text = .ok m) :
    m.Readable := by
  rw [parse] at h
  cases hread : Text.readSigned (Text.trim text) with
  | error fault =>
    cases hname : SlotFunction.ofName? (Text.trim text) with
    | none =>
      simp only [hread, hname] at h
      cases h
    | some f =>
      simp only [hread, hname] at h
      cases h
      intro s hs
      cases hs
  | ok i =>
    obtain ⟨-, -, hlt⟩ := Text.readSigned_eq_ok_iff.1 hread
    simp only [hread] at h
    split at h
    · cases h
    · cases h
      intro s hs
      obtain rfl := Option.some.inj hs
      exact Action.toNat_parameterWord_lt hlt

end SlotMatcher

/-! ## Normal forms -/

namespace Rule

/-- The texts of the actions of a rule by the names of their hooks. -/
def texts (actions : List (Hook × Action)) : List (String × String) :=
  actions.map fun a => (a.1.name, a.2.display)

/-- A rule with its slot and actions spelled out. -/
def entry (rule : Rule) : SlotEntry := ⟨rule.slot.display, rule.level, texts rule.actions⟩

/-- Actions that were compiled can be read back from their displays. -/
theorem readable_of_compileActions {entries : List (String × String)} {r r' : RandomStream}
    {actions : List (Hook × Action)} (h : compileActions r entries = .ok (actions, r')) :
    ∀ a ∈ actions, a.2.Readable := by
  induction entries generalizing r actions with
  | nil =>
    obtain ⟨rfl, -⟩ := compileActions_nil_eq_ok_iff.1 h
    exact nofun
  | cons e rest ih =>
    obtain ⟨hook, a, between, others, -, hparse, hrest, rfl⟩ := compileActions_cons_eq_ok_iff.1 h
    exact List.forall_mem_cons.2 ⟨Action.readable_of_parse hparse, ih hrest⟩

/-- The displays of readable actions compile to these actions, and nothing is drawn. -/
theorem compileActions_texts {actions : List (Hook × Action)} (h : ∀ a ∈ actions, a.2.Readable)
    (r : RandomStream) : compileActions r (texts actions) = .ok (actions, r) := by
  induction actions with
  | nil => rfl
  | cons a rest ih =>
    obtain ⟨ha, hrest⟩ := List.forall_mem_cons.1 h
    exact compileActions_cons_eq_ok_iff.2
      ⟨a.1, a.2, r, rest, Hook.ofName?_name a.1, Action.parse_display ha r, ih hrest, rfl⟩

/-- The entry of a compiled rule compiles to that rule, whatever the stream. -/
theorem compile_entry {e : SlotEntry} {r₁ r₁' : RandomStream} {rule : Rule}
    (h : compile e r₁ = .ok (rule, r₁')) (r : RandomStream) :
    compile rule.entry r = .ok (rule, r) := by
  obtain ⟨hslot, -, hactions⟩ := compile_eq_ok_iff.1 h
  exact compile_eq_ok_iff.2 ⟨SlotMatcher.parse_display (SlotMatcher.readable_of_parse hslot), rfl,
    compileActions_texts (readable_of_compileActions hactions) r⟩

/-- The entries of compiled rules compile to these rules, whatever the stream. -/
theorem compileAll_entries {es : List SlotEntry} {r₁ r₁' : RandomStream} {rules : List Rule}
    (h : compileAll r₁ es = .ok (rules, r₁')) (r : RandomStream) :
    compileAll r (rules.map entry) = .ok (rules, r) := by
  induction es generalizing r₁ rules with
  | nil =>
    obtain ⟨rfl, -⟩ := compileAll_nil_eq_ok_iff.1 h
    rfl
  | cons e rest ih =>
    obtain ⟨rule, between, others, hrule, hrest, rfl⟩ := compileAll_cons_eq_ok_iff.1 h
    exact compileAll_cons_eq_ok_iff.2 ⟨rule, r, others, compile_entry hrule r, ih hrest, rfl⟩

/-- A rule has what its entry says, and each hook once. -/
structure Follows (e : SlotEntry) (rule : Rule) : Prop where
  level : rule.level = e.level
  hooks : rule.actions.map (fun a => a.1.name) = e.actions.map Prod.fst
  nodup : (rule.actions.map Prod.fst).Nodup
  length : rule.actions.length = e.actions.length

/-- Hooks keep their names and their order. -/
theorem hooks_of_compileActions {entries : List (String × String)} {r r' : RandomStream}
    {actions : List (Hook × Action)} (h : compileActions r entries = .ok (actions, r')) :
    actions.map (fun a => a.1.name) = entries.map Prod.fst := by
  induction entries generalizing r actions with
  | nil =>
    obtain ⟨rfl, -⟩ := compileActions_nil_eq_ok_iff.1 h
    rfl
  | cons e rest ih =>
    obtain ⟨hook, a, between, others, hhook, -, hrest, rfl⟩ := compileActions_cons_eq_ok_iff.1 h
    rw [List.map_cons, List.map_cons, ih hrest, Hook.name_of_ofName? hhook]

/-- A rule follows the entry that it was compiled from. -/
theorem follows_of_compile {e : SlotEntry} {r r' : RandomStream} {rule : Rule} (he : e.Ordered)
    (h : compile e r = .ok (rule, r')) : Follows e rule := by
  obtain ⟨-, hlevel, hactions⟩ := compile_eq_ok_iff.1 h
  have hhooks := hooks_of_compileActions hactions
  refine ⟨hlevel, hhooks, ?_, by simpa using congrArg List.length hhooks⟩
  have hnames : (e.actions.map Prod.fst).Nodup :=
    List.Pairwise.map _ (fun _ _ hab => Std.ne_of_lt hab) he
  refine List.Nodup.of_map Hook.name ?_
  rwa [List.map_map, Function.comp_def, hhooks]

theorem forall₂_follows {es : List SlotEntry} {r r' : RandomStream} {rules : List Rule}
    (hes : ∀ e ∈ es, e.Ordered) (h : compileAll r es = .ok (rules, r')) :
    List.Forall₂ Follows es rules := by
  induction es generalizing r rules with
  | nil =>
    obtain ⟨rfl, -⟩ := compileAll_nil_eq_ok_iff.1 h
    exact .nil
  | cons e rest ih =>
    obtain ⟨he, hrest⟩ := List.forall_mem_cons.1 hes
    obtain ⟨rule, between, others, hrule, hothers, rfl⟩ := compileAll_cons_eq_ok_iff.1 h
    exact .cons (follows_of_compile he hrule) (ih hrest hothers)

/-- The texts of a rule come in the order of its entry. -/
theorem ordered_entry {e : SlotEntry} {rule : Rule} (he : e.Ordered) (h : Follows e rule) :
    rule.entry.Ordered := by
  have hnames : (e.actions.map Prod.fst).Pairwise (· < ·) := List.pairwise_map.2 he
  rw [← h.hooks, List.pairwise_map] at hnames
  exact List.pairwise_map.2 hnames

/-- The entries of rules are in order where those that they follow are. -/
theorem ordered_entries {es : List SlotEntry} {rules : List Rule} (hes : ∀ e ∈ es, e.Ordered)
    (h : List.Forall₂ Follows es rules) : ∀ entry ∈ rules.map Rule.entry, entry.Ordered := by
  induction h with
  | nil => exact nofun
  | cons first _ ih =>
    obtain ⟨he, hrest⟩ := List.forall_mem_cons.1 hes
    exact List.forall_mem_cons.2 ⟨ordered_entry he first, ih hrest⟩

/-! ## What is drawn -/

/-- What the texts of a rule can be read as, twice. -/
inductive ActionsRedrawn :
    List (String × String) → List (Hook × Action) → List (Hook × Action) → Prop
  | nil : ActionsRedrawn [] [] []
  | cons {name text : String} {hook : Hook} {a b : Action} {entries : List (String × String)}
    {as bs : List (Hook × Action)} (action : Action.Redrawn text a b)
    (rest : ActionsRedrawn entries as bs) :
    ActionsRedrawn ((name, text) :: entries) ((hook, a) :: as) ((hook, b) :: bs)

/-- Two rules of one entry. They differ in the seconds that were drawn for them only. -/
structure Redrawn (e : SlotEntry) (rule rule' : Rule) : Prop where
  slot : rule.slot = rule'.slot
  level : rule.level = rule'.level
  actions : ActionsRedrawn e.actions rule.actions rule'.actions

/-- What the entries of a document can be read as, twice. -/
inductive AllRedrawn : List SlotEntry → List Rule → List Rule → Prop
  | nil : AllRedrawn [] [] []
  | cons {e : SlotEntry} {rule rule' : Rule} {es : List SlotEntry} {rules rules' : List Rule}
    (first : Redrawn e rule rule') (rest : AllRedrawn es rules rules') :
    AllRedrawn (e :: es) (rule :: rules) (rule' :: rules')

/-- What compiles with one stream compiles with any, to actions that differ only in what is drawn.
-/
theorem exists_compileActions_redrawn {entries : List (String × String)} {r₁ r₁' : RandomStream}
    {as : List (Hook × Action)} (h : compileActions r₁ entries = .ok (as, r₁'))
    (r₂ : RandomStream) :
    ∃ bs r₂', compileActions r₂ entries = .ok (bs, r₂') ∧ ActionsRedrawn entries as bs := by
  induction entries generalizing r₁ r₂ as with
  | nil =>
    obtain ⟨rfl, -⟩ := compileActions_nil_eq_ok_iff.1 h
    exact ⟨[], r₂, rfl, .nil⟩
  | cons e rest ih =>
    obtain ⟨hook, a, between, others, hhook, hparse, hrest, rfl⟩ :=
      compileActions_cons_eq_ok_iff.1 h
    obtain ⟨b, between₂, hparse₂, hb⟩ := Action.exists_parse_redrawn hparse r₂
    obtain ⟨others₂, r₂', hrest₂, hothers⟩ := ih hrest between₂
    exact ⟨_, r₂', compileActions_cons_eq_ok_iff.2
      ⟨hook, b, between₂, others₂, hhook, hparse₂, hrest₂, rfl⟩, .cons hb hothers⟩

theorem exists_compile_redrawn {e : SlotEntry} {r₁ r₁' : RandomStream} {rule : Rule}
    (h : compile e r₁ = .ok (rule, r₁')) (r₂ : RandomStream) :
    ∃ rule' r₂', compile e r₂ = .ok (rule', r₂') ∧ Redrawn e rule rule' := by
  obtain ⟨hslot, hlevel, hactions⟩ := compile_eq_ok_iff.1 h
  obtain ⟨bs, r₂', hactions₂, hbs⟩ := exists_compileActions_redrawn hactions r₂
  exact ⟨⟨rule.slot, rule.level, bs⟩, r₂', compile_eq_ok_iff.2 ⟨hslot, hlevel, hactions₂⟩,
    rfl, rfl, hbs⟩

/-- The same holds of all entries of a strategy. -/
theorem exists_compileAll_redrawn {es : List SlotEntry} {r₁ r₁' : RandomStream}
    {rules : List Rule} (h : compileAll r₁ es = .ok (rules, r₁')) (r₂ : RandomStream) :
    ∃ rules' r₂', compileAll r₂ es = .ok (rules', r₂') ∧ AllRedrawn es rules rules' := by
  induction es generalizing r₁ r₂ rules with
  | nil =>
    obtain ⟨rfl, -⟩ := compileAll_nil_eq_ok_iff.1 h
    exact ⟨[], r₂, rfl, .nil⟩
  | cons e rest ih =>
    obtain ⟨rule, between, others, hrule, hrest, rfl⟩ := compileAll_cons_eq_ok_iff.1 h
    obtain ⟨rule', between₂, hrule₂, hredrawn⟩ := exists_compile_redrawn hrule r₂
    obtain ⟨others₂, r₂', hrest₂, hothers⟩ := ih hrest between₂
    exact ⟨_, r₂', compileAll_cons_eq_ok_iff.2 ⟨rule', between₂, others₂, hrule₂, hrest₂, rfl⟩,
      .cons hredrawn hothers⟩

/-! ### Documents that leave nothing open -/

/-- Where no text leaves a draw open, nothing differs. -/
theorem ActionsRedrawn.eq {entries : List (String × String)} {as bs : List (Hook × Action)}
    (h : ActionsRedrawn entries as bs) (hopen : ∀ e ∈ entries, ¬ Action.LeavesOpen e.2) :
    as = bs := by
  induction h with
  | nil => rfl
  | cons action _ ih =>
    obtain ⟨hfirst, hrest⟩ := List.forall_mem_cons.1 hopen
    rw [action.eq hfirst, ih hrest]

theorem Redrawn.eq {e : SlotEntry} {rule rule' : Rule} (h : Redrawn e rule rule')
    (hopen : ∀ a ∈ e.actions, ¬ Action.LeavesOpen a.2) : rule = rule' := by
  obtain ⟨slot, level, actions⟩ := rule
  obtain ⟨rfl, rfl, hactions⟩ := h
  cases hactions.eq hopen
  rfl

theorem AllRedrawn.eq {es : List SlotEntry} {rules rules' : List Rule}
    (h : AllRedrawn es rules rules')
    (hopen : ∀ e ∈ es, ∀ a ∈ e.actions, ¬ Action.LeavesOpen a.2) : rules = rules' := by
  induction h with
  | nil => rfl
  | cons first _ ih =>
    obtain ⟨hfirst, hrest⟩ := List.forall_mem_cons.1 hopen
    rw [first.eq hfirst, ih hrest]

/-- Where no text leaves a draw open, nothing is drawn. -/
theorem used_of_compileActions {entries : List (String × String)} {r r' : RandomStream}
    {actions : List (Hook × Action)} (h : compileActions r entries = .ok (actions, r'))
    (hopen : ∀ e ∈ entries, ¬ Action.LeavesOpen e.2) : r' = r := by
  induction entries generalizing r actions with
  | nil => exact (compileActions_nil_eq_ok_iff.1 h).2
  | cons e rest ih =>
    obtain ⟨hfirst, hrest⟩ := List.forall_mem_cons.1 hopen
    obtain ⟨_, _, between, _, -, hparse, hothers, -⟩ := compileActions_cons_eq_ok_iff.1 h
    rw [ih hothers hrest, Action.used_of_parse hparse hfirst]

theorem used_of_compileAll {es : List SlotEntry} {r r' : RandomStream} {rules : List Rule}
    (h : compileAll r es = .ok (rules, r'))
    (hopen : ∀ e ∈ es, ∀ a ∈ e.actions, ¬ Action.LeavesOpen a.2) : r' = r := by
  induction es generalizing r rules with
  | nil => exact (compileAll_nil_eq_ok_iff.1 h).2
  | cons e rest ih =>
    obtain ⟨hfirst, hrest⟩ := List.forall_mem_cons.1 hopen
    obtain ⟨_, between, _, hrule, hothers, -⟩ := compileAll_cons_eq_ok_iff.1 h
    rw [ih hothers hrest, used_of_compileActions (compile_eq_ok_iff.1 hrule).2.2 hfirst]

end Rule

/-! ## Rule sets -/

namespace RuleSet

/-- The document of a rule set with every slot and action spelled out. -/
def normalForm (rules : RuleSet) : Strategy :=
  { rules.strategy with slots := rules.rules.map Rule.entry }

/-- Two rule sets of one document that differ in drawn seconds only. -/
structure Redrawn (rules rules' : RuleSet) : Prop where
  uid : rules.uid = rules'.uid
  strategy : rules.strategy = rules'.strategy
  rules : Rule.AllRedrawn rules.strategy.slots rules.rules rules'.rules

/-- A document compiles for every stream if it does for one, to rule sets that differ in drawn
seconds only. -/
theorem exists_compile_redrawn {s : Strategy} {uid : String} {r₁ r₁' : RandomStream}
    {rules : RuleSet} (h : compile s uid r₁ = .ok (rules, r₁')) (r₂ : RandomStream) :
    ∃ rules' r₂', compile s uid r₂ = .ok (rules', r₂') ∧ rules.Redrawn rules' := by
  obtain ⟨hcheck, huid, hstrategy, hall⟩ := compile_eq_ok_iff.1 h
  obtain ⟨rules', r₂', hall₂, hredrawn⟩ := Rule.exists_compileAll_redrawn hall r₂
  refine ⟨⟨uid, s, rules'⟩, r₂', compile_eq_ok_iff.2 ⟨hcheck, rfl, rfl, hall₂⟩, huid, hstrategy, ?_⟩
  rwa [hstrategy]

/-- **The normal form of a rule set compiles to its rules and windows without drawing anything, and
each rule has an action for each hook of its entry. What a document compiles to depends on the
stream in the seconds only that the document leaves open.** -/
theorem compile_normalForm {s : Strategy} {uid : String} {r r' : RandomStream} {rules : RuleSet}
    (hordered : s.Ordered) (h : compile s uid r = .ok (rules, r')) :
    rules.normalForm.Ordered ∧
      (∀ uid₂ r₂, ∃ rules₂, compile rules.normalForm uid₂ r₂ = .ok (rules₂, r₂) ∧
        rules₂.rules = rules.rules ∧ rules₂.windows = rules.windows) ∧
      List.Forall₂ Rule.Follows s.slots rules.rules ∧
      ∀ r₂, ∃ rules₂ r₂', compile s uid r₂ = .ok (rules₂, r₂') ∧ rules.Redrawn rules₂ ∧
        ((∀ e ∈ s.slots, ∀ a ∈ e.actions, ¬ Action.LeavesOpen a.2) →
          rules₂ = rules ∧ r₂' = r₂) := by
  obtain ⟨hcheck, huid, rfl, hall⟩ := compile_eq_ok_iff.1 h
  have hfollows := Rule.forall₂_follows hordered hall
  refine ⟨Rule.ordered_entries hordered hfollows, ?_, hfollows, ?_⟩
  · intro uid₂ r₂
    exact ⟨⟨uid₂, rules.normalForm, rules.rules⟩,
      compile_eq_ok_iff.2 ⟨hcheck, rfl, rfl, Rule.compileAll_entries hall r₂⟩, rfl, rfl⟩
  · intro r₂
    obtain ⟨rules₂, r₂', h₂, hredrawn⟩ := exists_compile_redrawn h r₂
    refine ⟨rules₂, r₂', h₂, hredrawn, fun hopen => ⟨?_, ?_⟩⟩
    · obtain ⟨huid₂, hstrategy₂, hrules₂⟩ := hredrawn
      obtain ⟨uid', strategy', rules'⟩ := rules₂
      cases huid₂
      cases hstrategy₂
      cases hrules₂.eq hopen
      rfl
    · exact Rule.used_of_compileAll (compile_eq_ok_iff.1 h₂).2.2.2 hopen

/-- A document whose slot has blanks around it and whose delay has no seconds. -/
def openDelay : Strategy :=
  { Strategy.empty with slots := [⟨" 7 ", 1, [("BlockBeforeSign", "delayWithSecond: soon")]⟩] }

/-- What it compiles to if a five is drawn. -/
def fiveSeconds : RuleSet :=
  ⟨"five", openDelay, [⟨.literal ⟨7⟩, 1, [(.blockBeforeSign, .delayWithSecond 5)]⟩]⟩

/-- A stream from which fives are drawn. -/
def fives : RandomStream := .progression 9223372036854775808 0

theorem compile_normalForm_fiveSeconds :
    openDelay.Ordered ∧
      compile openDelay "five" fives = .ok (fiveSeconds, { fives with used := 1 }) ∧
      fiveSeconds.normalForm.slots = [⟨"7", 1, [("BlockBeforeSign", "delayWithSecond:5")]⟩] ∧
      ∀ uid r, ∃ rules, compile fiveSeconds.normalForm uid r = .ok (rules, r) ∧
        rules.rules = fiveSeconds.rules ∧ rules.windows = fiveSeconds.windows := by
  have hordered : openDelay.Ordered := by
    intro e he
    rw [List.mem_singleton.1 he]
    exact List.pairwise_singleton _ _
  have hcompile :
      compile openDelay "five" fives = .ok (fiveSeconds, { fives with used := 1 }) := rfl
  exact ⟨hordered, hcompile, rfl, (compile_normalForm hordered hcompile).2.1⟩

end RuleSet

end Saboteur
