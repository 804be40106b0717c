import Saboteur.Strategy.Selection

/-!
# The rule that decides

Selection goes through all matchers of a rule set, in order, and hands the backend on from one to
the next. Here the rule that comes out of it is described without the walk: it applies at the slot,
no rule that applies is on a higher level, and none behind it is on the same.

A matcher may ask the backend, and a question may change the backend. So what the matcher of a rule
designates depends on the matchers before it.
-/

namespace Saboteur

theorem Slot.compare_eq_eq_iff {s t : Slot} : s.compare t = .eq ↔ s = t := by
  rw [Slot.compare, Word.compare]
  constructor
  · intro h
    split at h
    · cases h
    · split at h
      · rename_i heq
        exact Slot.ext_toNat heq
      · cases h
  · rintro rfl
    rw [if_neg (Nat.lt_irrefl _), if_pos rfl]

/-- A matcher is level with a slot exactly when it designates that slot. -/
theorem SlotMatcher.position_eq_eq_iff {designated : Option Slot} {slot : Slot} :
    position designated slot = .eq ↔ designated = some slot := by
  cases designated with
  | none => simp [position]
  | some target => simp [position, Slot.compare_eq_eq_iff]

namespace RuleSet

variable {β : Type} [Backend β]

/-- The backend after the matchers of some rules have been looked at. -/
def lookedAt (ctx : Context) (store : ValidatorStore) (slot : Slot) (b : β) : List Rule → β
  | [] => b
  | r :: rest => lookedAt ctx store slot ((r.slot.resolve ctx store slot).run b).2 rest

/-- The rule at a place of a list designates exactly the slot at hand, when its matcher is looked at
after those before it. -/
def Applies (ctx : Context) (store : ValidatorStore) (rules : List Rule) (slot : Slot) (b : β)
    (place : Nat) (rule : Rule) : Prop :=
  rules[place]? = some rule ∧
    ((rule.slot.resolve ctx store slot).run
      (lookedAt ctx store slot b (rules.take place))).1 = some slot

/-- The rule at a place is the last one on the highest level among those that apply. -/
structure Decides (ctx : Context) (store : ValidatorStore) (rules : List Rule) (slot : Slot) (b : β)
    (place : Nat) (rule : Rule) : Prop where
  applies : Applies ctx store rules slot b place rule
  highest : ∀ place' rule', Applies ctx store rules slot b place' rule' → rule'.level ≤ rule.level
  last : ∀ place' rule', Applies ctx store rules slot b place' rule' → place < place' →
    rule'.level < rule.level

variable {ctx : Context} {store : ValidatorStore} {slot : Slot} {rules : List Rule} {b : β}

/-! ## The rules that apply -/

theorem applies_zero_iff {r rule : Rule} :
    Applies ctx store (r :: rules) slot b 0 rule ↔
      r = rule ∧ ((r.slot.resolve ctx store slot).run b).1 = some slot := by
  rw [Applies, List.getElem?_cons_zero, Option.some.injEq]
  constructor
  · rintro ⟨rfl, h⟩
    exact ⟨rfl, h⟩
  · rintro ⟨rfl, h⟩
    exact ⟨rfl, h⟩

theorem applies_succ_iff {r rule : Rule} {place : Nat} :
    Applies ctx store (r :: rules) slot b (place + 1) rule ↔
      Applies ctx store rules slot ((r.slot.resolve ctx store slot).run b).2 place rule :=
  Iff.rfl

/-- Looking at the matchers in order keeps the rules that apply, with their places, and leaves the
backend as the last matcher left it. -/
theorem applicable_cons (r : Rule) (place : Nat) :
    (applicable ctx store slot place (r :: rules)).run b =
      let rest := (applicable ctx store slot (place + 1) rules).run
        ((r.slot.resolve ctx store slot).run b).2
      (if ((r.slot.resolve ctx store slot).run b).1 = some slot then (place, r) :: rest.1
        else rest.1, rest.2) := by
  have happlies : ((r.slot.resolve ctx store slot).run b).1 = some slot ↔
      (SlotMatcher.position ((r.slot.resolve ctx store slot).run b).1 slot == .eq) = true := by
    rw [beq_iff_eq, SlotMatcher.position_eq_eq_iff]
  simp only [happlies]
  rfl

theorem snd_applicable (place : Nat) :
    ((applicable ctx store slot place rules).run b).2 = lookedAt ctx store slot b rules := by
  induction rules generalizing place b with
  | nil => rfl
  | cons r rest ih =>
    rw [applicable_cons]
    exact ih (place + 1)

/-- **The walk keeps a rule exactly if it applies.** -/
theorem mem_applicable {place : Nat} {x : Nat × Rule} :
    x ∈ ((applicable ctx store slot place rules).run b).1 ↔
      ∃ i, x.1 = place + i ∧ Applies ctx store rules slot b i x.2 := by
  induction rules generalizing place b with
  | nil =>
    refine iff_of_false (List.not_mem_nil) ?_
    rintro ⟨i, -, h, -⟩
    simp at h
  | cons r rest ih =>
    have hrest : x ∈ ((applicable ctx store slot (place + 1) rest).run
        ((r.slot.resolve ctx store slot).run b).2).1 ↔
        ∃ i, x.1 = place + (i + 1) ∧ Applies ctx store (r :: rest) slot b (i + 1) x.2 := by
      simp only [ih, applies_succ_iff, Nat.add_assoc, Nat.add_comm 1]
    have hfirst : (x = (place, r) ∧ ((r.slot.resolve ctx store slot).run b).1 = some slot) ↔
        x.1 = place ∧ Applies ctx store (r :: rest) slot b 0 x.2 := by
      rw [applies_zero_iff, Prod.ext_iff]
      constructor
      · rintro ⟨⟨hplace, hrule⟩, hslot⟩
        exact ⟨hplace, hrule.symm, hslot⟩
      · rintro ⟨hplace, hrule, hslot⟩
        exact ⟨⟨hplace, hrule.symm⟩, hslot⟩
    have hmem : x ∈ ((applicable ctx store slot place (r :: rest)).run b).1 ↔
        (x = (place, r) ∧ ((r.slot.resolve ctx store slot).run b).1 = some slot) ∨
          x ∈ ((applicable ctx store slot (place + 1) rest).run
            ((r.slot.resolve ctx store slot).run b).2).1 := by
      rw [applicable_cons]
      split
      · rename_i h
        simp [h]
      · rename_i h
        simp [h]
    rw [hmem, hfirst, hrest]
    constructor
    · rintro (⟨hplace, h⟩ | ⟨i, hplace, h⟩)
      · exact ⟨0, hplace, h⟩
      · exact ⟨i + 1, hplace, h⟩
    · rintro ⟨i, hplace, h⟩
      cases i with
      | zero => exact .inl ⟨hplace, h⟩
      | succ i => exact .inr ⟨i, hplace, h⟩

theorem pairwise_applicable (place : Nat) :
    ((applicable ctx store slot place rules).run b).1.Pairwise (·.1 < ·.1) := by
  induction rules generalizing place b with
  | nil => exact List.Pairwise.nil
  | cons r rest ih =>
    rw [applicable_cons]
    split
    · refine List.Pairwise.cons ?_ (ih (place + 1))
      intro x hx
      obtain ⟨i, hi, -⟩ := mem_applicable.1 hx
      exact hi ▸ Nat.lt_of_lt_of_le (Nat.lt_succ_self place) (Nat.le_add_right _ _)
    · exact ih (place + 1)

/-! ## The strongest of them -/

theorem strongest?_eq_none_iff {l : List (Nat × Rule)} : strongest? l = none ↔ l = [] := by
  cases l with
  | nil => simp [strongest?]
  | cons r rest =>
    rw [strongest?]
    split <;> simp

/-- **The strongest rule is the last one on the highest level.** -/
theorem strongest?_eq_some {l : List (Nat × Rule)} (h : l.Pairwise (·.1 < ·.1)) {x : Nat × Rule}
    (hx : strongest? l = some x) :
    x ∈ l ∧ (∀ y ∈ l, y.2.level ≤ x.2.level) ∧ ∀ y ∈ l, x.1 < y.1 → y.2.level < x.2.level := by
  induction l generalizing x with
  | nil => cases hx
  | cons r rest ih =>
    obtain ⟨hr, hrest⟩ := List.pairwise_cons.1 h
    cases hs : strongest? rest with
    | none =>
      obtain rfl := strongest?_eq_none_iff.1 hs
      cases hx
      simp
    | some s =>
      obtain ⟨hmem, hhighest, hlast⟩ := ih hrest hs
      rw [strongest?, hs, Option.some.injEq, better] at hx
      split at hx
      · -- a later rule is at least as high as the first one
        rename_i hle
        subst hx
        refine ⟨List.mem_cons_of_mem _ hmem, ?_, ?_⟩
        · rintro y (_ | ⟨_, hy⟩)
          · exact hle
          · exact hhighest y hy
        · rintro y (_ | ⟨_, hy⟩) hlt
          · exact absurd hlt (Nat.lt_asymm (hr s hmem))
          · exact hlast y hy hlt
      · rename_i hlt
        subst hx
        rw [Int.not_le] at hlt
        refine ⟨List.mem_cons_self, ?_, ?_⟩
        · rintro y (_ | ⟨_, hy⟩)
          · exact Int.le_refl _
          · exact Int.le_of_lt (Int.lt_of_le_of_lt (hhighest y hy) hlt)
        · rintro y (_ | ⟨_, hy⟩) hplace
          · exact absurd hplace (Nat.lt_irrefl _)
          · exact Int.lt_of_le_of_lt (hhighest y hy) hlt

/-! ## Selection -/

theorem Decides.unique {i j : Nat} {r r' : Rule} (h : Decides ctx store rules slot b i r)
    (h' : Decides ctx store rules slot b j r') : i = j ∧ r = r' := by
  have hij : i = j := by
    rcases Nat.lt_trichotomy i j with hlt | heq | hgt
    · exact absurd (h.last j r' h'.applies hlt) (Int.not_lt.2 (h'.highest i r h.applies))
    · exact heq
    · exact absurd (h'.last i r h.applies hgt) (Int.not_lt.2 (h.highest j r' h'.applies))
  subst hij
  exact ⟨rfl, Option.some.inj (h.applies.1.symm.trans h'.applies.1)⟩

theorem fst_select (rs : RuleSet) :
    ((rs.select ctx store slot).run b).1 =
      strongest? ((applicable ctx store slot 0 rs.rules).run b).1 := rfl

theorem snd_select (rs : RuleSet) :
    ((rs.select ctx store slot).run b).2 = lookedAt ctx store slot b rs.rules :=
  snd_applicable 0

/-- **The selected rule is the one that decides.** -/
theorem select_eq_some_iff {rs : RuleSet} {i : Nat} {r : Rule} :
    ((rs.select ctx store slot).run b).1 = some (i, r) ↔
      Decides ctx store rs.rules slot b i r := by
  have happlies : ∀ x : Nat × Rule, x ∈ ((applicable ctx store slot 0 rs.rules).run b).1 ↔
      Applies ctx store rs.rules slot b x.1 x.2 := by
    intro x
    rw [mem_applicable]
    simp
  have hdecides : ∀ {x}, ((rs.select ctx store slot).run b).1 = some x →
      Decides ctx store rs.rules slot b x.1 x.2 := by
    intro x hx
    rw [fst_select] at hx
    obtain ⟨hmem, hhighest, hlast⟩ := strongest?_eq_some (pairwise_applicable 0) hx
    exact ⟨(happlies x).1 hmem, fun j r' h => hhighest (j, r') ((happlies (j, r')).2 h),
      fun j r' h => hlast (j, r') ((happlies (j, r')).2 h)⟩
  constructor
  · exact hdecides
  · intro h
    cases hx : ((rs.select ctx store slot).run b).1 with
    | none =>
      rw [fst_select, strongest?_eq_none_iff] at hx
      have hmem := (happlies (i, r)).2 h.applies
      rw [hx] at hmem
      exact absurd hmem List.not_mem_nil
    | some x =>
      obtain ⟨hi, hr⟩ := (hdecides hx).unique h
      exact congrArg some (Prod.ext hi hr)

end RuleSet

end Saboteur
