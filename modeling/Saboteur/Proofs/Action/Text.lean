import Saboteur.Action
import Saboteur.Proofs.Text.Integer
import Saboteur.Proofs.Text.Pieces

/-!
# Texts of actions

The text of an action is a name and, behind colons, pieces of which the integers are its parameters.
The name decides what is read: an action without a parameter, one of six actions with a parameter, or
nothing. Which of these it is, and what comes of it, is said once for every text; whatever else is
known about texts of actions follows from that.
-/

namespace Saboteur.Action

/-! ## Names and parameters -/

/-- The integers among some pieces, blanks around each of them aside. -/
inductive Integers : List (List Char) → List Int → Prop
  | nil : Integers [] []
  | integer {p : List Char} {i : Int} {ps : List (List Char)} {is : List Int}
    (h : Text.IsInteger (String.ofList (Text.trimList p)) i) (rest : Integers ps is) :
    Integers (p :: ps) (i :: is)
  | other {p : List Char} {ps : List (List Char)} {is : List Int}
    (h : ∀ i, ¬ Text.IsInteger (String.ofList (Text.trimList p)) i) (rest : Integers ps is) :
    Integers (p :: ps) is

/-- A text is a name and pieces behind colons, blanks around the whole aside, and the integers among
the pieces are its parameters. -/
def Spelled (text name : String) (params : List Int) : Prop :=
  ∃ pieces : List (List Char),
    Text.trimList text.toList = [':'].intercalate (name.toList :: pieces) ∧
    (∀ p ∈ name.toList :: pieces, ':' ∉ p) ∧ Integers pieces params

theorem filterMap_eq_iff_integers {ps : List (List Char)} {is : List Int} :
    (ps.filterMap fun p => (Text.readSigned (String.ofList (Text.trimList p))).toOption) = is ↔
      Integers ps is := by
  induction ps generalizing is with
  | nil =>
    constructor
    · rintro rfl
      exact .nil
    · intro h
      cases h
      rfl
  | cons p rest ih =>
    cases h : Text.readSigned (String.ofList (Text.trimList p)) with
    | error fault =>
      have hnone := Text.exists_readSigned_eq_error_iff.1 ⟨fault, h⟩
      rw [List.filterMap_cons_none (by rw [h]; rfl), ih]
      constructor
      · exact .other hnone
      · intro hread
        cases hread with
        | integer hi => exact absurd hi (hnone _)
        | other _ hrest => exact hrest
    | ok i =>
      have hi := Text.readSigned_eq_ok_iff.1 h
      rw [List.filterMap_cons_some (b := i) (by rw [h]; rfl)]
      constructor
      · rintro rfl
        exact .integer hi (ih.1 rfl)
      · intro hread
        cases hread with
        | integer hj hrest =>
          have hij := (Text.readSigned_eq_ok_iff.2 hj).symm.trans h
          rw [ih.2 hrest, Except.ok.inj hij]
        | other hnone => exact absurd hi (hnone i)

/-- **A text falls into a name and parameters in one way.** -/
theorem parseName_eq_iff {text name : String} {params : List Int} :
    parseName text = (name, params) ↔ Spelled text name params := by
  have hne := Text.splitList_ne_nil ':' (Text.trimList text.toList)
  unfold parseName Spelled
  cases hpieces : Text.splitList ':' (Text.trimList text.toList) with
  | nil => exact absurd hpieces hne
  | cons head rest =>
    obtain ⟨-, hfree, hwhole⟩ := Text.splitList_eq_iff.1 hpieces
    simp only [Prod.mk.injEq]
    rw [filterMap_eq_iff_integers]
    constructor
    · rintro ⟨rfl, hparams⟩
      exact ⟨rest, by rwa [String.toList_ofList], by rwa [String.toList_ofList], hparams⟩
    · rintro ⟨pieces, hwhole', hfree', hparams⟩
      have heq := Text.splitList_eq_iff.2 ⟨List.cons_ne_nil _ _, hfree', hwhole'⟩
      obtain ⟨rfl, rfl⟩ := List.cons.inj (hpieces.symm.trans heq)
      exact ⟨String.ofList_toList, hparams⟩

theorem exists_spelled (text : String) : ∃ name params, Spelled text name params :=
  ⟨_, _, parseName_eq_iff.1 rfl⟩

theorem Spelled.unique {text name name' : String} {params params' : List Int}
    (h : Spelled text name params) (h' : Spelled text name' params') :
    name = name' ∧ params = params' :=
  Prod.mk.inj ((parseName_eq_iff.2 h).symm.trans (parseName_eq_iff.2 h'))

/-! ## Actions by name -/

/-- An action that is written without a parameter. -/
def Bare (a : Action) : Prop := a.parameter? = none

theorem plain?_eq_some_iff {name : String} {a : Action} :
    plain? name = some a ↔ a.name = name ∧ a.Bare := by
  constructor
  · intro h
    have hbare : ∀ b ∈ [control .null, control .return, control .continue, control .abort,
        control .skip, control .exit, addAttestToPool, storeSignedAttest, storeSignedBlock,
        delayToNextSlot, delayToEpochEnd, delayHalfEpoch, packPooledAttest, rePackAttestation],
        b.parameter? = none := by decide
    exact ⟨by simpa using List.find?_some h, hbare a (List.mem_of_find?_eq_some h)⟩
  · rintro ⟨rfl, hbare⟩
    cases a with
    | control c => cases c <;> rfl
    | delayWithSecond | delayToAfterNextSlot | delayToNextNEpochStart | delayToNextNEpochEnd
    | delayToNextNEpochHalf | modifyParentRoot => cases hbare
    | _ => rfl

/-- What a text is read as. The two delays that need a number of seconds draw it if the text gives
none. -/
inductive Parsed (text : String) (r : RandomStream) :
    Except StrategyError (Action × RandomStream) → Prop
  | bare {a : Action} {params : List Int} (spelled : Spelled text a.name params)
    (bare : a.Bare) : Parsed text r (.ok (a, r))
  | delayWithSecond {params : List Int} (spelled : Spelled text "delayWithSecond" params) :
    Parsed text r (.ok (delayWithSecond (secondsOrRandom params r).1, (secondsOrRandom params r).2))
  | delayToAfterNextSlot {params : List Int}
    (spelled : Spelled text "delayToAfterNextSlot" params) :
    Parsed text r
      (.ok (delayToAfterNextSlot (secondsOrRandom params r).1, (secondsOrRandom params r).2))
  | delayToNextNEpochStart {params : List Int}
    (spelled : Spelled text "delayToNextNEpochStart" params) :
    Parsed text r (.ok (delayToNextNEpochStart (parameterOr 1 params), r))
  | delayToNextNEpochEnd {params : List Int}
    (spelled : Spelled text "delayToNextNEpochEnd" params) :
    Parsed text r (.ok (delayToNextNEpochEnd (parameterOr 0 params), r))
  | delayToNextNEpochHalf {params : List Int}
    (spelled : Spelled text "delayToNextNEpochHalf" params) :
    Parsed text r (.ok (delayToNextNEpochHalf (parameterOr 1 params), r))
  | modifyParentRoot {i : Int} {rest : List Int}
    (spelled : Spelled text "modifyParentRoot" (i :: rest)) (nonneg : 0 ≤ i) :
    Parsed text r (.ok (modifyParentRoot ⟨parameterWord i⟩, r))
  | missing (spelled : Spelled text "modifyParentRoot" []) :
    Parsed text r (.error (.missingParameter "modifyParentRoot"))
  | negative {i : Int} {rest : List Int}
    (spelled : Spelled text "modifyParentRoot" (i :: rest)) (below : i < 0) :
    Parsed text r (.error (.invalidParameter "modifyParentRoot" i))
  | unknown {name : String} {params : List Int} (spelled : Spelled text name params)
    (no_action : ∀ a : Action, a.name ≠ name) : Parsed text r (.error (.unknownAction name))

/-- A name that is none of the names with a parameter, and of no plain action, is of no action. -/
theorem name_ne_of_plain?_eq_none {name : String} (hplain : plain? name = none)
    (h₁ : name ≠ "delayWithSecond") (h₂ : name ≠ "delayToAfterNextSlot")
    (h₃ : name ≠ "delayToNextNEpochStart") (h₄ : name ≠ "delayToNextNEpochEnd")
    (h₅ : name ≠ "delayToNextNEpochHalf") (h₆ : name ≠ "modifyParentRoot") (a : Action) :
    a.name ≠ name := by
  rintro rfl
  by_cases hbare : a.Bare
  · rw [plain?_eq_some_iff.2 ⟨rfl, hbare⟩] at hplain
    cases hplain
  · cases a with
    | delayWithSecond => exact h₁ rfl
    | delayToAfterNextSlot => exact h₂ rfl
    | delayToNextNEpochStart => exact h₃ rfl
    | delayToNextNEpochEnd => exact h₄ rfl
    | delayToNextNEpochHalf => exact h₅ rfl
    | modifyParentRoot => exact h₆ rfl
    | _ => exact hbare rfl

/-- **Every text is read as its name says.** -/
theorem parsed_parse (text : String) (r : RandomStream) : Parsed text r (parse text r) := by
  obtain ⟨name, params, spelled⟩ := exists_spelled text
  rw [parse, parseName_eq_iff.2 spelled]
  simp only
  cases hplain : plain? name with
  | some a =>
    obtain ⟨rfl, hbare⟩ := plain?_eq_some_iff.1 hplain
    exact .bare spelled hbare
  | none =>
    simp only
    split
    case isTrue h =>
      subst h
      exact .delayWithSecond spelled
    split
    case isTrue h =>
      subst h
      exact .delayToAfterNextSlot spelled
    split
    case isTrue h =>
      subst h
      exact .delayToNextNEpochStart spelled
    split
    case isTrue h =>
      subst h
      exact .delayToNextNEpochEnd spelled
    split
    case isTrue h =>
      subst h
      exact .delayToNextNEpochHalf spelled
    split
    case isTrue h =>
      subst h
      cases params with
      | nil => exact .missing spelled
      | cons i rest =>
        by_cases hi : i < 0
        · rw [readRootSlot, if_pos hi]
          exact .negative spelled hi
        · rw [readRootSlot, if_neg hi]
          exact .modifyParentRoot spelled (Int.not_lt.1 hi)
    case isFalse h₁ h₂ h₃ h₄ h₅ h₆ =>
      exact .unknown spelled (name_ne_of_plain?_eq_none hplain h₁ h₂ h₃ h₄ h₅ h₆)

theorem parse_of_no_action {text name : String} {params : List Int} {r : RandomStream}
    (spelled : Spelled text name params) (no_action : ∀ a : Action, a.name ≠ name) :
    parse text r = .error (.unknownAction name) := by
  have hplain : plain? name = none := by
    cases h : plain? name with
    | none => rfl
    | some a => exact absurd (plain?_eq_some_iff.1 h).1 (no_action a)
  have hne : ∀ a : Action, ¬ name = a.name := fun a h => no_action a h.symm
  rw [parse, parseName_eq_iff.2 spelled]
  simp only [hplain]
  refine (if_neg (hne (.delayWithSecond 0))).trans ?_
  refine (if_neg (hne (.delayToAfterNextSlot 0))).trans ?_
  refine (if_neg (hne (.delayToNextNEpochStart 0))).trans ?_
  refine (if_neg (hne (.delayToNextNEpochEnd 0))).trans ?_
  refine (if_neg (hne (.delayToNextNEpochHalf 0))).trans ?_
  exact if_neg (hne (.modifyParentRoot ⟨0⟩))

/-- **A text is read in one way.** -/
theorem parse_eq_iff {text : String} {r : RandomStream}
    {result : Except StrategyError (Action × RandomStream)} :
    parse text r = result ↔ Parsed text r result := by
  constructor
  · rintro rfl
    exact parsed_parse text r
  · intro h
    cases h with
    | bare spelled hbare =>
      rw [parse, parseName_eq_iff.2 spelled]
      simp only [plain?_eq_some_iff.2 ⟨rfl, hbare⟩]
    | @modifyParentRoot i rest spelled nonneg =>
      have hroot : readRootSlot "modifyParentRoot" (i :: rest) = .ok ⟨parameterWord i⟩ :=
        if_neg (Int.not_lt.2 nonneg)
      rw [parse, parseName_eq_iff.2 spelled]
      exact congrArg (Except.map fun s => (Action.modifyParentRoot s, r)) hroot
    | @negative i rest spelled below =>
      have hroot : readRootSlot "modifyParentRoot" (i :: rest) =
          .error (.invalidParameter "modifyParentRoot" i) := if_pos below
      rw [parse, parseName_eq_iff.2 spelled]
      exact congrArg (Except.map fun s => (Action.modifyParentRoot s, r)) hroot
    | unknown spelled no_action => exact parse_of_no_action spelled no_action
    | _ spelled =>
      rw [parse, parseName_eq_iff.2 spelled]
      rfl

end Saboteur.Action
