import Saboteur.Proofs.Action.Text
import Saboteur.Proofs.Text.Ascii

/-!
# Displayed actions

An action that was read has a parameter below 2 ^ 63, so its display is read as the same action
again, and nothing is drawn for it. What was drawn for a text shows in the seconds of its delay
only, and only where the text leaves them open.
-/

namespace Saboteur

/-! ## Drawn numbers -/

namespace RandomStream

/-- A draw stays below its bound, however often it is tried. -/
theorem drawWithin_lt {size : Nat} (h : 0 < size) (tries : Nat) (r : RandomStream) :
    (drawWithin size tries r).1 < size := by
  have hscaled (w : UInt64) : w.toNat * size / Word.count < size := by
    rw [Nat.div_lt_iff_lt_mul (by decide), Nat.mul_comm]
    exact Nat.mul_lt_mul_of_pos_left (Word.toNat_lt_count w) h
  induction tries generalizing r with
  | zero => exact hscaled _
  | succ tries ih =>
    rw [drawWithin]
    split
    · exact hscaled _
    · exact ih _

theorem draw_lt {size : Nat} (h : 0 < size) (r : RandomStream) : (r.draw size).1 < size :=
  drawWithin_lt h patience r

end RandomStream

namespace Action

/-! ## Reading a display -/

/-- The parameter of an action, if it has one, is read back from its decimal text. -/
def Readable (a : Action) : Prop := ∀ n, a.parameter? = some n → n.toNat < Word.negativeCount

/-- Names of actions are letters and digits, so none has a colon in it. -/
theorem isAlphanum_of_mem_name {a : Action} {c : Char} (h : c ∈ a.name.toList) :
    c.isAlphanum = true := by
  have hall : a.name.toList.all Char.isAlphanum = true := by
    cases a with
    | control c =>
      rw [name]
      cases c <;> decide
    | _ =>
      rw [name]
      decide
  exact List.all_eq_true.1 hall c h

theorem colon_not_mem {cs : List Char} (h : ∀ c ∈ cs, c.isAlphanum = true) : ':' ∉ cs := by
  intro hc
  cases h ':' hc

theorem isAlphanum_of_mem_decimal {n : UInt64} {c : Char} (h : c ∈ (Word.decimal n).toList) :
    c.isAlphanum = true := by
  rw [Word.decimal, Nat.toList_repr] at h
  rw [Char.isAlphanum, (Text.digits_toDigits n.toNat).digits c h, Bool.or_true]

/-- An action without a parameter is displayed as its name. -/
theorem spelled_display_of_bare {a : Action} (h : a.Bare) : Spelled a.display a.name [] := by
  have hname := fun c (hc : c ∈ a.name.toList) => isAlphanum_of_mem_name hc
  have hdisplay : a.display = a.name := by rw [display, h]
  rw [hdisplay]
  refine ⟨[], ?_, by simpa using colon_not_mem hname, .nil⟩
  rw [List.intercalate_singleton]
  exact Text.trimList_eq_self fun c hc => Text.isBlank_of_isAlphanum (hname c hc)

/-- An action with a parameter is displayed as its name and the parameter, as far as the signed
numbers reach. -/
theorem spelled_display {a : Action} {n : UInt64} (hparam : a.parameter? = some n)
    (h : n.toNat < Word.negativeCount) : Spelled a.display a.name [(n.toNat : Int)] := by
  have hname := fun c (hc : c ∈ a.name.toList) => isAlphanum_of_mem_name hc
  have hdigits := fun c (hc : c ∈ (Word.decimal n).toList) => isAlphanum_of_mem_decimal hc
  rw [display, hparam]
  refine ⟨[(Word.decimal n).toList], ?_, ?_, .integer ?_ .nil⟩
  · simp only [String.toList_append]
    rw [Text.trimList_eq_self]
    · simp
    · intro c hc
      rcases List.mem_append.1 hc with hc | hc
      · rcases List.mem_append.1 hc with hc | hc
        · exact Text.isBlank_of_isAlphanum (hname c hc)
        · rw [List.mem_singleton.1 hc]
          rfl
      · exact Text.isBlank_of_isAlphanum (hdigits c hc)
  · simpa using ⟨colon_not_mem hname, colon_not_mem hdigits⟩
  · rw [Text.trimList_eq_self fun c hc => Text.isBlank_of_isAlphanum (hdigits c hc),
      String.ofList_toList]
    exact Text.isInteger_repr h

theorem parameterWord_toNat (n : UInt64) : parameterWord n.toNat = n := by
  rw [parameterWord, Int.toNat_natCast, UInt64.ofNat_toNat]

/-- **The display of an action is read as that action, and nothing is drawn.** -/
theorem parse_display {a : Action} (h : a.Readable) (r : RandomStream) :
    parse a.display r = .ok (a, r) := by
  rw [parse_eq_iff]
  cases a with
  | delayWithSecond n =>
    have hspelled := spelled_display (a := delayWithSecond n) rfl (h n rfl)
    have hparsed := Parsed.delayWithSecond (r := r) hspelled
    rwa [secondsOrRandom, parameterWord_toNat] at hparsed
  | delayToAfterNextSlot n =>
    have hspelled := spelled_display (a := delayToAfterNextSlot n) rfl (h n rfl)
    have hparsed := Parsed.delayToAfterNextSlot (r := r) hspelled
    rwa [secondsOrRandom, parameterWord_toNat] at hparsed
  | delayToNextNEpochStart n =>
    have hspelled := spelled_display (a := delayToNextNEpochStart n) rfl (h n rfl)
    have hparsed := Parsed.delayToNextNEpochStart (r := r) hspelled
    rwa [parameterOr, parameterWord_toNat] at hparsed
  | delayToNextNEpochEnd n =>
    have hspelled := spelled_display (a := delayToNextNEpochEnd n) rfl (h n rfl)
    have hparsed := Parsed.delayToNextNEpochEnd (r := r) hspelled
    rwa [parameterOr, parameterWord_toNat] at hparsed
  | delayToNextNEpochHalf n =>
    have hspelled := spelled_display (a := delayToNextNEpochHalf n) rfl (h n rfl)
    have hparsed := Parsed.delayToNextNEpochHalf (r := r) hspelled
    rwa [parameterOr, parameterWord_toNat] at hparsed
  | modifyParentRoot s =>
    have hspelled := spelled_display (a := modifyParentRoot s) rfl (h s.val rfl)
    have hparsed := Parsed.modifyParentRoot (r := r) hspelled (Int.natCast_nonneg _)
    rwa [parameterWord_toNat] at hparsed
  | _ => exact .bare (spelled_display_of_bare rfl) rfl

/-! ## What is read is readable -/

/-- What is read as a signed number is below the words that stand for negative ones. -/
theorem Integers.lt {ps : List (List Char)} {is : List Int} (h : Integers ps is) :
    ∀ i ∈ is, i < Word.negativeCount := by
  induction h with
  | nil => exact nofun
  | integer h _ ih => exact List.forall_mem_cons.2 ⟨h.2.2, ih⟩
  | other _ _ ih => exact ih

theorem Spelled.lt {text name : String} {params : List Int} (h : Spelled text name params) :
    ∀ i ∈ params, i < Word.negativeCount := by
  obtain ⟨_, -, -, hparams⟩ := h
  exact hparams.lt

/-- A parameter that was read is no word that stands for a negative number. -/
theorem toNat_parameterWord_lt {i : Int} (h : i < Word.negativeCount) :
    (parameterWord i).toNat < Word.negativeCount := by
  have hcount : Word.negativeCount = 2 ^ 63 := rfl
  rw [parameterWord, UInt64.toNat_ofNat', Nat.mod_eq_of_lt (by omega)]
  omega

/-- A default in place of a parameter is in the same range. -/
theorem toNat_parameterOr_lt {default : UInt64} {params : List Int}
    (hdefault : default.toNat < Word.negativeCount) (h : ∀ i ∈ params, i < Word.negativeCount) :
    (parameterOr default params).toNat < Word.negativeCount := by
  cases params with
  | nil => exact hdefault
  | cons i rest => exact toNat_parameterWord_lt (h i List.mem_cons_self)

/-- Seconds are in that range also where they are drawn. -/
theorem toNat_secondsOrRandom_lt {params : List Int} (h : ∀ i ∈ params, i < Word.negativeCount)
    (r : RandomStream) : (secondsOrRandom params r).1.toNat < Word.negativeCount := by
  cases params with
  | nil =>
    have hdraw := RandomStream.draw_lt (by decide : 0 < randomDelayBound) r
    have hcount : Word.negativeCount = 2 ^ 63 := rfl
    have hbound : randomDelayBound = 10 := rfl
    rw [secondsOrRandom, UInt64.toNat_ofNat', Nat.mod_eq_of_lt (by omega)]
    omega
  | cons i rest => exact toNat_parameterWord_lt (h i List.mem_cons_self)

/-- An action whose parameter is in that range can be read back. -/
theorem readable_of_lt {a : Action} {n : UInt64} (hparam : a.parameter? = some n)
    (h : n.toNat < Word.negativeCount) : a.Readable := by
  intro m hm
  obtain rfl := Option.some.inj (hparam.symm.trans hm)
  exact h

/-- An action without a parameter can be read back. -/
theorem readable_of_bare {a : Action} (h : a.Bare) : a.Readable := by
  intro n hn
  rw [h] at hn
  cases hn

/-- What was read can be read back. -/
theorem readable_of_parse {text : String} {r r' : RandomStream} {a : Action}
    (h : parse text r = .ok (a, r')) : a.Readable := by
  cases parse_eq_iff.1 h with
  | bare _ hbare => exact readable_of_bare hbare
  | delayWithSecond hspelled => exact readable_of_lt rfl (toNat_secondsOrRandom_lt hspelled.lt r)
  | delayToAfterNextSlot hspelled =>
    exact readable_of_lt rfl (toNat_secondsOrRandom_lt hspelled.lt r)
  | delayToNextNEpochStart hspelled =>
    exact readable_of_lt rfl (toNat_parameterOr_lt (by decide) hspelled.lt)
  | delayToNextNEpochEnd hspelled =>
    exact readable_of_lt rfl (toNat_parameterOr_lt (by decide) hspelled.lt)
  | delayToNextNEpochHalf hspelled =>
    exact readable_of_lt rfl (toNat_parameterOr_lt (by decide) hspelled.lt)
  | modifyParentRoot hspelled _ =>
    exact readable_of_lt rfl (toNat_parameterWord_lt (hspelled.lt _ List.mem_cons_self))

/-! ## What is drawn -/

/-- Two actions that a text can be read as: they are the same, but for the seconds of a delay for
which the text gives none. -/
inductive Redrawn (text : String) : Action → Action → Prop
  | same (a : Action) : Redrawn text a a
  | delayWithSecond (m n : UInt64) (spelled : Spelled text "delayWithSecond" []) :
    Redrawn text (delayWithSecond m) (delayWithSecond n)
  | delayToAfterNextSlot (m n : UInt64) (spelled : Spelled text "delayToAfterNextSlot" []) :
    Redrawn text (delayToAfterNextSlot m) (delayToAfterNextSlot n)

/-- A text that leaves the seconds of its delay open. -/
def LeavesOpen (text : String) : Prop :=
  Spelled text "delayWithSecond" [] ∨ Spelled text "delayToAfterNextSlot" []

/-- Reading a text again gives the same action, unless the text leaves a draw open. -/
theorem Redrawn.eq {text : String} {a b : Action} (h : Redrawn text a b)
    (hopen : ¬ LeavesOpen text) : a = b := by
  cases h with
  | same => rfl
  | delayWithSecond _ _ spelled => exact absurd (.inl spelled) hopen
  | delayToAfterNextSlot _ _ spelled => exact absurd (.inr spelled) hopen

/-- **What is read depends on the stream only where the text leaves seconds open.** -/
theorem exists_parse_redrawn {text : String} {r₁ r₁' : RandomStream} {a : Action}
    (h : parse text r₁ = .ok (a, r₁')) (r₂ : RandomStream) :
    ∃ b r₂', parse text r₂ = .ok (b, r₂') ∧ Redrawn text a b := by
  simp only [parse_eq_iff]
  cases parse_eq_iff.1 h with
  | bare spelled hbare => exact ⟨_, _, .bare spelled hbare, .same _⟩
  | @delayWithSecond params spelled =>
    refine ⟨_, _, .delayWithSecond spelled, ?_⟩
    cases params with
    | nil => exact .delayWithSecond _ _ spelled
    | cons i rest => exact .same _
  | @delayToAfterNextSlot params spelled =>
    refine ⟨_, _, .delayToAfterNextSlot spelled, ?_⟩
    cases params with
    | nil => exact .delayToAfterNextSlot _ _ spelled
    | cons i rest => exact .same _
  | delayToNextNEpochStart spelled => exact ⟨_, _, .delayToNextNEpochStart spelled, .same _⟩
  | delayToNextNEpochEnd spelled => exact ⟨_, _, .delayToNextNEpochEnd spelled, .same _⟩
  | delayToNextNEpochHalf spelled => exact ⟨_, _, .delayToNextNEpochHalf spelled, .same _⟩
  | modifyParentRoot spelled nonneg => exact ⟨_, _, .modifyParentRoot spelled nonneg, .same _⟩

/-- **Nothing is drawn where the text leaves nothing open.** -/
theorem used_of_parse {text : String} {r r' : RandomStream} {a : Action}
    (h : parse text r = .ok (a, r')) (hopen : ¬ LeavesOpen text) : r' = r := by
  cases parse_eq_iff.1 h with
  | @delayWithSecond params spelled =>
    cases params with
    | nil => exact absurd (.inl spelled) hopen
    | cons i rest => rfl
  | @delayToAfterNextSlot params spelled =>
    cases params with
    | nil => exact absurd (.inr spelled) hopen
    | cons i rest => rfl
  | _ => rfl

end Action

end Saboteur
