import Saboteur.Proofs.Text.Case
import Saboteur.Proofs.Text.Pieces
import Saboteur.Proofs.Url.Domain
import Saboteur.Proofs.Url.Punycode
import Saboteur.Url.Idna

/-!
# The tables of the program are lawful

What is said of addresses holds for the tables that the program runs with: a form of ASCII consists
of lowercase characters of ASCII, and a label of it stays as it is. A label in Punycode does so since
it stands for a label that is written like that.
-/

namespace Saboteur.Url

/-! ## Characters -/

theorem not_isCapital_lowerChar (c : Char) : ¬ IsCapital (Text.lowerChar c) := by
  by_cases hascii : c.toNat < 0x80
  · exact Text.of_forall_lt_128 (P := fun c => ¬ IsCapital (Text.lowerChar c)) (by decide) hascii
  rcases Text.lowerChar_eq_or_le (Nat.not_lt.1 hascii) with hk | hle
  · rw [hk]
    decide
  · unfold IsCapital
    omega

theorem not_isCapital_of_mem_domainChar {c d : Char} (h : d ∈ domainChar c) : ¬ IsCapital d := by
  unfold domainChar at h
  simp only at h
  split at h
  · exact absurd h List.not_mem_nil
  split at h
  · rw [List.mem_singleton.1 h]
    decide
  split at h
  · rw [List.mem_singleton.1 h]
    exact not_isCapital_lowerChar _
  split at h
  · simp only [List.mem_cons, List.not_mem_nil, or_false] at h
    rcases h with rfl | rfl <;> decide
  split at h
  · rw [List.mem_singleton.1 h]
    decide
  · rw [List.mem_singleton.1 h]
    exact not_isCapital_lowerChar _

theorem domainChar_of_ascii {c : Char} (h : isAscii c = true) (hlower : ¬ IsCapital c) :
    domainChar c = [c] :=
  Text.of_forall_lt_128 (P := fun c => ¬ IsCapital c → domainChar c = [c]) (by decide)
    (of_decide_eq_true h) hlower

theorem IsDomainChar.domainChar {c : Char} (h : IsDomainChar c) : Url.domainChar c = [c] :=
  domainChar_of_ascii h.ascii h.lowercase

/-- Every character of ASCII is printed. -/
theorem inRanges_unprintableRanges_of_lt {n : Nat} (h : n < 0x80) :
    Text.inRanges Text.unprintableRanges n = false := by
  have hlow : ∀ r ∈ Text.unprintableRanges, 0x80 ≤ r.1 := by decide +kernel
  rw [Text.inRanges, List.any_eq_false]
  intro r hr
  rw [Bool.and_eq_true, decide_eq_true_eq, decide_eq_true_eq]
  have hr := hlow r hr
  omega

/-- Among the characters of ASCII no more is forbidden in a label than in a name. -/
theorem forbiddenInLabel_of_ascii {c : Char} (h : isAscii c = true) :
    forbiddenInLabel c = forbiddenInDomain c := by
  have hlt : c.toNat < 0x80 := of_decide_eq_true h
  have hne : (c.toNat == 0xFFFD) = false := beq_eq_false_iff_ne.2 (by omega)
  rw [forbiddenInLabel, inRanges_unprintableRanges_of_lt hlt, hne, Bool.or_false, Bool.or_false]

/-- What Punycode adds to a text can stand in a label. -/
theorem isDomainChar_of_isSymbol {c : Char} (h : Punycode.IsSymbol c) :
    IsDomainChar c ∧ c ≠ '.' := by
  have hall : ∀ d < 36, IsDomainChar (Punycode.symbol d) ∧ Punycode.symbol d ≠ '.' := by
    decide
  obtain ⟨d, hd, rfl⟩ := h
  exact hall d hd

theorem isDomainChar_of_mem_punycodeMark {c : Char} (h : c ∈ punycodeMark) :
    IsDomainChar c ∧ c ≠ '.' := by
  have hall : punycodeMark.all (fun c => IsDomainChar c ∧ c ≠ '.') = true := by decide
  exact of_decide_eq_true (List.all_eq_true.1 hall c h)

/-! ## Labels -/

/-- A label as it stands in a form of ASCII. -/
structure IsLabel (label : List Char) : Prop where
  char : ∀ c ∈ label, IsDomainChar c
  point : '.' ∉ label
  same : asciiLabel? label = some label

variable {s label : List Char}

theorem isWideLabel_iff : isWideLabel s = true ↔ s.all isAscii = false ∧
    (∀ c ∈ s, forbiddenInLabel c = false ∧ c ≠ '.' ∧ domainChar c = [c]) ∧
    (s.head?.any fun c => Text.inRanges Text.extendingRanges c.toNat) = false := by
  simp only [isWideLabel, Bool.and_eq_true, Bool.not_eq_true', List.all_eq_true, decide_eq_true_eq,
    beq_iff_eq, and_assoc]

/-- A character of ASCII that may stand in a label, and counts as itself, stands in normal forms. -/
theorem isDomainChar_of_ascii {c : Char} (hascii : isAscii c = true)
    (hallowed : forbiddenInLabel c = false) (hlower : ¬ IsCapital c) : IsDomainChar c :=
  ⟨hascii, hlower, forbiddenInLabel_of_ascii hascii ▸ hallowed⟩

/-- **A label in Punycode stands for a label that is written like that.** -/
theorem isLabel_punycode (hwide : isWideLabel s = true) {code : List Char}
    (hcode : Punycode.encode? s = some code) : IsLabel (punycodeMark ++ code) := by
  obtain ⟨-, hchars, -⟩ := isWideLabel_iff.1 hwide
  have hchar : ∀ c ∈ punycodeMark ++ code, IsDomainChar c ∧ c ≠ '.' := by
    intro c hc
    rcases List.mem_append.1 hc with hc | hc
    · exact isDomainChar_of_mem_punycodeMark hc
    rcases Punycode.mem_of_mem_encode? hcode hc with hbasic | rfl | hsymbol
    · obtain ⟨hmem, hascii⟩ := List.mem_filter.1 hbasic
      obtain ⟨hallowed, hpoint, hsame⟩ := hchars c hmem
      have hlower : ¬ IsCapital c :=
        not_isCapital_of_mem_domainChar (hsame ▸ List.mem_singleton_self c)
      exact ⟨isDomainChar_of_ascii hascii hallowed hlower, hpoint⟩
    · exact isDomainChar_of_mem_punycodeMark (by decide)
    · exact isDomainChar_of_isSymbol hsymbol
  refine ⟨fun c hc => (hchar c hc).1, fun hmem => (hchar _ hmem).2 rfl, ?_⟩
  have hforbidden : ¬ (punycodeMark ++ code).any forbiddenInLabel = true := by
    rw [List.any_eq_true]
    rintro ⟨c, hc, hforbidden⟩
    have hdomain := (hchar c hc).1
    rw [forbiddenInLabel_of_ascii hdomain.ascii, hdomain.allowed] at hforbidden
    cases hforbidden
  have hascii : (punycodeMark ++ code).all isAscii = true :=
    List.all_eq_true.2 fun c hc => (hchar c hc).1.ascii
  have hmark : (punycodeMark ++ code).take 4 = punycodeMark := rfl
  have hdrop : (punycodeMark ++ code).drop 4 = code := rfl
  rw [asciiLabel?, if_neg hforbidden, if_pos hmark, hascii, hdrop,
    Punycode.decode?_of_encode? hcode]
  simp [hwide]

/-- **The form of ASCII of a label is its own form of ASCII.** -/
theorem isLabel_of_asciiLabel? (hlower : ∀ c ∈ s, ¬ IsCapital c) (hpoint : '.' ∉ s)
    (h : asciiLabel? s = some label) : IsLabel label := by
  have hform := h
  unfold asciiLabel? at h
  split at h
  · cases h
  rename_i hforbidden
  have hplain : s.all isAscii = true → ∀ c ∈ s, IsDomainChar c := fun hascii c hc =>
    isDomainChar_of_ascii (List.all_eq_true.1 hascii c hc)
      (Bool.eq_false_iff.2 fun hf => hforbidden (List.any_eq_true.2 ⟨c, hc, hf⟩)) (hlower c hc)
  split at h
  · split at h
    · rename_i hcode
      cases h
      exact ⟨hplain (Bool.and_eq_true_iff.1 hcode).1, hpoint, hform⟩
    · cases h
  split at h
  · rename_i hascii
    cases h
    exact ⟨hplain hascii, hpoint, hform⟩
  split at h
  · rename_i hwide
    obtain ⟨code, hcode, rfl⟩ := Option.map_eq_some_iff.1 h
    exact isLabel_punycode hwide hcode
  · cases h

/-! ## Names -/

/-- A form of ASCII is made of labels. -/
theorem exists_labels_of_toAscii? {name t : String} (h : Idna.common.toAscii? t = some name) :
    ∃ labels : List (List Char), labels ≠ [] ∧ (∀ label ∈ labels, IsLabel label) ∧
      name = ".".intercalate (labels.map String.ofList) := by
  obtain ⟨labels, hlabels, rfl⟩ := Option.map_eq_some_iff.1 h
  refine ⟨labels, fun hnil => ?_, fun label hlabel => ?_, rfl⟩
  · have hlength := length_of_mapM_eq_some hlabels
    rw [hnil] at hlength
    exact Text.splitList_ne_nil _ _ (List.length_eq_zero_iff.1 hlength.symm)
  · obtain ⟨piece, hpiece, hform⟩ := exists_of_mem_mapM hlabels hlabel
    refine isLabel_of_asciiLabel? (fun c hc => ?_) (Text.not_mem_of_mem_splitList hpiece) hform
    obtain ⟨d, -, hd⟩ := List.mem_flatMap.1 (Text.mem_of_mem_splitList hpiece hc)
    exact not_isCapital_of_mem_domainChar hd

section Labels

variable {labels : List (List Char)} (h : ∀ label ∈ labels, IsLabel label)

include h

theorem isDomainChar_of_labels :
    ∀ c ∈ (".".intercalate (labels.map String.ofList)).toList, IsDomainChar c := by
  intro c hc
  have hname := Text.toList_intercalate_ofList "." labels
  rw [hname] at hc
  rcases Text.mem_of_mem_intercalate hc with rfl | ⟨label, hlabel, hc⟩
  · decide
  · exact (h label hlabel).char c hc

/-- **Labels make up a name that is its own form of ASCII.** -/
theorem toAscii?_labels (hne : labels ≠ []) :
    Idna.common.toAscii? (".".intercalate (labels.map String.ofList)) =
      some (".".intercalate (labels.map String.ofList)) := by
  have hname := Text.toList_intercalate_ofList "." labels
  have hsame := flatMap_eq_self fun c hc => (isDomainChar_of_labels h c hc).domainChar
  have hsplit : Text.splitList '.' (".".intercalate (labels.map String.ofList)).toList = labels :=
    Text.splitList_eq_iff.2 ⟨hne, fun label hlabel => (h label hlabel).point, hname⟩
  show ((Text.splitList '.' _).mapM asciiLabel?).map _ = _
  rw [hsame, hsplit, mapM_eq_some_of_forall fun label hlabel => (h label hlabel).same]
  rfl

end Labels

/-- **The tables that the program runs with are lawful.** -/
instance : @LawfulIdna Idna.common where
  ascii_of_toAscii? hform c hc := by
    obtain ⟨labels, -, hlabels, rfl⟩ := exists_labels_of_toAscii? hform
    exact ⟨(isDomainChar_of_labels hlabels c hc).ascii,
      (isDomainChar_of_labels hlabels c hc).lowercase⟩
  toAscii?_toAscii? hform _ := by
    obtain ⟨labels, hne, hlabels, rfl⟩ := exists_labels_of_toAscii? hform
    exact toAscii?_labels hlabels hne

end Saboteur.Url
