import Saboteur.Proofs.Bytes.Reading
import Saboteur.Proofs.Text.Ascii
import Saboteur.Url.Domain

/-!
# Normal forms of domain names

A normal form is of ASCII, without capitals and without the marks of an address, and it is its own
normal form. For a plain name this follows from what becoming lowercase does, for any other from the
two properties of the tables.
-/

namespace Saboteur.Url

/-! ## Characters -/

/-- A character that stands in a normal form. -/
structure IsDomainChar (c : Char) : Prop where
  ascii : isAscii c = true
  lowercase : ¬ IsCapital c
  allowed : forbiddenInDomain c = false

theorem isDomainChar_iff {c : Char} : IsDomainChar c ↔
    isAscii c = true ∧ ¬ IsCapital c ∧ forbiddenInDomain c = false :=
  ⟨fun h => ⟨h.ascii, h.lowercase, h.allowed⟩, fun ⟨hascii, hlower, hallowed⟩ =>
    ⟨hascii, hlower, hallowed⟩⟩

instance (c : Char) : Decidable (IsDomainChar c) := decidable_of_iff _ isDomainChar_iff.symm

theorem lowerAscii_of_not_isCapital {c : Char} (h : ¬ IsCapital c) : lowerAscii c = c := if_neg h

theorem map_lowerAscii_of_lowercase {s : List Char} (h : ∀ c ∈ s, ¬ IsCapital c) :
    s.map lowerAscii = s :=
  (List.map_congr_left fun c hc => lowerAscii_of_not_isCapital (h c hc)).trans s.map_id

/-- A letter of ASCII has a lowercase form of ASCII. -/
theorem isAscii_lowerAscii {c : Char} (h : isAscii c = true) :
    isAscii (lowerAscii c) = true ∧ ¬ IsCapital (lowerAscii c) :=
  Text.of_forall_lt_128 (P := fun c => isAscii (lowerAscii c) = true ∧ ¬ IsCapital (lowerAscii c))
    (by decide) (of_decide_eq_true h)

/-! ## Bytes of a name -/

/-- Bytes without percent signs stand for themselves. -/
theorem decodePercent_eq_self {bytes : List UInt8} (h : 0x25 ∉ bytes) :
    decodePercent bytes = bytes := by
  fun_induction decodePercent bytes with
  | case1 a b rest _ _ _ _ _ => exact absurd List.mem_cons_self h
  | case2 a b rest _ _ => exact absurd List.mem_cons_self h
  | case3 b rest _ ih => rw [ih fun hmem => h (List.mem_cons_of_mem _ hmem)]
  | case4 => rfl

theorem decodePercent_of_domainChars {name : List Char} (h : ∀ c ∈ name, IsDomainChar c) :
    decodePercent (String.ofList name).toUTF8.toList = (String.ofList name).toUTF8.toList := by
  refine decodePercent_eq_self fun hmem => ?_
  rw [Text.bytes_ofList, List.mem_flatMap] at hmem
  obtain ⟨c, hc, hbyte⟩ := hmem
  have hascii : c.toNat < 128 := of_decide_eq_true (h c hc).ascii
  rw [Text.utf8EncodeChar_of_lt hascii, List.mem_singleton] at hbyte
  have hcode : c.toNat = 0x25 := by
    have hvalue := congrArg UInt8.toNat hbyte
    rw [UInt8.toNat_ofNat'] at hvalue
    change 0x25 = c.toNat % 2 ^ 8 at hvalue
    omega
  have hpercent : c = '%' := Char.toNat_inj.1 hcode
  exact absurd (hpercent ▸ h c hc) (by decide)

/-! ## Plain names -/

theorem isAscii_of_mem_map_lowerAscii {s : List Char} (h : isPlainName s = true) :
    ∀ c ∈ s.map lowerAscii, isAscii c = true ∧ ¬ IsCapital c := by
  intro c hc
  obtain ⟨d, hd, rfl⟩ := List.mem_map.1 hc
  exact isAscii_lowerAscii (List.all_eq_true.1 (Bool.and_eq_true_iff.1 h).1 d hd)

/-- Which letters are capitals makes no difference to whether a name is plain. -/
theorem isPlainName_map_lowerAscii {s : List Char} (h : isPlainName s = true) :
    isPlainName (s.map lowerAscii) = true := by
  have hall := isAscii_of_mem_map_lowerAscii h
  refine Bool.and_eq_true_iff.2 ⟨List.all_eq_true.2 fun c hc => (hall c hc).1, ?_⟩
  rw [map_lowerAscii_of_lowercase fun c hc => (hall c hc).2]
  exact (Bool.and_eq_true_iff.1 h).2

section Normalising

variable [Idna] {s name : String}

/-- A plain name without capitals is its own form of ASCII. -/
theorem asciiForm?_of_isPlainName (h : isPlainName name.toList = true)
    (hlower : ∀ c ∈ name.toList, ¬ IsCapital c) : asciiForm? name = some name := by
  rw [asciiForm?, if_pos h, map_lowerAscii_of_lowercase hlower, String.ofList_toList]

/-- A form of ASCII that may stand in an address is its own normal form. -/
theorem normalDomain?_of_asciiForm? (hchar : ∀ c ∈ name.toList, IsDomainChar c)
    (h : asciiForm? name = some name) :
    normalDomain? (decodePercent name.toUTF8.toList) = some name := by
  have hdecode := decodePercent_of_domainChars hchar
  rw [String.ofList_toList] at hdecode
  have hread : String.fromUTF8? ⟨name.toUTF8.toList.toArray⟩ = some name := by
    rw [Text.toList_eq_data, Array.toArray_toList]
    exact Text.fromUTF8?_toUTF8 name
  have hallowed : ¬ name.toList.any forbiddenInDomain = true := by
    rw [List.any_eq_true]
    rintro ⟨c, hc, hforbidden⟩
    rw [(hchar c hc).allowed] at hforbidden
    cases hforbidden
  rw [hdecode, normalDomain?, hread]
  simp only [Option.bind_eq_bind, Option.bind_some, h, if_neg hallowed]

/-! ## Any name -/

variable [LawfulIdna]

/-- **A form of ASCII is its own form of ASCII.** -/
theorem asciiForm?_asciiForm? (h : asciiForm? s = some name) :
    (∀ c ∈ name.toList, isAscii c = true ∧ ¬ IsCapital c) ∧ asciiForm? name = some name := by
  unfold asciiForm? at h
  split at h
  · rename_i hplain
    cases h
    have hchar := isAscii_of_mem_map_lowerAscii hplain
    rw [← String.toList_ofList (l := s.toList.map lowerAscii)] at hchar
    refine ⟨hchar, asciiForm?_of_isPlainName ?_ fun c hc => (hchar c hc).2⟩
    rw [String.toList_ofList]
    exact isPlainName_map_lowerAscii hplain
  · have hchar := LawfulIdna.ascii_of_toAscii? h
    refine ⟨hchar, ?_⟩
    cases hplain : isPlainName name.toList with
    | true => exact asciiForm?_of_isPlainName hplain fun c hc => (hchar c hc).2
    | false =>
      rw [asciiForm?, if_neg (Bool.eq_false_iff.1 hplain)]
      exact LawfulIdna.toAscii?_toAscii? h hplain

/-- **The normal form of a domain name is its own normal form.** -/
theorem normalDomain?_normalDomain? {bytes : List UInt8} (h : normalDomain? bytes = some name) :
    (∀ c ∈ name.toList, IsDomainChar c) ∧
      normalDomain? (decodePercent name.toUTF8.toList) = some name := by
  obtain ⟨s, -, h⟩ := Option.bind_eq_some_iff.1 h
  obtain ⟨form, hform, h⟩ := Option.bind_eq_some_iff.1 h
  split at h
  · cases h
  rename_i hallowed
  cases h
  obtain ⟨hascii, hsame⟩ := asciiForm?_asciiForm? hform
  have hchar : ∀ c ∈ name.toList, IsDomainChar c := fun c hc => {
    ascii := (hascii c hc).1
    lowercase := (hascii c hc).2
    allowed := Bool.eq_false_iff.2 fun hf => hallowed (List.any_eq_true.2 ⟨c, hc, hf⟩) }
  exact ⟨hchar, normalDomain?_of_asciiForm? hchar hsame⟩

end Normalising

end Saboteur.Url
