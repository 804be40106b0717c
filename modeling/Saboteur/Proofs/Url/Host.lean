import Saboteur.Proofs.Net.RoundTrip
import Saboteur.Proofs.Text.Pieces
import Saboteur.Proofs.Url.Domain
import Saboteur.Proofs.Url.Encoding

/-!
# Hosts are read as they were written

The text of a host that was read is read as the same host, and holds nothing that would end it.
Whether a name is a numeric address is decided on its normal form, so the text of a name is no
numeric address, and the four numbers of one are read as numbers.
-/

namespace Saboteur.Url

/-- Whether a character can stand in the text of a host without ending it. -/
def IsHostChar (c : Char) : Prop := isControl c = false ∧ c ∉ " /\\?#@".toList

instance (c : Char) : Decidable (IsHostChar c) := inferInstanceAs (Decidable (_ ∧ _))

/-- A host as it is kept. -/
structure IsHost [Idna] (special : Bool) (h : Host) : Prop where
  read : Host.read special h.render.toList = .ok h
  char : ∀ c ∈ h.render.toList, IsHostChar c
  cut : ∀ port : List Char, (∀ c ∈ port.head?, c = ':') →
    cutHost false (h.render.toList ++ port) = (h.render.toList, port)

variable {s : List Char}

/-! ## Cutting off the port -/

theorem cutHost_false_of_head {port : List Char} (hport : ∀ c ∈ port.head?, c = ':') :
    cutHost false port = ([], port) := by
  cases port with
  | nil => rfl
  | cons c rest =>
    have hc : c = ':' := hport c rfl
    rw [cutHost, hc]
    rfl

/-- A host without colons and brackets ends where the port begins. -/
theorem cutHost_of_plain {port : List Char} (hs : ∀ c ∈ s, c ≠ ':' ∧ c ≠ '[' ∧ c ≠ ']')
    (hport : ∀ c ∈ port.head?, c = ':') : cutHost false (s ++ port) = (s, port) := by
  induction s with
  | nil => exact cutHost_false_of_head hport
  | cons c rest ih =>
    obtain ⟨⟨hcolon, hopen, hclose⟩, hrest⟩ := List.forall_mem_cons.1 hs
    rw [List.cons_append, cutHost]
    simp [hcolon, hopen, hclose, ih hrest]

/-- A host in brackets ends behind the second one. -/
theorem cutHost_true_of_brackets {port : List Char} (hs : ∀ c ∈ s, c ≠ '[' ∧ c ≠ ']')
    (hport : ∀ c ∈ port.head?, c = ':') :
    cutHost true (s ++ ']' :: port) = (s ++ [']'], port) := by
  induction s with
  | nil =>
    rw [List.nil_append, cutHost]
    simp [cutHost_false_of_head hport]
  | cons c rest ih =>
    obtain ⟨⟨hopen, hclose⟩, hrest⟩ := List.forall_mem_cons.1 hs
    rw [List.cons_append, cutHost]
    simp [hopen, hclose, ih hrest]

/-! ## Addresses of the new version -/

theorem isHostChar_of_glyph {c : Char} (h : c.isAlphanum = true ∨ c = '.' ∨ c = ':') :
    IsHostChar c ∧ c ≠ '[' ∧ c ≠ ']' := by
  have hlt : c.toNat < 128 := by
    rcases h with h | rfl | rfl
    · exact lt_of_isAlphanum (.inr h)
    · decide
    · decide
  exact Text.of_forall_lt_128 (P := fun c => c.isAlphanum = true ∨ c = '.' ∨ c = ':' →
    IsHostChar c ∧ c ≠ '[' ∧ c ≠ ']') (by decide) hlt h

theorem toList_render_ipv6 (b : Octets 16) : (Host.ipv6 b).render.toList =
    '[' :: ((IpAddress.compressed (IpAddress.groups b.toList)).toList ++ [']']) := by
  rw [Host.render, String.toList_append, String.toList_append]
  rfl

theorem parseBracketed_compressed (b : Octets 16) : Host.parseBracketed
    ((IpAddress.compressed (IpAddress.groups b.toList)).toList ++ [']']) = .ok (.ipv6 b) := by
  rw [Host.parseBracketed, if_pos List.getLast?_concat, List.dropLast_concat,
    IpAddress.readV6?_compressed]

theorem isHost_ipv6 [Idna] (special : Bool) (b : Octets 16) : IsHost special (.ipv6 b) := by
  have hwritten : Written (IpAddress.compressed (IpAddress.groups b.toList)).toList 8 42 :=
    IpAddress.written_compressed (by rw [IpAddress.length_groups, b.length_toList])
      fun g hg => IpAddress.lt_of_mem_groups hg
  have hglyph := fun c hc => isHostChar_of_glyph (hwritten.glyph c hc)
  refine ⟨?_, fun c hc => ?_, fun port hport => ?_⟩
  · rw [toList_render_ipv6, Host.read]
    cases special
    · exact parseBracketed_compressed b
    · exact parseBracketed_compressed b
  · rw [toList_render_ipv6, List.mem_cons, List.mem_append, List.mem_singleton] at hc
    rcases hc with rfl | hc | rfl
    · decide
    · exact (hglyph c hc).1
    · decide
  · rw [toList_render_ipv6, List.cons_append, List.append_assoc, List.singleton_append, cutHost]
    simp [cutHost_true_of_brackets (fun c hc => (hglyph c hc).2) hport]

/-! ## Names -/

theorem isHostChar_of_isDomainChar {c : Char} (h : IsDomainChar c) :
    IsHostChar c ∧ c ≠ ':' ∧ c ≠ '[' ∧ c ≠ ']' :=
  Text.of_forall_lt_128 (P := fun c => IsDomainChar c → IsHostChar c ∧ c ≠ ':' ∧ c ≠ '[' ∧ c ≠ ']')
    (by decide) (of_decide_eq_true h.ascii) h

/-- What does not begin with a bracket is a name. -/
theorem parse_of_head [Idna] (h : s.head? ≠ some '[') : Host.parse s =
    match normalDomain? (decodePercent (String.ofList s).toUTF8.toList) with
    | none => .error .domainName
    | some name =>
      if name = "" then .error .emptyHost
      else if Host.endsInNumber name.toList then Host.parseIpv4 name.toList
      else .ok (.domain name) := by
  unfold Host.parse
  split
  · exact absurd rfl h
  · rfl

theorem head?_ne_of_forall {c : Char} (h : ∀ d ∈ s, d ≠ c) : s.head? ≠ some c := by
  intro hhead
  exact h c (List.mem_of_mem_head? hhead) rfl

/-- **A name in its normal form is read as it was written**, unless it ends in a number. -/
theorem isHost_domain [Idna] {name : String} (hchar : ∀ c ∈ name.toList, IsDomainChar c)
    (hnormal : normalDomain? (decodePercent name.toUTF8.toList) = some name) (hne : name ≠ "")
    (hnumber : ¬ Host.endsInNumber name.toList = true) : IsHost true (.domain name) where
  read := by
    rw [Host.read, if_pos rfl, Host.render,
      parse_of_head (head?_ne_of_forall fun c hc => (isHostChar_of_isDomainChar (hchar c hc)).2.2.1),
      String.ofList_toList, hnormal]
    simp only [if_neg hne, if_neg hnumber]
  char c hc := (isHostChar_of_isDomainChar (hchar c hc)).1
  cut port hport := cutHost_of_plain (fun c hc => (isHostChar_of_isDomainChar (hchar c hc)).2) hport

/-! ## Addresses of the old version -/

theorem isDomainChar_of_isDigit {c : Char} (h : c.isDigit = true) :
    IsDomainChar c ∧ c ≠ '.' ∧ c ≠ 'x' := by
  have hlt : c.toNat < 128 := by
    have := (Text.isDigit_iff.1 h).2
    omega
  exact Text.of_forall_lt_128 (P := fun c => c.isDigit = true →
    IsDomainChar c ∧ c ≠ '.' ∧ c ≠ 'x') (by decide) hlt h

/-- The labels of the text of a numeric address. -/
def octetLabels (bytes : List UInt8) : List (List Char) := bytes.map fun b => Nat.toDigits 10 b.toNat

theorem dotted_eq (bytes : List UInt8) :
    IpAddress.dotted bytes = ".".intercalate ((octetLabels bytes).map String.ofList) := by
  rw [IpAddress.dotted, octetLabels, List.map_map]
  congr 1

theorem isDigit_of_mem_octetLabels {bytes : List UInt8} {label : List Char}
    (h : label ∈ octetLabels bytes) {c : Char} (hc : c ∈ label) : c.isDigit = true := by
  obtain ⟨b, -, rfl⟩ := List.mem_map.1 h
  exact Nat.isDigit_of_mem_toDigits (by decide) (by decide) hc

theorem splitList_dotted {bytes : List UInt8} (hne : bytes ≠ []) :
    Text.splitList '.' (IpAddress.dotted bytes).toList = octetLabels bytes := by
  refine Text.splitList_eq_iff.2 ⟨by simpa [octetLabels] using hne, fun label h hpoint => ?_, ?_⟩
  · exact absurd (isDigit_of_mem_octetLabels h hpoint) (by decide)
  · rw [dotted_eq]
    exact Text.toList_intercalate_ofList "." _

theorem dotted_ne_empty {bytes : List UInt8} (hne : bytes ≠ []) : IpAddress.dotted bytes ≠ "" := by
  intro hempty
  have hsplit := splitList_dotted hne
  rw [hempty] at hsplit
  obtain ⟨b, -, hb⟩ := List.mem_map.1 (hsplit ▸ List.mem_singleton_self ([] : List Char) :
    [] ∈ octetLabels bytes)
  exact Nat.toDigits_ne_nil hb

/-- The text of a numeric address is a plain name. -/
theorem isPlainName_dotted {bytes : List UInt8} (hne : bytes ≠ []) :
    (∀ c ∈ (IpAddress.dotted bytes).toList, IsDomainChar c) ∧
      isPlainName (IpAddress.dotted bytes).toList = true := by
  have hchar : ∀ c ∈ (IpAddress.dotted bytes).toList, IsDomainChar c := by
    intro c hc
    rw [dotted_eq, Text.toList_intercalate_ofList "." _] at hc
    rcases Text.mem_of_mem_intercalate hc with rfl | ⟨label, hlabel, hc⟩
    · decide
    · exact (isDomainChar_of_isDigit (isDigit_of_mem_octetLabels hlabel hc)).1
  refine ⟨hchar, Bool.and_eq_true_iff.2 ⟨List.all_eq_true.2 fun c hc => (hchar c hc).ascii, ?_⟩⟩
  rw [map_lowerAscii_of_lowercase fun c hc => (hchar c hc).lowercase, splitList_dotted hne]
  refine List.all_eq_true.2 fun label hlabel => decide_eq_true fun hmark => ?_
  -- a label of digits has no `x`
  have hx : 'x' ∈ label.take 4 := hmark ▸ List.mem_cons_self
  exact (isDomainChar_of_isDigit
    (isDigit_of_mem_octetLabels hlabel (List.mem_of_mem_take hx))).2.2 rfl

/-- The parts of the text of a numeric address are its numbers. -/
theorem parts_dotted {bytes : List UInt8} (hne : bytes ≠ []) :
    Host.parts (IpAddress.dotted bytes).toList = octetLabels bytes := by
  rw [Host.parts, splitList_dotted hne]
  refine if_neg fun h => ?_
  have hlast := of_decide_eq_true (Bool.and_eq_true_iff.1 h).2
  obtain ⟨b, -, hb⟩ := List.mem_map.1 (List.mem_of_getLast? hlast)
  exact Nat.toDigits_ne_nil hb

theorem number?_toDigits {n : Nat} (h : n < 256) : Host.number? (Nat.toDigits 10 n) = some n := by
  have hall : ∀ n < 256, Host.number? (Nat.toDigits 10 n) = some n := by decide +kernel
  exact hall n h

theorem mapM_number?_octetLabels (bytes : List UInt8) :
    (octetLabels bytes).mapM Host.number? = some (bytes.map UInt8.toNat) := by
  induction bytes with
  | nil => rfl
  | cons b bytes ih =>
    rw [octetLabels, List.map_cons, List.mapM_cons, number?_toDigits b.toNat_lt]
    rw [octetLabels] at ih
    rw [ih]
    rfl

theorem octets_ne_nil (b : Octets 4) : b.toList ≠ [] := fun hnil => by
  have hlength := b.length_toList
  rw [hnil] at hlength
  cases hlength

/-- Four numbers of one byte each are the bytes of an address. -/
theorem ofNumbers?_map_toNat (b : Octets 4) :
    Host.ofNumbers? (b.toList.map UInt8.toNat) = some b := by
  obtain ⟨bytes, hlength⟩ := b
  match bytes, hlength with
  | [b₀, b₁, b₂, b₃], hlength =>
    have h₀ := b₀.toNat_lt
    have h₁ := b₁.toNat_lt
    have h₂ := b₂.toNat_lt
    have h₃ := b₃.toNat_lt
    have hfits : ¬ (255 < b₂.toNat ∨ 255 < b₁.toNat ∨ 255 < b₀.toNat) := by omega
    simpa [Host.ofNumbers?, bigEndian, littleEndian, Octets.ofList?, hfits] using h₃

theorem parseIpv4_dotted (b : Octets 4) :
    Host.parseIpv4 (IpAddress.dotted b.toList).toList = .ok (.ipv4 b) := by
  have hne := octets_ne_nil b
  rw [Host.parseIpv4, parts_dotted hne, mapM_number?_octetLabels]
  simp only [Option.bind_eq_bind, Option.bind_some, ofNumbers?_map_toNat]

/-- **A numeric address is read as it was written.** -/
theorem isHost_ipv4 [Idna] (b : Octets 4) : IsHost true (.ipv4 b) := by
  have hne := octets_ne_nil b
  have hlabels : octetLabels b.toList ≠ [] := by simpa [octetLabels] using hne
  obtain ⟨hchar, hplain⟩ := isPlainName_dotted hne
  have hnormal := normalDomain?_of_asciiForm? hchar
    (asciiForm?_of_isPlainName hplain fun c hc => (hchar c hc).lowercase)
  have hnumber : Host.endsInNumber (IpAddress.dotted b.toList).toList = true := by
    rw [Host.endsInNumber, parts_dotted hne, List.getLast?_eq_some_getLast hlabels]
    have hlast := List.getLast_mem hlabels
    have hdigits : ((octetLabels b.toList).getLast hlabels).all Char.isDigit = true :=
      List.all_eq_true.2 fun c hc => isDigit_of_mem_octetLabels hlast hc
    obtain ⟨b₀, -, hb₀⟩ := List.mem_map.1 hlast
    have hfilled : ((octetLabels b.toList).getLast hlabels).isEmpty = false := by
      rw [← hb₀, List.isEmpty_eq_false_iff]
      exact Nat.toDigits_ne_nil
    simp only [hdigits, hfilled, Bool.not_false, Bool.true_or, Bool.and_self]
  refine ⟨?_, fun c hc => (isHostChar_of_isDomainChar (hchar c hc)).1, fun port hport =>
    cutHost_of_plain (fun c hc => (isHostChar_of_isDomainChar (hchar c hc)).2) hport⟩
  rw [Host.read, if_pos rfl, Host.render,
    parse_of_head (head?_ne_of_forall fun c hc => (isHostChar_of_isDomainChar (hchar c hc)).2.2.1),
    String.ofList_toList, hnormal]
  simp only [if_neg (dotted_ne_empty hne), if_pos hnumber, parseIpv4_dotted]

/-- No host but the empty name has no text. -/
theorem eq_domain_of_render_eq_nil {h : Host} (hempty : h.render.toList = []) :
    h = .domain "" := by
  cases h with
  | domain name => exact congrArg Host.domain (String.toList_eq_nil_iff.1 hempty)
  | ipv4 b =>
    exact absurd (String.toList_eq_nil_iff.1 hempty) (dotted_ne_empty (octets_ne_nil b))
  | ipv6 b =>
    rw [toList_render_ipv6] at hempty
    cases hempty

/-! ## Hosts that were read -/

theorem exists_of_parseBracketed {h : Host} (hs : Host.parseBracketed s = .ok h) :
    ∃ b, h = .ipv6 b := by
  unfold Host.parseBracketed at hs
  split at hs
  · split at hs
    · cases hs
      exact ⟨_, rfl⟩
    · cases hs
  · cases hs

theorem isHost_of_parse [Idna] [LawfulIdna] {h : Host} (hs : Host.parse s = .ok h) :
    IsHost true h ∧ h ≠ .domain "" := by
  unfold Host.parse at hs
  split at hs
  · obtain ⟨b, rfl⟩ := exists_of_parseBracketed hs
    exact ⟨isHost_ipv6 true b, Host.noConfusion⟩
  split at hs
  · cases hs
  rename_i name hname
  obtain ⟨hchar, hnormal⟩ := normalDomain?_normalDomain? hname
  split at hs
  · cases hs
  rename_i hne
  split at hs
  · unfold Host.parseIpv4 at hs
    split at hs
    · cases hs
      exact ⟨isHost_ipv4 _, Host.noConfusion⟩
    · cases hs
  · rename_i hnumber
    cases hs
    exact ⟨isHost_domain hchar hnormal hne hnumber, fun heq => hne (Host.domain.inj heq)⟩

theorem forbidden_of_code {c : Char} (h : c = '%' ∨ c.isAlphanum = true) :
    Host.forbidden c = false :=
  Text.of_forall_lt_128 (P := fun c => c = '%' ∨ c.isAlphanum = true → Host.forbidden c = false)
    (by decide) (lt_of_isAlphanum h) h

theorem isHostChar_of_not_forbidden {c : Char} (hcontrol : isControl c = false)
    (h : Host.forbidden c = false) : IsHostChar c ∧ c ≠ ':' ∧ c ≠ '[' ∧ c ≠ ']' := by
  have hlt : c.toNat < 128 := by
    rw [isControl, Bool.or_eq_false_iff, decide_eq_false_iff_not,
      decide_eq_false_iff_not] at hcontrol
    omega
  exact Text.of_forall_lt_128 (P := fun c => isControl c = false → Host.forbidden c = false →
    IsHostChar c ∧ c ≠ ':' ∧ c ≠ '[' ∧ c ≠ ']') (by decide) hlt hcontrol h

/-- **A host of any other scheme is read as it was written.** -/
theorem isHost_of_parseOpaque [Idna] {h : Host} (hs : Host.parseOpaque s = .ok h) :
    IsHost false h := by
  unfold Host.parseOpaque at hs
  split at hs
  · obtain ⟨b, rfl⟩ := exists_of_parseBracketed hs
    exact isHost_ipv6 false b
  split at hs
  · cases hs
  rename_i hallowed
  cases hs
  have hplain := plain_encodePart isEncodeSet_isControl s
  have hfree : ∀ c ∈ (encodePart isControl s).toList, Host.forbidden c = false := fun c hc =>
    (mem_of_mem_encodePart hc).elim
      (fun hmem => Bool.eq_false_iff.2 fun hf => hallowed (List.any_eq_true.2 ⟨c, hmem.1, hf⟩))
      forbidden_of_code
  have hchar := fun c hc => isHostChar_of_not_forbidden (hplain c hc) (hfree c hc)
  refine ⟨?_, fun c hc => (hchar c hc).1, fun port hport =>
    cutHost_of_plain (fun c hc => (hchar c hc).2) hport⟩
  have hany : ¬ (encodePart isControl s).toList.any Host.forbidden = true := by
    rw [List.any_eq_true]
    rintro ⟨c, hc, hforbidden⟩
    rw [hfree c hc] at hforbidden
    cases hforbidden
  rw [Host.read, if_neg Bool.false_ne_true, Host.render, Host.parseOpaque]
  · rw [if_neg hany, encodePart_of_plain hplain, String.ofList_toList]
  · intro rest heq
    exact (hchar '[' (heq ▸ List.mem_cons_self)).2.2.1 rfl

/-- Only the empty text is read as the empty name. -/
theorem eq_nil_of_parseOpaque (hs : Host.parseOpaque s = .ok (.domain "")) : s = [] := by
  unfold Host.parseOpaque at hs
  split at hs
  · obtain ⟨b, hb⟩ := exists_of_parseBracketed hs
    cases hb
  split at hs
  · cases hs
  · exact encodePart_eq_empty_iff.1 (Host.domain.inj (Except.ok.inj hs))

/-- **A host that was read is a host**, and only a scheme that needs none has the empty name. -/
theorem isHost_of_read [Idna] [LawfulIdna] {special : Bool} {h : Host}
    (hs : Host.read special s = .ok h) :
    IsHost special h ∧ (h = .domain "" → special = false ∧ s = []) := by
  unfold Host.read at hs
  split at hs
  · rename_i hspecial
    obtain ⟨hhost, hne⟩ := isHost_of_parse hs
    exact ⟨hspecial ▸ hhost, fun heq => absurd heq hne⟩
  · rename_i hspecial
    rw [Bool.not_eq_true] at hspecial
    refine ⟨hspecial ▸ isHost_of_parseOpaque hs, ?_⟩
    rintro rfl
    exact ⟨hspecial, eq_nil_of_parseOpaque hs⟩

end Saboteur.Url
