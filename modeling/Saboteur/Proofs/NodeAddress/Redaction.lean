import Saboteur.Proofs.NodeAddress.Reading
import Saboteur.Proofs.Url.Idna

/-!
# What is shown of an address

The text that is shown of a node's address is made of scheme, host and port, so it is the same for
any two addresses that differ elsewhere. It is the text of an address itself, and hides nothing
more when it is read.
-/

namespace Saboteur

/-- The host of an address, if it has an authority. -/
def Url.host? (u : Url) : Option Url.Host := u.authority.map (·.host)

/-- The port of an address, if it does not go without saying. -/
def Url.port? (u : Url) : Option Nat := u.authority.bind (·.port)

namespace NodeAddress

variable {a : NodeAddress} {u : Url} {segments : List String}

/-! ## What is left -/

/-- What is left of an address is an address. -/
theorem isAddress_redact [Url.Idna] (h : Url.IsAddress u segments) :
    Url.IsAddress (redact u segments) (if segments.isEmpty then [] else [""]) where
  scheme := h.scheme
  noFile := h.noFile
  authority _ ha := by
    obtain ⟨authority, hauthority, rfl⟩ := Option.map_eq_some_iff.1 ha
    exact (h.authority authority hauthority).anonymous
  path := rfl
  segment s hs := by
    split at hs
    · exact absurd hs List.not_mem_nil
    · exact List.mem_singleton.1 hs ▸ Url.isSegment_empty
  placed hspecial := by
    rw [redact, Option.isSome_map]
    exact h.placed hspecial
  filled hnil := by
    rw [redact, Option.isSome_map]
    refine h.filled (List.isEmpty_iff.1 ?_)
    by_contra hne
    rw [if_neg hne] at hnil
    cases hnil
  query _ hq := absurd hq (Option.not_mem_none _)
  fragment _ hf := absurd hf (Option.not_mem_none _)

theorem redactable_redact (u : Url) (segments : List String) :
    redactable (redact u segments) = redactable u := by
  unfold redactable redact
  cases u.authority <;> rfl

/-- Nothing more is left out of what is left. -/
theorem redact_redact (u : Url) (segments : List String) :
    redact (redact u segments) (if segments.isEmpty then [] else [""]) = redact u segments := by
  unfold redact
  cases u.authority <;> cases segments <;> rfl

/-- The text of a scheme, a host and a port. -/
def siteText (scheme : String) (host : Url.Host) (port : Option Nat) : String :=
  scheme ++ ":" ++ Url.Authority.render ⟨"", "", host, port⟩ ++ "/"

namespace IsKept

variable [Url.Idna]

/-- **The text that is shown is that of scheme, host and port.** -/
theorem redacted_eq (h : IsKept a segments) (hspecial : Url.isSpecial a.full.scheme = true) :
    ∃ host, a.full.host? = some host ∧
      a.redacted = siteText a.full.scheme host a.full.port? := by
  obtain ⟨authority, hauthority⟩ := Option.isSome_iff_exists.1 (h.full.placed hspecial)
  have hne : segments.isEmpty = false := by
    rw [List.isEmpty_eq_false_iff]
    intro hnil
    have hnone := (h.full.filled hnil).2
    rw [hspecial] at hnone
    cases hnone
  refine ⟨authority.host, by rw [Url.host?, hauthority]; rfl, ?_⟩
  rw [h.redacted, redact, siteText, Url.port?, hauthority, hne]
  show _ ++ "" ++ "" = _
  simp only [String.append_empty]
  rfl

/-- **The text that is shown is read as what it shows.** -/
theorem parse_redacted (h : IsKept a segments) (hspecial : Url.isSpecial a.full.scheme = true) :
    parse a.redacted = .ok ⟨redact a.full segments, a.redacted⟩ := by
  obtain ⟨authority, hauthority⟩ := Option.isSome_iff_exists.1 (h.full.placed hspecial)
  have haddress := isAddress_redact h.full
  have hredacted : (redact a.full segments).authority =
      some ⟨"", "", authority.host, authority.port⟩ := by
    rw [redact, hauthority]
    rfl
  have hscheme := namesScheme_render_of_authority hredacted
  rw [h.redacted, parse_render_of_namesScheme haddress hscheme,
    ofUrl_of_isAddress haddress (by rw [redactable_redact]; exact h.redactable), redact_redact]
  have hsame : Url.dropEmptyEnd (if segments.isEmpty then [] else [""]) =
      if segments.isEmpty then [] else [""] := by
    split <;> rfl
  rw [hsame]
  rfl

end IsKept

/-- **What is shown of an address depends on its scheme, host and port alone**: any two addresses
of the web that agree on them are shown alike, whatever their names, passwords, paths, queries and
fragments are, and the text that is shown is the text of an address that is shown as itself. -/
theorem shown_eq_of_same_site [Url.Idna] [Url.LawfulIdna] {s t : String} {a b : NodeAddress}
    (hs : parse s = .ok a) (ht : parse t = .ok b)
    (hweb : a.full.scheme = "http" ∨ a.full.scheme = "https")
    (hscheme : b.full.scheme = a.full.scheme) (hhost : b.full.host? = a.full.host?)
    (hport : b.full.port? = a.full.port?) :
    b.redacted = a.redacted ∧ toString b = toString a ∧ b.debug = a.debug ∧
      (∃ host, a.full.host? = some host ∧
        a.redacted = siteText a.full.scheme host a.full.port?) ∧
      ∃ shown, parse a.redacted = .ok shown ∧ shown.redacted = a.redacted := by
  have hspecial : Url.isSpecial a.full.scheme = true := by
    rcases hweb with hweb | hweb <;> rw [hweb] <;> decide
  obtain ⟨segments, ha⟩ := isKept_of_parse hs
  obtain ⟨others, hb⟩ := isKept_of_parse ht
  obtain ⟨host, hhostA, hshownA⟩ := ha.redacted_eq hspecial
  obtain ⟨host', hhostB, hshownB⟩ := hb.redacted_eq (hscheme ▸ hspecial)
  have hsame : host' = host := Option.some.inj (hhostB.symm.trans (hhost.trans hhostA))
  have hredacted : b.redacted = a.redacted := by
    rw [hshownA, hshownB, hscheme, hport, hsame]
  exact ⟨hredacted, hredacted, congrArg Text.quoted hredacted, ⟨host, hhostA, hshownA⟩,
    _, ha.parse_redacted hspecial, rfl⟩

/-- An address with a password, and a key in its query. -/
def keyedAddress : NodeAddress where
  full := ⟨"https", some ⟨"user", "hunter2", .domain "xn--bcher-kva.example", some 8443⟩,
    .segments ["api"], some "key=1", some "top"⟩
  redacted := "https://xn--bcher-kva.example:8443/"

/-- An address at the same host without them. -/
def plainAddress : NodeAddress where
  full := ⟨"https", some ⟨"", "", .domain "xn--bcher-kva.example", some 8443⟩, .segments [""], none,
    none⟩
  redacted := "https://xn--bcher-kva.example:8443/"

theorem shown_eq_of_same_site_keyed :
    parse "https://user:hunter2@Bücher.example:8443/api/?key=1#top" = .ok keyedAddress ∧
      parse "https://xn--bcher-kva.example:8443" = .ok plainAddress ∧
      toString plainAddress = toString keyedAddress ∧ plainAddress.debug = keyedAddress.debug := by
  have hkeyed :
      parse "https://user:hunter2@Bücher.example:8443/api/?key=1#top" = .ok keyedAddress :=
    toOption_eq_some_iff.1 (by decide +kernel)
  have hplain : parse "https://xn--bcher-kva.example:8443" = .ok plainAddress :=
    toOption_eq_some_iff.1 (by decide +kernel)
  obtain ⟨-, hshown, hdebug, -⟩ :=
    shown_eq_of_same_site hkeyed hplain (.inr rfl) rfl rfl rfl
  exact ⟨hkeyed, hplain, hshown, hdebug⟩

end NodeAddress

end Saboteur
