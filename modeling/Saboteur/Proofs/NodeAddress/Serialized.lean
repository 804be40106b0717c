import Saboteur.Proofs.NodeAddress.Reading
import Saboteur.Proofs.Url.Idna

/-!
# Addresses that are written out

An address is written out as its full text and read back from that. Reading leaves out one empty
segment at the end, so an address with a further one there comes back without it; and where no
scheme is found in the text, as none is behind a path alone, it is taken for a host.
-/

namespace Saboteur

/-- Whether a path has an empty segment behind others. -/
def Url.Path.hasEmptyEnd : Url.Path → Bool
  | segments ss => 2 ≤ ss.length && ss.getLast? = some ""
  | opaqueText _ => false

theorem Url.dropEmptyEnd_eq_self_iff {segments : List String} :
    dropEmptyEnd segments = segments ↔ (Path.segments segments).hasEmptyEnd = false := by
  have hends : (Path.segments segments).hasEmptyEnd = true ↔
      2 ≤ segments.length ∧ segments.getLast? = some "" := by
    rw [Path.hasEmptyEnd, Bool.and_eq_true, decide_eq_true_eq, decide_eq_true_eq]
  rw [Bool.eq_false_iff, ne_eq, hends, dropEmptyEnd]
  by_cases h : 2 ≤ segments.length ∧ segments.getLast? = some ""
  · have hshorter : segments.dropLast ≠ segments := fun heq => by
      have hlength := congrArg List.length heq
      rw [List.length_dropLast] at hlength
      omega
    rw [if_pos h]
    exact iff_of_false hshorter (not_not_intro h)
  · rw [if_neg h]
    exact iff_of_true rfl h

namespace NodeAddress

variable {s : String} {a : NodeAddress} {segments : List String}

/-- A document with a text is read as the address in the text. -/
theorem read_write_eq_ok_iff [Url.Idna] {b : NodeAddress} :
    (ReadJson.read (WriteJson.write a) : Except JsonError NodeAddress) = .ok b ↔
      parse a.full.render = .ok b := by
  have htext : Json.readText (WriteJson.write a) = .ok a.full.render := rfl
  simp only [ReadJson.read, htext, bind, Except.bind]
  cases parse a.full.render with
  | error e => exact iff_of_false nofun nofun
  | ok b' => exact ⟨fun h => congrArg _ (Except.ok.inj h), fun h => congrArg _ (Except.ok.inj h)⟩

namespace IsKept

variable [Url.Idna]

/-- **Reading an address back leaves out one more empty segment**, where a scheme is found. -/
theorem parse_full (h : IsKept a segments) (hscheme : namesScheme a.full.render.toList = true) :
    parse a.full.render = .ok
      ⟨{ a.full with path := .segments (Url.dropEmptyEnd segments) }, a.redacted⟩ := by
  rw [parse_render_of_namesScheme h.full hscheme, ofUrl_of_isAddress h.full h.redactable,
    h.redacted]

/-- A text without a scheme is read as an address of the web. -/
theorem scheme_of_parse_full {b : NodeAddress} (h : IsKept a segments)
    (hscheme : namesScheme a.full.render.toList = false) (hb : parse a.full.render = .ok b) :
    b.full.scheme = "http" := by
  obtain ⟨u, others, hu, -, -, rfl⟩ := exists_of_parse hb
  have hvisible : ∀ c ∈ '/' :: '/' :: a.full.render.toList, Url.IsVisible c :=
    List.forall_mem_cons.2 ⟨by decide, List.forall_mem_cons.2 ⟨by decide, fun c hc =>
      h.full.isVisible_of_mem_render hc⟩⟩
  rw [Url.trimList_of_visible fun c => h.full.isVisible_of_mem_render, withScheme, hscheme] at hu
  have hhttp : Url.IsScheme "http".toList := by
    have hall : "http".toList.all (fun c => Url.isSchemeChar c ∧ Url.lowerAscii c = c) = true := by
      decide
    exact ⟨⟨'h', "ttp".toList, rfl, rfl⟩, fun c hc =>
      of_decide_eq_true (List.all_eq_true.1 hall c hc)⟩
  exact Url.scheme_of_parse_append hhttp hvisible (u := u) hu

theorem parse_full_eq_iff (h : IsKept a segments) : parse a.full.render = .ok a ↔
    namesScheme a.full.render.toList = true ∧ a.full.path.hasEmptyEnd = false := by
  rw [h.full.path, ← Url.dropEmptyEnd_eq_self_iff]
  cases hscheme : namesScheme a.full.render.toList with
  | true =>
    rw [h.parse_full hscheme, and_iff_right rfl]
    constructor
    · intro heq
      have hpath := congrArg (fun b : NodeAddress => b.full.path) (Except.ok.inj heq)
      exact Url.Path.segments.inj (hpath.trans h.full.path)
    · intro hkept
      rw [hkept, ← h.full.path]
  | false =>
    refine iff_of_false (fun hread => ?_) fun hboth => Bool.false_ne_true hboth.1
    -- An address of the web has an authority, and so a scheme that is found.
    have hspecial : Url.isSpecial a.full.scheme = true := by
      rw [h.scheme_of_parse_full hscheme hread]
      decide
    obtain ⟨authority, hauthority⟩ := Option.isSome_iff_exists.1 (h.full.placed hspecial)
    rw [namesScheme_render_of_authority hauthority] at hscheme
    cases hscheme

end IsKept

/-- **An accepted address is read back as it was written out** if and only if a scheme is found in
its text and its path has no empty segment behind others. With an authority there is always a
scheme, and what is read back lacks no more than one such segment. -/
theorem read_write_eq_self_iff [Url.Idna] [Url.LawfulIdna] (h : parse s = .ok a) :
    ((ReadJson.read (WriteJson.write a) : Except JsonError NodeAddress) = .ok a ↔
      namesScheme a.full.render.toList = true ∧ a.full.path.hasEmptyEnd = false) ∧
    (a.full.authority.isSome = true → ∃ segments, a.full.path = .segments segments ∧
      (ReadJson.read (WriteJson.write a) : Except JsonError NodeAddress) = .ok
        ⟨{ a.full with path := .segments (Url.dropEmptyEnd segments) }, a.redacted⟩) := by
  obtain ⟨segments, hkept⟩ := isKept_of_parse h
  refine ⟨read_write_eq_ok_iff.trans hkept.parse_full_eq_iff, fun hsome => ?_⟩
  obtain ⟨authority, hauthority⟩ := Option.isSome_iff_exists.1 hsome
  exact ⟨segments, hkept.full.path, read_write_eq_ok_iff.2
    (hkept.parse_full (namesScheme_render_of_authority hauthority))⟩

/-- An address with a path below the root. -/
def prefixed : NodeAddress where
  full := ⟨"http", some ⟨"", "", .domain "h", some 5052⟩, .segments ["prefix"], none, none⟩
  redacted := "http://h:5052/"

/-- The same address with an empty segment behind the path. -/
def prefixedEmptyEnd : NodeAddress :=
  { prefixed with full := { prefixed.full with path := .segments ["prefix", ""] } }

theorem read_write_eq_self_iff_prefixed :
    parse "http://h:5052/prefix/" = .ok prefixed ∧
      (ReadJson.read (WriteJson.write prefixed) : Except JsonError NodeAddress) = .ok prefixed := by
  have hparse : parse "http://h:5052/prefix/" = .ok prefixed :=
    toOption_eq_some_iff.1 (by decide +kernel)
  exact ⟨hparse, (read_write_eq_self_iff hparse).1.2 (by decide +kernel)⟩

/-- Of two empty segments at the end only one is left out at a time. -/
theorem read_write_prefixedEmptyEnd :
    parse "http://h:5052/prefix//" = .ok prefixedEmptyEnd ∧
      (ReadJson.read (WriteJson.write prefixedEmptyEnd) : Except JsonError NodeAddress) =
        .ok prefixed ∧ prefixed ≠ prefixedEmptyEnd :=
  ⟨toOption_eq_some_iff.1 (by decide +kernel),
    read_write_eq_ok_iff.2 (toOption_eq_some_iff.1 (by decide +kernel)), by decide⟩

-- What names a scheme may be gone when the path is written out; the scheme becomes a host then.
example : (parse "foo:/a://../b").toOption.map (·.full.render) = some "foo:/a:/b" ∧
    (parse "foo:/a:/b").toOption.map (·.full.render) = some "http://foo/a:/b" := by
  decide +kernel

end NodeAddress

end Saboteur
