import Saboteur.NodeAddress
import Saboteur.Proofs.Url.RoundTrip

/-!
# Addresses of nodes that were read

The address of a node is kept with the segments that it was read with, but for an empty one at the
end. Its own text is read as that address, if a scheme is found in it.
-/

namespace Saboteur

namespace NodeAddress

variable {s : String} {a : NodeAddress} {u : Url} {segments : List String}

/-! ## Addresses that were read -/

/-- The address of a node as it is kept. -/
structure IsKept [Url.Idna] (a : NodeAddress) (segments : List String) : Prop where
  full : Url.IsAddress a.full segments
  redactable : redactable a.full = true
  redacted : a.redacted = (redact a.full segments).render

theorem isEmpty_dropEmptyEnd (segments : List String) :
    (Url.dropEmptyEnd segments).isEmpty = segments.isEmpty := by
  rw [Bool.eq_iff_iff, List.isEmpty_iff, List.isEmpty_iff, Url.dropEmptyEnd_eq_nil_iff]

/-- Segments are not shown, so it makes no difference which they are. -/
theorem redact_withSegments (u : Url) (others segments : List String) :
    redact { u with path := .segments others } (Url.dropEmptyEnd segments) = redact u segments := by
  rw [redact, isEmpty_dropEmptyEnd]
  rfl

/-- **What is accepted is the address that was read**, without an empty segment at its end. -/
theorem exists_of_parse [Url.Idna] (h : parse s = .ok a) : ∃ u segments,
    Url.parse (String.ofList (withScheme (Text.trimList s.toList))) = .ok u ∧
      u.path = .segments segments ∧ redactable u = true ∧
      a = ⟨{ u with path := .segments (Url.dropEmptyEnd segments) },
        (redact u segments).render⟩ := by
  unfold parse at h
  simp only at h
  split at h
  · cases h
  obtain ⟨u, hu, h⟩ := bind_eq_ok_iff.1 h
  unfold ofUrl at h
  split at h
  · cases h
  rename_i segments hpath
  simp only at h
  split at h
  · rename_i hredactable
    cases h
    exact ⟨u, segments, mapError_eq_ok_iff.1 hu, hpath, hredactable, rfl⟩
  · cases h

theorem ofUrl_of_isAddress [Url.Idna] (h : Url.IsAddress u segments)
    (hredactable : redactable u = true) :
    ofUrl u = .ok ⟨{ u with path := .segments (Url.dropEmptyEnd segments) },
      (redact u segments).render⟩ := by
  unfold ofUrl
  rw [h.path]
  exact if_pos hredactable

/-- **What is accepted is kept as an address with segments**, and shown as what is left of it. -/
theorem isKept_of_parse [Url.Idna] [Url.LawfulIdna] (h : parse s = .ok a) :
    ∃ segments, IsKept a segments := by
  obtain ⟨u, segments, hu, hpath, hredactable, rfl⟩ := exists_of_parse h
  rcases Url.isAddress_of_parse hu with ⟨hfile, hauthority⟩ | ⟨t, ht⟩ | ⟨others, haddress⟩
  · obtain ⟨authority, hauthority⟩ := Option.isSome_iff_exists.1 hauthority
    simp [redactable, hauthority, hfile] at hredactable
  · rw [ht] at hpath
    cases hpath
  · have hsame : others = segments := Url.Path.segments.inj (haddress.path.symm.trans hpath)
    rw [hsame] at haddress
    exact ⟨_, haddress.dropEmptyEnd, hredactable, by rw [redact_withSegments]⟩

/-! ## Reading an address again -/

theorem namesScheme_cons {s : List Char} (c : Char) (h : namesScheme s = true) :
    namesScheme (c :: s) = true := by
  unfold namesScheme
  split
  · rfl
  · rename_i heq
    cases heq
    exact h
  · rename_i heq
    cases heq

theorem namesScheme_append (s rest : List Char) :
    namesScheme (s ++ ':' :: '/' :: '/' :: rest) = true := by
  induction s with
  | nil => rfl
  | cons c s ih => exact namesScheme_cons c ih

/-- An authority stands behind the mark of a scheme. -/
theorem namesScheme_render_of_authority {authority : Url.Authority}
    (h : u.authority = some authority) : namesScheme u.render.toList = true := by
  rw [Url.toList_render, Url.authorityText, h]
  simp only [Url.toList_render_authority, List.cons_append]
  exact namesScheme_append _ _

/-- Nothing is trimmed from the text of an address. -/
theorem parse_render [Url.Idna] (h : Url.IsAddress u segments) : parse u.render =
    ((Url.parse (String.ofList (withScheme u.render.toList))).mapError .malformed >>= ofUrl) := by
  have hne : u.render.toList.isEmpty = false := by
    obtain ⟨c, cs, hscheme, -⟩ := h.scheme.first
    rw [Url.toList_render, hscheme]
    rfl
  have htrim : Text.trimList u.render.toList = u.render.toList :=
    Url.trimList_of_visible fun c => h.isVisible_of_mem_render
  simp only [parse, htrim, hne, Bool.false_eq_true, if_false]

/-- **The text of an address that names a scheme is read as that address.** -/
theorem parse_render_of_namesScheme [Url.Idna] (h : Url.IsAddress u segments)
    (hscheme : namesScheme u.render.toList = true) : parse u.render = ofUrl u := by
  rw [parse_render h, withScheme, if_pos hscheme, String.ofList_toList, h.parse_render]
  rfl

end NodeAddress

end Saboteur
