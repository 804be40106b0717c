import Saboteur.Proofs.Url.Authority
import Saboteur.Proofs.Url.Path

/-!
# Addresses are read as they were written

An address with segments, of any scheme but that of files, is read from its own text. What reading
establishes for each part is what makes that part be read again, and it stays true where segments
at the end and names are left out.
-/

namespace Saboteur.Url

/-- An address with segments as it is kept. -/
structure IsAddress [Idna] (u : Url) (segments : List String) : Prop where
  scheme : IsScheme u.scheme.toList
  noFile : u.scheme ≠ "file"
  authority : ∀ a ∈ u.authority, IsAuthority u.scheme a
  path : u.path = .segments segments
  segment : ∀ s ∈ segments, IsSegment (isSpecial u.scheme) s
  /-- A well-known scheme has an authority. -/
  placed : isSpecial u.scheme = true → u.authority.isSome = true
  /-- Only behind an authority, and with no well-known scheme, a path can be left out. -/
  filled : segments = [] → u.authority.isSome = true ∧ isSpecial u.scheme = false
  query : ∀ q ∈ u.query, Plain (querySet (isSpecial u.scheme)) q.toList
  fragment : ∀ f ∈ u.fragment, Plain fragmentSet f.toList

variable {u : Url} {segments : List String}

/-! ## Texts of addresses -/

/-- The text of an address behind its path. -/
def ending (u : Url) : List Char := (marked "?" u.query).toList ++ (marked "#" u.fragment).toList

theorem toList_render (u : Url) : u.render.toList =
    u.scheme.toList ++ ':' :: (u.authorityText.toList ++ (u.path.render.toList ++ u.ending)) := by
  simp only [render, ending, String.toList_append, List.append_assoc]
  rfl

/-! ### Marked parts -/

section Marked

variable {mark : String} {c : Char} {part : Option String}

theorem toList_marked (hmark : mark.toList = [c]) (part : Option String) :
    (marked mark part).toList =
      match part with
      | some s => c :: s.toList
      | none => [] := by
  unfold marked
  cases part with
  | none => rfl
  | some s =>
    rw [String.toList_append, hmark]
    rfl

theorem begins_marked (hmark : mark.toList = [c]) : Begins (· = c) (marked mark part).toList := by
  rw [toList_marked hmark]
  cases part with
  | none => exact begins_nil _
  | some s => exact begins_cons.2 rfl

theorem mem_marked (hmark : mark.toList = [c]) {d : Char} (h : d ∈ (marked mark part).toList) :
    d = c ∨ ∃ s ∈ part, d ∈ s.toList := by
  rw [toList_marked hmark] at h
  cases part with
  | none => exact absurd h List.not_mem_nil
  | some s => exact (List.mem_cons.1 h).imp_right fun h => ⟨s, rfl, h⟩

/-- A part is read from behind its mark. -/
theorem readMarked_marked {encoded : Char → Bool} (hmark : mark.toList = [c])
    (hplain : ∀ s ∈ part, Plain encoded s.toList) :
    readMarked encoded (marked mark part).toList = part := by
  rw [toList_marked hmark]
  cases part with
  | none => rfl
  | some s =>
    simp only [readMarked]
    rw [encodePart_of_plain (hplain s rfl), String.ofList_toList]

end Marked

theorem begins_ending (u : Url) : Begins (fun c => c = '?' ∨ c = '#') u.ending :=
  begins_append ((begins_marked rfl).imp fun _ h => .inl h)
    ((begins_marked rfl).imp fun _ h => .inr h)

/-! ### Paths -/

theorem ne_mark_of_mem_point {looks : Bool} {c : Char}
    (hc : c ∈ (if looks then "/." else "").toList) : c ≠ '?' ∧ c ≠ '#' := by
  constructor <;> rintro rfl <;> cases looks <;> exact absurd hc (by decide)

theorem begins_path (segments : List String) :
    Begins (· = '/') (Path.segments segments).render.toList := by
  rw [toList_render_segments]
  cases segments with
  | nil => exact begins_nil _
  | cons segment rest => exact begins_cons.2 rfl

namespace IsAddress

variable [Idna]

/-- The mark of a fragment does not stand in the text of a query. -/
theorem ne_of_mem_marked_query (h : IsAddress u segments) {c : Char}
    (hc : c ∈ (marked "?" u.query).toList) : c ≠ '#' := by
  rintro rfl
  rcases mem_marked rfl hc with hmark | ⟨q, hq, hmem⟩
  · exact absurd hmark (by decide)
  · have hset : querySet (isSpecial u.scheme) '#' = true := by
      cases isSpecial u.scheme <;> decide
    rw [h.query q hq '#' hmem] at hset
    cases hset

/-- **Query and fragment are read as they were written**, behind a path without their marks. -/
theorem assemble_ending (h : IsAddress u segments) {pathText : List Char}
    (path : List Char → Path) (hmarks : ∀ c ∈ pathText, c ≠ '?' ∧ c ≠ '#')
    (hpath : path pathText = u.path) :
    assemble u.scheme u.authority (pathText ++ u.ending) path = u := by
  have hpathText : cutBefore (fun c => c = '?' || c = '#') (pathText ++ u.ending) =
      (pathText, u.ending) :=
    cutBefore_append (fun c hc => by simp [hmarks c hc])
      ((begins_ending u).imp fun c hc => by simpa using hc)
  have hqueryText : cutBefore (· = '#') u.ending =
      ((marked "?" u.query).toList, (marked "#" u.fragment).toList) :=
    cutBefore_append (fun c hc => decide_eq_false (h.ne_of_mem_marked_query hc))
      ((begins_marked rfl).imp fun c hc => decide_eq_true hc)
  have hquery : readMarked (querySet (isSpecial u.scheme)) (marked "?" u.query).toList = u.query :=
    readMarked_marked rfl h.query
  have hfragment : readMarked fragmentSet (marked "#" u.fragment).toList = u.fragment :=
    readMarked_marked rfl h.fragment
  unfold assemble
  simp only [hpathText, hqueryText, hpath, hquery, hfragment]

/-! ## Reading -/

/-- What a path is written with. -/
theorem mem_path (h : IsAddress u segments) {c : Char}
    (hc : c ∈ (Path.segments segments).render.toList) : c = '/' ∨ pathSet c = false := by
  rw [toList_render_segments, List.mem_flatMap] at hc
  obtain ⟨segment, hsegment, hc⟩ := hc
  exact (List.mem_cons.1 hc).imp_right ((h.segment segment hsegment).plain c)

theorem ne_mark_of_mem_path (h : IsAddress u segments) {c : Char}
    (hc : c ∈ (Path.segments segments).render.toList) : c ≠ '?' ∧ c ≠ '#' := by
  constructor <;> rintro rfl <;> exact absurd (h.mem_path hc) (by decide)

/-- **What stands behind an authority is read as it was written.** -/
theorem read_behind_authority (h : IsAddress u segments) {a : Authority}
    (ha : u.authority = some a) :
    readAuthority u.scheme (a.body ++ ((Path.segments segments).render.toList ++ u.ending)) =
        .ok (a, (Path.segments segments).render.toList ++ u.ending) ∧
      assemble u.scheme (some a) ((Path.segments segments).render.toList ++ u.ending)
        (fun p => .segments (pathAfterAuthority (isSpecial u.scheme) p)) = u := by
  refine ⟨(h.authority a ha).readAuthority_body ?_, ?_⟩
  · refine begins_append ((begins_path segments).imp fun _ hc => .inl hc) ?_
    exact (begins_ending u).imp fun _ hc => .inr hc
  · rw [← ha]
    refine h.assemble_ending _ (fun c => h.ne_mark_of_mem_path) ?_
    rw [pathAfterAuthority_render h.segment fun hnil => (h.filled hnil).2, h.path]

/-- The slashes before an authority are skipped, and nothing of it. -/
theorem dropWhile_slashes (h : IsAddress u segments) (hspecial : isSpecial u.scheme = true)
    {a : Authority} (ha : u.authority = some a) (rest : List Char) :
    ('/' :: '/' :: (a.body ++ rest)).dropWhile (endsSegment true) = a.body ++ rest := by
  have hauthority := h.authority a ha
  obtain ⟨c, body, hbody⟩ := List.exists_cons_of_ne_nil (hauthority.body_ne_nil hspecial)
  have hends : endsSegment true c = false := by
    have hc := hauthority.endsAuthority_of_mem_body true
      (hbody ▸ List.mem_cons_self : c ∈ a.body)
    simp only [endsAuthority, Bool.or_eq_false_iff] at hc
    simp only [endsSegment, Bool.or_eq_false_iff]
    exact ⟨hc.1.1.1, hc.2⟩
  rw [hbody, List.dropWhile_cons_of_pos (endsSegment_slash true),
    List.dropWhile_cons_of_pos (endsSegment_slash true), List.cons_append,
    List.dropWhile_cons_of_neg (by rw [hends]; exact Bool.false_ne_true)]

/-- **What stands behind a scheme alone is read as it was written**, and is not taken for an
authority. -/
theorem read_behind_scheme (h : IsAddress u segments) (ha : u.authority = none) :
    isSpecial u.scheme = false ∧
      ∃ s, u.authorityText.toList ++ (Path.segments segments).render.toList = '/' :: s ∧
        Begins (· ≠ '/') (s ++ u.ending) ∧
        assemble u.scheme none (s ++ u.ending)
          (fun p => .segments (segmentsOf (isSpecial u.scheme) p)) = u := by
  have hspecial : isSpecial u.scheme = false := Bool.eq_false_iff.2 fun hspecial => by
    have hplaced := h.placed hspecial
    rw [ha] at hplaced
    cases hplaced
  have hne : segments ≠ [] := fun hnil => by
    have hfilled := (h.filled hnil).1
    rw [ha] at hfilled
    cases hfilled
  obtain ⟨s, htext, hread, hhead⟩ := exists_segmentsOf_eq h.segment hne
  refine ⟨hspecial, s, by rw [authorityText, ha, h.path]; exact htext, ?_, ?_⟩
  · exact begins_append (fun c hc heq => hhead (heq ▸ hc))
      ((begins_ending u).imp fun c hc => by rcases hc with rfl | rfl <;> decide)
  · rw [← ha]
    refine h.assemble_ending _ (fun c hc => ?_) (by rw [hread, h.path])
    have hmem : c ∈ '/' :: s := List.mem_cons_of_mem _ hc
    rw [← htext, List.mem_append] at hmem
    exact hmem.elim ne_mark_of_mem_point h.ne_mark_of_mem_path

/-- **An address is read behind its scheme as it was written.** -/
theorem readAfterScheme_render (h : IsAddress u segments) :
    readAfterScheme u.scheme
      (u.authorityText.toList ++ ((Path.segments segments).render.toList ++ u.ending)) = .ok u := by
  unfold readAfterScheme
  simp only [if_neg h.noFile]
  cases ha : u.authority with
  | some a =>
    obtain ⟨hread, hassemble⟩ := h.read_behind_authority ha
    rw [authorityText, ha]
    simp only [toList_render_authority, List.cons_append]
    by_cases hspecial : isSpecial u.scheme = true
    · rw [if_pos hspecial, h.dropWhile_slashes hspecial ha, hread]
      exact congrArg Except.ok hassemble
    · rw [if_neg hspecial, hread]
      exact congrArg Except.ok hassemble
  | none =>
    obtain ⟨hspecial, s, htext, hbegins, hassemble⟩ := h.read_behind_scheme ha
    rw [← List.append_assoc, htext, List.cons_append, if_neg (Bool.eq_false_iff.1 hspecial)]
    split
    · rename_i rest heq
      rw [(List.cons.inj heq).2] at hbegins
      exact absurd rfl (begins_cons.1 hbegins)
    · rename_i rest _ heq
      rw [← (List.cons.inj heq).2]
      exact congrArg Except.ok hassemble
    · rename_i hslash
      exact absurd rfl (hslash _)

/-- Whatever an address is written with can be seen. -/
theorem isVisible_of_mem_render (h : IsAddress u segments) {c : Char} (hc : c ∈ u.render.toList) :
    IsVisible c := by
  rw [toList_render, List.mem_append, List.mem_cons, List.mem_append, List.mem_append, ending,
    List.mem_append, h.path] at hc
  rcases hc with hc | rfl | hc | hc | hc | hc
  · exact isVisible_of_isSchemeChar (h.scheme.char c hc).1
  · decide
  · unfold authorityText at hc
    split at hc
    · rename_i a ha
      rw [toList_render_authority] at hc
      rcases List.mem_cons.1 hc with rfl | hc
      · decide
      rcases List.mem_cons.1 hc with rfl | hc
      · decide
      · exact (h.authority a ha).isVisible_of_mem_body hc
    · split at hc
      · rcases (by simpa using hc : c = '/' ∨ c = '.') with rfl | rfl <;> decide
      · exact absurd hc List.not_mem_nil
  · rw [toList_render_segments, List.mem_flatMap] at hc
    obtain ⟨segment, hsegment, hc⟩ := hc
    rcases List.mem_cons.1 hc with rfl | hc
    · decide
    · exact (h.segment segment hsegment).plain.isVisible isEncodeSet_pathSet (by decide) hc
  · rcases mem_marked rfl hc with rfl | ⟨q, hq, hc⟩
    · decide
    · exact (h.query q hq).isVisible (isEncodeSet_querySet _)
        (by cases isSpecial u.scheme <;> decide) hc
  · rcases mem_marked rfl hc with rfl | ⟨f, hf, hc⟩
    · decide
    · exact (h.fragment f hf).isVisible isEncodeSet_fragmentSet (by decide) hc

/-- **An address is read as it was written.** -/
theorem parse_render (h : IsAddress u segments) : parse u.render = .ok u := by
  have hread := h.readAfterScheme_render
  rw [parse, clean_eq_self fun c => h.isVisible_of_mem_render, toList_render,
    scheme?_append h.scheme, h.path]
  exact hread

end IsAddress

/-! ## Addresses that were read -/

theorem plain_readMarked {encoded : Char → Bool} (h : IsEncodeSet encoded) {s : List Char}
    {part : String} (hs : readMarked encoded s = some part) : Plain encoded part.toList := by
  unfold readMarked at hs
  split at hs
  · cases hs
    exact plain_encodePart h _
  · cases hs

variable [Idna]

/-- What an address is put together from makes an address. -/
theorem isAddress_assemble {scheme : String} {authority : Option Authority} {rest : List Char}
    {read : List Char → List String} (hscheme : IsScheme scheme.toList) (hfile : scheme ≠ "file")
    (hauthority : ∀ a ∈ authority, IsAuthority scheme a)
    (hread : ∀ p, ∀ s ∈ read p, IsSegment (isSpecial scheme) s)
    (hplaced : isSpecial scheme = true → authority.isSome = true)
    (hfilled : ∀ p, read p = [] → authority.isSome = true ∧ isSpecial scheme = false) :
    ∃ segments, IsAddress (assemble scheme authority rest fun p => .segments (read p)) segments :=
  ⟨_, hscheme, hfile, hauthority, rfl, hread _, hplaced, hfilled _,
    fun _ hq => plain_readMarked (isEncodeSet_querySet _) hq,
    fun _ hf => plain_readMarked isEncodeSet_fragmentSet hf⟩

theorem of_readFile {s : List Char} (h : readFile s = .ok u) :
    u.scheme = "file" ∧ u.authority.isSome = true := by
  unfold readFile at h
  split at h
  · split at h
    · obtain ⟨authority, -, rfl⟩ := map_eq_ok_iff.1 h
      exact ⟨rfl, rfl⟩
    · cases h
      exact ⟨rfl, rfl⟩
  · cases h
    exact ⟨rfl, rfl⟩

theorem isAddress_behind_authority [LawfulIdna] {scheme : String} {s rest : List Char}
    {a : Authority} (hscheme : IsScheme scheme.toList) (hfile : scheme ≠ "file")
    (h : readAuthority scheme s = .ok (a, rest)) :
    ∃ segments, IsAddress (assemble scheme (some a) rest fun p =>
      .segments (pathAfterAuthority (isSpecial scheme) p)) segments := by
  refine isAddress_assemble hscheme hfile ?_ (fun p s => isSegment_of_mem_pathAfterAuthority)
    (fun _ => rfl) fun p hnil => ⟨rfl, ?_⟩
  · intro a' ha
    exact Option.some.inj ha ▸ isAuthority_of_readAuthority h
  · exact Bool.eq_false_iff.2 fun hspecial => pathAfterAuthority_ne_nil hspecial hnil

/-- What stands behind a scheme is a file, nothing to append to, or an address with segments. -/
theorem isAddress_of_readAfterScheme [LawfulIdna] {scheme : String} {s : List Char}
    (hscheme : IsScheme scheme.toList) (h : readAfterScheme scheme s = .ok u) :
    (u.scheme = "file" ∧ u.authority.isSome = true) ∨ (∃ t, u.path = .opaqueText t) ∨
      ∃ segments, IsAddress u segments := by
  unfold readAfterScheme at h
  simp only at h
  split at h
  · exact .inl (of_readFile h)
  rename_i hfile
  refine .inr ?_
  split at h
  · obtain ⟨⟨a, rest⟩, hread, h⟩ := bind_eq_ok_iff.1 h
    cases h
    exact .inr (isAddress_behind_authority hscheme hfile hread)
  rename_i hspecial
  split at h
  · obtain ⟨⟨a, rest⟩, hread, h⟩ := bind_eq_ok_iff.1 h
    cases h
    exact .inr (isAddress_behind_authority hscheme hfile hread)
  · cases h
    exact .inr (isAddress_assemble hscheme hfile (fun a ha => absurd ha (Option.not_mem_none a))
      (fun p s => isSegment_of_mem_segmentsOf) (fun h => absurd h hspecial)
      fun p hnil => absurd hnil segmentsOf_ne_nil)
  · cases h
    exact .inl ⟨_, rfl⟩

theorem scheme_of_readAfterScheme {scheme : String} {s : List Char}
    (h : readAfterScheme scheme s = .ok u) : u.scheme = scheme := by
  unfold readAfterScheme at h
  simp only at h
  split at h
  · rename_i hfile
    rw [hfile]
    exact (of_readFile h).1
  split at h
  · obtain ⟨_, -, h⟩ := bind_eq_ok_iff.1 h
    cases h
    rfl
  split at h
  · obtain ⟨_, -, h⟩ := bind_eq_ok_iff.1 h
    cases h
    rfl
  · cases h
    rfl
  · cases h
    rfl

/-- The scheme of an address is the one that stands before it. -/
theorem scheme_of_parse_append {scheme : String} (hscheme : IsScheme scheme.toList)
    {rest : List Char} (hrest : ∀ c ∈ rest, IsVisible c)
    (h : parse (String.ofList (scheme.toList ++ ':' :: rest)) = .ok u) : u.scheme = scheme := by
  have hvisible : ∀ c ∈ scheme.toList ++ ':' :: rest, IsVisible c := by
    intro c hc
    rw [List.mem_append, List.mem_cons] at hc
    rcases hc with hc | rfl | hc
    · exact isVisible_of_isSchemeChar (hscheme.char c hc).1
    · decide
    · exact hrest c hc
  rw [parse, String.toList_ofList, clean_eq_self hvisible, scheme?_append hscheme] at h
  exact scheme_of_readAfterScheme h

/-- **What was read is an address**, unless it is a file or nothing can be appended to it. -/
theorem isAddress_of_parse [LawfulIdna] {s : String} (h : parse s = .ok u) :
    (u.scheme = "file" ∧ u.authority.isSome = true) ∨ (∃ t, u.path = .opaqueText t) ∨
      ∃ segments, IsAddress u segments := by
  unfold parse at h
  split at h
  · cases h
  · rename_i scheme rest hscheme
    exact isAddress_of_readAfterScheme (isScheme_of_scheme? hscheme) h

/-! ## What can be left out -/

/-- An authority is one without its names, too. -/
theorem IsAuthority.anonymous {scheme : String} {a : Authority} (h : IsAuthority scheme a) :
    IsAuthority scheme { a with username := "", password := "" } where
  username _ hc := absurd hc List.not_mem_nil
  password _ hc := absurd hc List.not_mem_nil
  host := h.host
  port := h.port
  noHost heq :=
    have ⟨hspecial, _, _, hport⟩ := h.noHost heq
    ⟨hspecial, rfl, rfl, hport⟩

/-- An address is one with other segments, too. -/
theorem IsAddress.withSegments (h : IsAddress u segments) {others : List String}
    (hothers : ∀ s ∈ others, IsSegment (isSpecial u.scheme) s)
    (hfilled : others = [] → segments = []) :
    IsAddress { u with path := .segments others } others :=
  { h with path := rfl, segment := hothers, filled := fun hnil => h.filled (hfilled hnil) }

theorem IsAddress.dropEmptyEnd (h : IsAddress u segments) :
    IsAddress { u with path := .segments (dropEmptyEnd segments) } (dropEmptyEnd segments) :=
  h.withSegments (fun _ => isSegment_of_mem_dropEmptyEnd h.segment) dropEmptyEnd_eq_nil_iff.1

end Saboteur.Url
