import Saboteur.Proofs.Text.Pieces
import Saboteur.Proofs.Url.Encoding

/-!
# Paths are read as they were written

The segments of a path that was read are encoded, hold no slash and are no dot segments. Such
segments are read again from between the slashes that they are written with.
-/

namespace Saboteur.Url

/-! ## Segments -/

/-- A segment as it is kept. -/
structure IsSegment (special : Bool) (segment : String) : Prop where
  plain : Plain pathSet segment.toList
  slash : ∀ c ∈ segment.toList, endsSegment special c = false
  dot : ¬ IsDot segment.toList

variable {special : Bool} {segments : List String} {s : List Char}

theorem isSegment_empty : IsSegment special "" where
  plain _ h := absurd h List.not_mem_nil
  slash _ h := absurd h List.not_mem_nil
  dot := by decide

theorem endsSegment_of_code {c : Char} (h : c = '%' ∨ c.isAlphanum = true) :
    endsSegment special c = false := by
  rw [Bool.eq_false_iff]
  intro hends
  simp only [endsSegment, Bool.or_eq_true, decide_eq_true_eq, Bool.and_eq_true] at hends
  rcases hends with rfl | ⟨-, rfl⟩
  · exact absurd h (by decide)
  · exact absurd h (by decide)

/-- A piece of a path that is no dot segment is kept as a segment. -/
theorem isSegment_encodePart {piece : List Char} (hslash : ∀ c ∈ piece, endsSegment special c = false)
    (hdot : ¬ IsDot piece) : IsSegment special (encodePart pathSet piece) where
  plain := plain_encodePart isEncodeSet_pathSet piece
  slash _ hc := (mem_of_mem_encodePart hc).elim (fun h => hslash _ h.1) endsSegment_of_code
  dot h := hdot h.of_encodePart

/-! ## Pieces -/

/-- What a piece leaves of the path before it. -/
theorem resolvePieces_cons (path : List String) (piece : List Char) (rest : List (List Char)) :
    ∃ path', resolvePieces path (piece :: rest) = resolvePieces path' rest ∧
      (rest = [] → path' ≠ []) ∧
      ∀ segment ∈ path', segment ∈ path ∨ segment = "" ∨
        (¬ IsDot piece ∧ segment = encodePart pathSet piece) := by
  have hclosing : ∀ segment ∈ (if rest.isEmpty then [""] else []), segment = "" := by
    intro segment h
    split at h
    · exact List.mem_singleton.1 h
    · exact absurd h List.not_mem_nil
  rw [resolvePieces]
  by_cases hdouble : isDoubleDot piece = true
  · refine ⟨_, by rw [if_pos hdouble], ?_, fun segment h => ?_⟩
    · rintro rfl
      simp
    · rcases List.mem_append.1 h with h | h
      · exact .inl (List.dropLast_subset _ h)
      · exact .inr (.inl (hclosing _ h))
  · by_cases hsingle : isSingleDot piece = true
    · refine ⟨_, by rw [if_neg hdouble, if_pos hsingle], ?_, fun segment h => ?_⟩
      · rintro rfl
        simp
      · rcases List.mem_append.1 h with h | h
        · exact .inl h
        · exact .inr (.inl (hclosing _ h))
    · refine ⟨_, by rw [if_neg hdouble, if_neg hsingle], fun _ => by simp, fun segment h => ?_⟩
      rcases List.mem_append.1 h with h | h
      · exact .inl h
      · exact .inr (.inr ⟨fun hdot => hdot.elim hsingle hdouble, List.mem_singleton.1 h⟩)

/-- **Pieces without slashes make segments.** -/
theorem isSegment_of_mem_resolvePieces {path : List String} {pieces : List (List Char)}
    (hpath : ∀ segment ∈ path, IsSegment special segment)
    (hpieces : ∀ piece ∈ pieces, ∀ c ∈ piece, endsSegment special c = false) {segment : String}
    (h : segment ∈ resolvePieces path pieces) : IsSegment special segment := by
  induction pieces generalizing path with
  | nil => exact hpath segment h
  | cons piece rest ih =>
    obtain ⟨path', heq, -, hmem⟩ := resolvePieces_cons path piece rest
    rw [heq] at h
    obtain ⟨hpiece, hrest⟩ := List.forall_mem_cons.1 hpieces
    refine ih (fun segment' h' => ?_) hrest h
    rcases hmem segment' h' with hold | rfl | ⟨hdot, rfl⟩
    · exact hpath segment' hold
    · exact isSegment_empty
    · exact isSegment_encodePart hpiece hdot

theorem resolvePieces_ne_nil {path : List String} {pieces : List (List Char)} (h : pieces ≠ []) :
    resolvePieces path pieces ≠ [] := by
  induction pieces generalizing path with
  | nil => exact absurd rfl h
  | cons piece rest ih =>
    obtain ⟨path', heq, hne, -⟩ := resolvePieces_cons path piece rest
    rw [heq]
    cases rest with
    | nil => exact hne rfl
    | cons piece' rest => exact ih (List.cons_ne_nil _ _)

/-- Segments are the pieces that they were made of. -/
theorem resolvePieces_map_toList {path : List String}
    (h : ∀ segment ∈ segments, IsSegment special segment) :
    resolvePieces path (segments.map String.toList) = path ++ segments := by
  induction segments generalizing path with
  | nil => exact (List.append_nil path).symm
  | cons segment rest ih =>
    obtain ⟨hsegment, hrest⟩ := List.forall_mem_cons.1 h
    have hdouble : ¬ isDoubleDot segment.toList = true := fun hd => hsegment.dot (.inr hd)
    have hsingle : ¬ isSingleDot segment.toList = true := fun hs => hsegment.dot (.inl hs)
    rw [List.map_cons, resolvePieces, if_neg hdouble, if_neg hsingle, ih hrest,
      encodePart_of_plain hsegment.plain, String.ofList_toList, List.append_assoc,
      List.singleton_append]

/-! ## Between slashes -/

theorem endsSegment_of_mem_pathPieces {piece : List Char} (h : piece ∈ pathPieces special s)
    {c : Char} (hc : c ∈ piece) : endsSegment special c = false := by
  obtain ⟨d, -, hd⟩ := List.mem_map.1 (Text.mem_of_mem_splitList h hc)
  split at hd
  · exact absurd (hd ▸ hc) (Text.not_mem_of_mem_splitList h)
  · rename_i hends
    exact hd ▸ Bool.eq_false_iff.2 hends

theorem isSegment_of_mem_segmentsOf {segment : String} (h : segment ∈ segmentsOf special s) :
    IsSegment special segment :=
  isSegment_of_mem_resolvePieces (fun _ h => absurd h List.not_mem_nil)
    (fun _ hpiece _ hc => endsSegment_of_mem_pathPieces hpiece hc) h

theorem segmentsOf_ne_nil : segmentsOf special s ≠ [] :=
  resolvePieces_ne_nil (Text.splitList_ne_nil _ _)

theorem endsSegment_slash (special : Bool) : endsSegment special '/' = true := rfl

/-- Pieces without slashes are found between the slashes that they are written with. -/
theorem pathPieces_intercalate {pieces : List (List Char)} (hne : pieces ≠ [])
    (h : ∀ p ∈ pieces, ∀ c ∈ p, endsSegment special c = false) :
    pathPieces special (['/'].intercalate pieces) = pieces := by
  have hsame : (['/'].intercalate pieces).map (fun c => if endsSegment special c then '/' else c) =
      ['/'].intercalate pieces := by
    refine (List.map_congr_left fun c hc => ?_).trans (List.map_id _)
    rcases Text.mem_of_mem_intercalate hc with rfl | ⟨p, hp, hc⟩
    · rfl
    · exact if_neg (Bool.eq_false_iff.1 (h p hp c hc))
  rw [pathPieces, hsame, Text.splitList_eq_iff]
  refine ⟨hne, fun p hp hslash => ?_, rfl⟩
  have hends := h p hp '/' hslash
  rw [endsSegment_slash] at hends
  cases hends

theorem pathPieces_segments (h : ∀ segment ∈ segments, IsSegment special segment)
    (hne : segments ≠ []) : pathPieces special (['/'].intercalate (segments.map String.toList)) =
      segments.map String.toList := by
  refine pathPieces_intercalate (by simpa using hne) fun p hp => ?_
  obtain ⟨segment, hsegment, rfl⟩ := List.mem_map.1 hp
  exact (h segment hsegment).slash

/-- **Segments are read from between the slashes that they are written with.** -/
theorem segmentsOf_intercalate (h : ∀ segment ∈ segments, IsSegment special segment)
    (hne : segments ≠ []) : segmentsOf special (['/'].intercalate (segments.map String.toList)) =
      segments := by
  rw [segmentsOf, pathPieces_segments h hne, resolvePieces_map_toList h, List.nil_append]

/-- The segment that stands for itself makes no difference before others. -/
theorem segmentsOf_point_intercalate (h : ∀ segment ∈ segments, IsSegment special segment)
    (hne : segments ≠ []) :
    segmentsOf special ('.' :: '/' :: ['/'].intercalate (segments.map String.toList)) =
      segments := by
  obtain ⟨segment, rest, rfl⟩ := List.exists_cons_of_ne_nil hne
  have hpieces : pathPieces special (['/'].intercalate
      (['.'] :: (segment :: rest).map String.toList)) =
        ['.'] :: (segment :: rest).map String.toList := by
    refine pathPieces_intercalate (List.cons_ne_nil _ _) fun p hp => ?_
    rcases List.mem_cons.1 hp with rfl | hp
    · intro c hc
      rw [List.mem_singleton.1 hc]
      cases special <;> rfl
    · obtain ⟨segment', hsegment, rfl⟩ := List.mem_map.1 hp
      exact (h segment' hsegment).slash
  have hpoint : '.' :: '/' :: ['/'].intercalate ((segment :: rest).map String.toList) =
      ['/'].intercalate (['.'] :: (segment :: rest).map String.toList) := by
    rw [List.map_cons, List.intercalate_cons_cons]
    rfl
  rw [hpoint, segmentsOf, hpieces]
  exact (resolvePieces_map_toList h).trans (List.nil_append _)

/-! ## Texts of paths -/

theorem toList_render_segments (segments : List String) :
    (Path.segments segments).render.toList = segments.flatMap fun s => '/' :: s.toList := by
  rw [Path.render, String.toList_join, List.flatMap_map]
  simp

theorem toList_render_of_ne_nil (h : segments ≠ []) : (Path.segments segments).render.toList =
    '/' :: ['/'].intercalate (segments.map String.toList) := by
  rw [toList_render_segments]
  induction segments with
  | nil => exact absurd rfl h
  | cons segment rest ih =>
    cases rest with
    | nil => simp
    | cons segment' rest =>
      rw [List.flatMap_cons, ih (List.cons_ne_nil _ _)]
      simp [List.intercalate_cons_cons]

theorem isSegment_of_mem_pathAfterAuthority {segment : String}
    (h : segment ∈ pathAfterAuthority special s) : IsSegment special segment := by
  unfold pathAfterAuthority at h
  split at h
  · split at h
    · exact isSegment_of_mem_segmentsOf h
    · exact absurd h List.not_mem_nil
  · split at h
    · exact isSegment_of_mem_segmentsOf h
    · exact isSegment_of_mem_segmentsOf h

/-- With a well-known scheme there is always a segment. -/
theorem pathAfterAuthority_ne_nil (h : special = true) : pathAfterAuthority special s ≠ [] := by
  unfold pathAfterAuthority
  split
  · rw [if_pos h]
    exact segmentsOf_ne_nil
  · split
    · exact segmentsOf_ne_nil
    · exact segmentsOf_ne_nil

/-- **A path behind an authority is read as it was written.** -/
theorem pathAfterAuthority_render (h : ∀ segment ∈ segments, IsSegment special segment)
    (hempty : segments = [] → special = false) :
    pathAfterAuthority special (Path.segments segments).render.toList = segments := by
  by_cases hne : segments = []
  · rw [hne, hempty hne]
    rfl
  · rw [toList_render_of_ne_nil hne, pathAfterAuthority, if_pos (endsSegment_slash special),
      segmentsOf_intercalate h hne]

/-- **A path without an authority is read as it was written**, and is not taken for an authority. -/
theorem exists_segmentsOf_eq (h : ∀ segment ∈ segments, IsSegment special segment)
    (hne : segments ≠ []) :
    ∃ s, (if (Path.segments segments).looksLikeAuthority then "/." else "").toList ++
        (Path.segments segments).render.toList = '/' :: s ∧
      segmentsOf special s = segments ∧ s.head? ≠ some '/' := by
  rw [toList_render_of_ne_nil hne]
  by_cases hlooks : (Path.segments segments).looksLikeAuthority = true
  · rw [if_pos hlooks]
    exact ⟨'.' :: '/' :: ['/'].intercalate (segments.map String.toList), rfl,
      segmentsOf_point_intercalate h hne, by simp⟩
  · rw [if_neg hlooks]
    refine ⟨_, rfl, segmentsOf_intercalate h hne, fun hhead => ?_⟩
    obtain ⟨segment, rest, rfl⟩ := List.exists_cons_of_ne_nil hne
    have hslash : '/' ∉ segment.toList := fun hmem => by
      have hends := (h segment List.mem_cons_self).slash '/' hmem
      rw [endsSegment_slash] at hends
      cases hends
    cases hsegment : segment.toList with
    | nil =>
      -- An empty segment with another one behind it would look like an authority.
      rw [String.toList_eq_nil_iff.1 hsegment] at hlooks hhead
      cases rest with
      | nil => simp at hhead
      | cons segment' rest => exact hlooks rfl
    | cons c cs =>
      rw [hsegment] at hslash
      have hc : c = '/' := by
        cases rest <;> simpa [hsegment, List.intercalate_cons_cons] using hhead
      exact hslash (hc ▸ List.mem_cons_self)

/-! ## The end of a path -/

theorem isSegment_of_mem_dropEmptyEnd {segment : String}
    (h : ∀ segment ∈ segments, IsSegment special segment) (hmem : segment ∈ dropEmptyEnd segments) :
    IsSegment special segment := by
  unfold dropEmptyEnd at hmem
  split at hmem
  · exact h segment (List.dropLast_subset _ hmem)
  · exact h segment hmem

theorem dropEmptyEnd_eq_nil_iff : dropEmptyEnd segments = [] ↔ segments = [] := by
  unfold dropEmptyEnd
  split
  · rename_i hlong
    rw [← List.length_eq_zero_iff, List.length_dropLast, ← List.length_eq_zero_iff]
    omega
  · rfl

end Saboteur.Url
