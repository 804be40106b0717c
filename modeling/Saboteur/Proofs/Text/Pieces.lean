import Saboteur.Text.Cutting

/-!
# Pieces of a text

Cutting a text at a character and joining the pieces with that character undo each other. Hence the
pieces are the only way to write the text as pieces in which the character does not occur.
-/

namespace Saboteur.Text

/-- Cutting is what the library calls splitting. -/
theorem splitList_eq_splitOn (sep : Char) (s : List Char) : splitList sep s = s.splitOn sep := by
  rw [List.splitOn_eq_splitOnP]
  induction s with
  | nil => rfl
  | cons c rest ih =>
    rw [splitList, List.splitOnP_cons_eq_if_modifyHead, ih]
    simp only [beq_iff_eq]
    split
    · rfl
    · cases h : rest.splitOnP (· == sep) with
      | nil => exact absurd h (List.splitOnP_ne_nil _ _)
      | cons piece pieces => rfl

/-- No piece has the character in it at which the text was cut. -/
theorem not_mem_of_mem_splitList {sep : Char} {s p : List Char} (h : p ∈ splitList sep s) :
    sep ∉ p := by
  induction s generalizing p with
  | nil =>
    rw [splitList, List.mem_singleton] at h
    rw [h]
    exact List.not_mem_nil
  | cons c rest ih =>
    rw [splitList] at h
    split at h
    · rcases List.mem_cons.1 h with rfl | h
      · exact List.not_mem_nil
      · exact ih h
    · rename_i hc
      split at h
      · rename_i piece pieces hrest
        rcases List.mem_cons.1 h with rfl | h
        · rw [List.mem_cons, not_or]
          exact ⟨Ne.symm hc, ih (hrest ▸ List.mem_cons_self)⟩
        · exact ih (hrest ▸ List.mem_cons_of_mem _ h)
      · rename_i hrest
        exact absurd hrest (splitList_ne_nil sep rest)

/-- Pieces are made of the characters of the text. -/
theorem mem_of_mem_splitList {sep : Char} {s p : List Char} (h : p ∈ splitList sep s) {c : Char}
    (hc : c ∈ p) : c ∈ s := by
  induction s generalizing p with
  | nil =>
    rw [splitList, List.mem_singleton] at h
    rwa [h] at hc
  | cons d rest ih =>
    rw [splitList] at h
    split at h
    · rcases List.mem_cons.1 h with rfl | h
      · exact absurd hc List.not_mem_nil
      · exact List.mem_cons_of_mem _ (ih h hc)
    · split at h
      · rename_i piece pieces hrest
        rcases List.mem_cons.1 h with rfl | h
        · exact (List.mem_cons.1 hc).elim (fun heq => heq ▸ List.mem_cons_self) fun hmem =>
            List.mem_cons_of_mem _ (ih (hrest ▸ List.mem_cons_self) hmem)
        · exact List.mem_cons_of_mem _ (ih (hrest ▸ List.mem_cons_of_mem _ h) hc)
      · rename_i hrest
        exact absurd hrest (splitList_ne_nil sep rest)

/-- What is joined is made of the pieces and of what joins them. -/
theorem mem_of_mem_intercalate {sep : Char} {pieces : List (List Char)} {c : Char}
    (h : c ∈ [sep].intercalate pieces) : c = sep ∨ ∃ p ∈ pieces, c ∈ p := by
  induction pieces with
  | nil => exact absurd h List.not_mem_nil
  | cons p pieces ih =>
    cases pieces with
    | nil =>
      rw [List.intercalate_singleton] at h
      exact .inr ⟨p, List.mem_cons_self, h⟩
    | cons q pieces =>
      rw [List.intercalate_cons_cons, List.mem_append, List.mem_append, List.mem_singleton] at h
      rcases h with (h | h) | h
      · exact .inr ⟨p, List.mem_cons_self, h⟩
      · exact .inl h
      · exact (ih h).imp_right fun ⟨r, hr, hc⟩ => ⟨r, List.mem_cons_of_mem _ hr, hc⟩

theorem toList_intercalate_ofList (sep : String) (pieces : List (List Char)) :
    (sep.intercalate (pieces.map String.ofList)).toList = sep.toList.intercalate pieces := by
  rw [String.toList_intercalate, List.map_map]
  congr 1
  exact (List.map_congr_left fun s _ => String.toList_ofList).trans (List.map_id _)

/-- **The pieces of a text are those that make it up and do not hold the separator.** -/
theorem splitList_eq_iff {sep : Char} {s : List Char} {pieces : List (List Char)} :
    splitList sep s = pieces ↔
      pieces ≠ [] ∧ (∀ p ∈ pieces, sep ∉ p) ∧ s = [sep].intercalate pieces := by
  constructor
  · rintro rfl
    refine ⟨splitList_ne_nil sep s, fun p hp => not_mem_of_mem_splitList hp, ?_⟩
    rw [splitList_eq_splitOn, List.intercalate_splitOn]
  · rintro ⟨hne, hfree, rfl⟩
    rw [splitList_eq_splitOn, List.splitOn_intercalate sep hfree hne]

end Saboteur.Text
