import Mathlib.Data.List.FinRange
import Mathlib.Data.List.Perm.Subperm

/-!
# Items by their positions

A list may hold an item twice. A selection from a list is told as positions where it matters which
of two equal items is meant.
-/

namespace Saboteur

/-- A list of images that is cut into pieces comes from a cut of the list itself. -/
theorem exists_map_map_eq {α β : Type} (f : α → β) {parts : List (List β)} {is : List α}
    (h : parts.flatten = is.map f) :
    ∃ places : List (List α), places.flatten = is ∧ places.map (List.map f) = parts := by
  induction parts generalizing is with
  | nil => exact ⟨[], (List.map_eq_nil_iff.1 h.symm).symm, rfl⟩
  | cons p parts ih =>
    obtain ⟨js, ks, rfl, hjs, hks⟩ := List.append_eq_map_iff.1 h
    obtain ⟨places, rfl, hplaces⟩ := ih hks.symm
    exact ⟨js :: places, rfl, by rw [List.map_cons, hjs, hplaces]⟩

/-- A selection from a list, as a multiset, is a list of different positions. -/
theorem exists_positions_of_subperm {α : Type} [DecidableEq α] {l xs : List α}
    (h : l.Subperm xs) : ∃ is : List (Fin xs.length), is.Nodup ∧ l = is.map xs.get := by
  refine ⟨(List.finRange l.length).map h.idxInj,
    (List.nodup_finRange _).map h.idxInj_injective, ?_⟩
  rw [List.map_map]
  refine (List.map_get_finRange l).symm.trans (List.map_congr_left fun i _ => ?_)
  exact h.getElem_idxInj_eq_getElem.symm

/-- A rearrangement of a list has every position once. -/
theorem exists_positions_of_perm {α : Type} [DecidableEq α] {l xs : List α} (h : l.Perm xs) :
    ∃ is : List (Fin xs.length), is.Perm (List.finRange xs.length) ∧ l = is.map xs.get := by
  obtain ⟨is, hnodup, rfl⟩ := exists_positions_of_subperm h.subperm
  refine ⟨is, ?_, rfl⟩
  have hsub : is.Subperm (List.finRange xs.length) :=
    hnodup.subperm fun i _ => List.mem_finRange i
  have hlength : is.length = xs.length := (List.length_map xs.get).symm.trans h.length_eq
  exact hsub.perm_of_length_le (List.length_finRange.trans hlength.symm).le

end Saboteur
