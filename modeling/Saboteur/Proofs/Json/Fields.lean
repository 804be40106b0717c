import Saboteur.Json.Fields

/-!
# Fields of a record

The fields that are collected from an object are those of its members whose keys are names of
fields.
-/

namespace Saboteur.Json

theorem lookup_collect {names : List String} {entries out : List (String × Json)}
    {members : List (Literal × Json)} (h : collect names entries members = .ok out) {k : String}
    {j : Json} :
    out.lookup k = some j ↔
      entries.lookup k = some j ∨ k ∈ names ∧ (Literal.text k, j) ∈ members := by
  induction members generalizing entries with
  | nil =>
    cases h
    simp
  | cons m rest ih =>
    obtain ⟨l, j'⟩ := m
    cases l with
    | unpaired => cases h
    | text k' =>
      rw [collect] at h
      split at h
      · rename_i hname
        split at h
        · cases h
        · rename_i hfresh
          rw [ih h, List.lookup_cons]
          by_cases hk : k = k'
          · subst hk
            have hnone : entries.lookup k = none := Option.not_isSome_iff_eq_none.1 hfresh
            have hmem : k ∈ names := by simpa using hname
            simp [hnone, hmem, eq_comm]
          · have hkey : (k == k') = false := by simpa using hk
            simp [hkey, hk]
      · rename_i hname
        rw [ih h, List.mem_cons]
        have hother : k ∈ names → (Literal.text k, j) ≠ (.text k', j') := by
          rintro hmem heq
          cases heq
          exact hname (by simpa using hmem)
        refine or_congr_right (and_congr_right fun hmem => ?_)
        exact (or_iff_right (hother hmem)).symm

/-- **The field of a name is the member with that name.** -/
theorem lookup_fields_object {names : List String} {members : List (Literal × Json)} {f : Fields}
    (h : fields names (.object members) = .ok f) {k : String} (hk : k ∈ names) {j : Json} :
    f.entries.lookup k = some j ↔ (Literal.text k, j) ∈ members := by
  rw [fields] at h
  cases hcollect : collect names [] members with
  | error e =>
    rw [hcollect] at h
    cases h
  | ok entries =>
    rw [hcollect] at h
    cases h
    rw [lookup_collect hcollect]
    simp [hk]

theorem Fields.defaulted_eq_ok_iff {α : Type} {f : Fields} {name : String} {default a : α}
    {value : Json → Except JsonError α} :
    f.defaulted name default value = .ok a ↔
      (∃ j, f.entries.lookup name = some j ∧ value j = .ok a) ∨
        f.entries.lookup name = none ∧ a = default := by
  unfold defaulted
  cases f.entries.lookup name with
  | some j => simp
  | none => simp [eq_comm]

end Saboteur.Json
