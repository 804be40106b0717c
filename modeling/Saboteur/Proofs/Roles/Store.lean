import Saboteur.ValidatorStore

/-!
# Stored roles

The records of the validator store and the roles in them. Windows overrule a record, so what a
record says matters for those validators only that have no windows. Each operation on records is
described by what it does to the stored role of every index.

An index that is not known counts as normal, as if it had a record that says so.
-/

namespace Saboteur

namespace ValidatorStore

variable {s : ValidatorStore}

/-- The role in the record of a validator. -/
def storedRole (s : ValidatorStore) (index : UInt64) : Role :=
  ((s.records.get? index).map (·.role)).getD .normal

/-- Whether a validator is known. -/
def Knows (s : ValidatorStore) (index : UInt64) : Prop := (s.records.get? index).isSome

instance (s : ValidatorStore) (index : UInt64) : Decidable (s.Knows index) :=
  inferInstanceAs (Decidable (_ = true))

/-- Every record is kept under the index that it names. -/
def Keyed (s : ValidatorStore) : Prop := ∀ i r, s.records.get? i = some r → r.index = i

/-- Who is not known has the role that a new validator gets. -/
theorem storedRole_of_not_knows {index : UInt64} (h : ¬ s.Knows index) :
    s.storedRole index = .normal := by
  rw [Knows, Bool.not_eq_true, Option.isSome_eq_false_iff, Option.isNone_iff_eq_none] at h
  rw [storedRole, h]
  rfl

/-- **Windows decide where they are declared, and the record elsewhere.** -/
theorem roleWithin_eq (s : ValidatorStore) (windows : Windows) (slot : Slot) (index : UInt64) :
    s.roleWithin windows slot index = (windows.role? slot index).getD (s.storedRole index) := by
  unfold roleWithin
  cases windows.role? slot index <;> rfl

/-! ## Registration -/

/-- A registration writes the record of its index and no other. -/
theorem get?_register (s : ValidatorStore) (i j : UInt64) (k : Pubkey) (role : Option Role) :
    (s.register i k role).records.get? j =
      if i = j then some (s.registered i k role) else s.records.get? j :=
  Table.get?_set _ _ _ _

/-- **Registering without a role stores none.** -/
theorem storedRole_register (s : ValidatorStore) (i j : UInt64) (k : Pubkey) :
    (s.register i k none).storedRole j = s.storedRole j := by
  unfold storedRole
  rw [get?_register]
  by_cases h : i = j
  · subst h
    rw [if_pos rfl]
    rfl
  · rw [if_neg h]

/-- A store stays keyed if a record is written under its own index. -/
theorem keyed_of_set {t : ValidatorStore} (h : s.Keyed) {index : UInt64} {r : ValidatorRecord}
    (ht : t.records = s.records.set index r) (hr : r.index = index) : t.Keyed := by
  intro j r' hr'
  rw [ht, Table.get?_set] at hr'
  by_cases hij : index = j
  · rw [if_pos hij] at hr'
    cases hr'
    exact hr.trans hij
  · rw [if_neg hij] at hr'
    exact h j r' hr'

theorem keyed_register (h : s.Keyed) (i : UInt64) (k : Pubkey) (role : Option Role) :
    (s.register i k role).Keyed := keyed_of_set h rfl rfl

/-! ## Role updates -/

theorem get?_updateRoles (s : ValidatorStore) (slot : Slot) (index : UInt64) :
    (s.updateRoles slot).records.get? index =
      (s.records.get? index).map (updatedRecord s.windows slot) := by
  simp [updateRoles]

/-- An update of roles makes nobody known. -/
theorem knows_updateRoles {slot : Slot} {index : UInt64} :
    (s.updateRoles slot).Knows index ↔ s.Knows index := by
  rw [Knows, get?_updateRoles, Option.isSome_map, Knows]

/-- **An update stores what the windows say about a known validator, and leaves it alone where they
say nothing.** -/
theorem storedRole_updateRoles (h : s.Keyed) (slot : Slot) (index : UInt64) :
    (s.updateRoles slot).storedRole index =
      if s.Knows index then (s.windows.role? slot index).getD (s.storedRole index)
      else s.storedRole index := by
  by_cases hk : s.Knows index
  · obtain ⟨r, hr⟩ := Option.isSome_iff_exists.mp hk
    rw [if_pos hk, storedRole, storedRole, get?_updateRoles, hr]
    simp [updatedRecord, h index r hr]
  · rw [if_neg hk, storedRole_of_not_knows hk,
      storedRole_of_not_knows (mt knows_updateRoles.mp hk)]

/-- **Under the windows in force nobody has another role after an update.** Where the windows speak
they overrule what an update writes, and elsewhere it writes nothing. -/
theorem roleWithin_updateRoles (h : s.Keyed) (now slot : Slot) (index : UInt64) :
    (s.updateRoles now).roleWithin s.windows slot index = s.roleWithin s.windows slot index := by
  rw [roleWithin_eq, roleWithin_eq, storedRole_updateRoles h]
  unfold Windows.role?
  cases s.windows.get? index with
  | some own => rfl
  | none => simp

theorem keyed_updateRoles (h : s.Keyed) (slot : Slot) : (s.updateRoles slot).Keyed := by
  intro i r hr
  rw [get?_updateRoles, Option.map_eq_some_iff] at hr
  obtain ⟨old, hold, rfl⟩ := hr
  exact h i old hold

/-! ## Giving a role -/

theorem keyed_setRole (h : s.Keyed) (index : UInt64) (role : Role) :
    (s.setRole index role).Keyed := by
  unfold setRole
  split
  · rename_i r hr
    exact keyed_of_set h rfl (h index r hr)
  · exact h

theorem windows_setRole (s : ValidatorStore) (index : UInt64) (role : Role) :
    (s.setRole index role).windows = s.windows := by
  unfold setRole
  split <;> rfl

/-! ## Operations that leave the roster alone -/

/-- The same validators, keys and windows. -/
structure SameRoster (s t : ValidatorStore) : Prop where
  records : s.records = t.records
  indices : s.indices = t.indices
  windows : s.windows = t.windows

namespace SameRoster

variable {t : ValidatorStore}

theorem refl (s : ValidatorStore) : SameRoster s s := ⟨rfl, rfl, rfl⟩

theorem trans {u : ValidatorStore} (h : SameRoster s t) (h' : SameRoster t u) : SameRoster s u :=
  ⟨h.records.trans h'.records, h.indices.trans h'.indices, h.windows.trans h'.windows⟩

theorem storedRole (h : SameRoster s t) (index : UInt64) :
    s.storedRole index = t.storedRole index := by
  rw [ValidatorStore.storedRole, ValidatorStore.storedRole, h.records]

theorem keyed (h : SameRoster s t) (ht : t.Keyed) : s.Keyed := by
  rw [Keyed, h.records]
  exact ht

end SameRoster

theorem sameRoster_prune (s : ValidatorStore) (slot : Slot) : SameRoster (s.prune slot) s :=
  ⟨rfl, rfl, rfl⟩

end ValidatorStore

end Saboteur
