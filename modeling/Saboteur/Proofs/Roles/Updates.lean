import Saboteur.Proofs.Registration.Roster

/-!
# Role updates

A role update goes through the declared windows, validator by validator and in no particular order,
and writes roles into records; and where a validator has no windows, its role is read from there. It
never reads what it has written. A validator is written to only if it has windows, and then its role
comes from them, before and after.

So the order does not matter, nor how often and at which slots roles were updated before: as long as
the same windows are in force, an update leaves what it would have left on its own, and nobody who
asks for a role can tell that there was one.
-/

namespace Saboteur

namespace ValidatorStore

variable {s : ValidatorStore}

/-! ## One record -/

theorem updatedRecord_updatedRecord (windows : Windows) (now later : Slot) (r : ValidatorRecord) :
    updatedRecord windows later (updatedRecord windows now r) = updatedRecord windows later r := by
  unfold updatedRecord Windows.role?
  cases windows.get? r.index with
  | some own => rfl
  | none => rfl

theorem updatedRecord_eq_self {windows : Windows} {r : ValidatorRecord}
    (h : windows.get? r.index = none) (slot : Slot) : updatedRecord windows slot r = r := by
  simp [updatedRecord, Windows.role?, h]

/-- The role that an update gives a record is the one that the validator has anyway. -/
theorem role_updatedRecord (h : s.Keyed) {index : UInt64} {r : ValidatorRecord}
    (hr : s.records.get? index = some r) (windows : Windows) (slot : Slot) :
    (updatedRecord windows slot r).role = s.roleWithin windows slot index := by
  rw [roleWithin_eq, storedRole, hr, updatedRecord, h index r hr]
  rfl

/-- **A validator is passed over if its record is up to date, and otherwise its record is brought up
to date and counted.** -/
theorem updateRole_cases (h : s.Keyed) (windows : Windows) (slot : Slot) (n : Nat)
    (index : UInt64) :
    ((s.records.get? index).map (updatedRecord windows slot) = s.records.get? index ∧
        updateRole windows slot (n, s) index = (n, s)) ∨
      ∃ r, s.records.get? index = some r ∧ updatedRecord windows slot r ≠ r ∧
        updateRole windows slot (n, s) index =
          (n + 1, { s with records := s.records.set index (updatedRecord windows slot r) }) := by
  unfold updateRole byIndex?
  cases hr : s.records.get? index with
  | none => exact .inl ⟨rfl, rfl⟩
  | some r =>
    have hrole := role_updatedRecord h hr windows slot
    have hupdated : updatedRecord windows slot r =
        { r with role := s.roleWithin windows slot index } := by
      rw [← hrole]
      rfl
    by_cases hsame : r.role = s.roleWithin windows slot index
    · refine .inl ⟨?_, if_pos hsame⟩
      rw [Option.map_some, hupdated, ← hsame]
    · refine .inr ⟨r, rfl, ?_, ?_⟩
      · intro heq
        exact hsame ((congrArg ValidatorRecord.role heq).symm.trans hrole)
      · refine (if_neg hsame).trans ?_
        rw [setRole, hr, hupdated]

/-! ## One after the other -/

/-- How many validators have another record in a second store. -/
def countChanged (s t : ValidatorStore) : Nat :=
  s.records.keys.countP fun index => decide (t.byIndex? index ≠ s.byIndex? index)

theorem countChanged_self (s : ValidatorStore) : s.countChanged s = 0 :=
  List.countP_eq_zero.2 fun index _ => by simp

/-- One change of a record that stays until the end adds one to the changes from there on. -/
theorem countChanged_set (hd : s.records.Distinct) {index : UInt64} {r r' : ValidatorRecord}
    (hr : s.records.get? index = some r) (hr' : r' ≠ r) {t : ValidatorStore}
    (ht : t.records.get? index = some r') :
    s.countChanged t =
      countChanged { s with records := s.records.set index r' } t + 1 := by
  have hmem : index ∈ s.records.keys := Table.mem_keys_iff.2 (by rw [hr]; rfl)
  have hperm := List.perm_cons_erase hmem
  unfold countChanged byIndex?
  rw [Table.keys_set_of_mem hmem, hperm.countP_eq, hperm.countP_eq, List.countP_cons_of_pos,
    List.countP_cons_of_neg]
  · congr 1
    refine List.countP_congr fun other hother => ?_
    have hne : index ≠ other := by
      rintro rfl
      exact (List.Nodup.not_mem_erase hd) hother
    rw [Table.get?_set, if_neg hne]
  · simp [ht]
  · simp [ht, hr, hr']

/-- The records of some validators are up to date at a slot, and the store is otherwise the same. -/
structure UpToDate (windows : Windows) (slot : Slot) (order : List UInt64) (s t : ValidatorStore) :
    Prop where
  elsewhere : t = { s with records := t.records }
  keys : t.records.keys = s.records.keys
  records : ∀ i, t.records.get? i =
    if i ∈ order then (s.records.get? i).map (updatedRecord windows slot)
    else s.records.get? i

namespace UpToDate

variable {windows : Windows} {slot : Slot} {rest : List UInt64} {t : ValidatorStore}
  {index : UInt64} {r : ValidatorRecord}

/-- A record that is up to date stays as it is, whether or not its turn comes. -/
theorem get?_of_updated (h : UpToDate windows slot rest s t)
    (hr : s.records.get? index = some (updatedRecord windows slot r)) :
    t.records.get? index = some (updatedRecord windows slot r) := by
  rw [h.records, hr, Option.map_some, updatedRecord_updatedRecord, ite_self]

/-- Passing over a record that is up to date. -/
theorem pass (h : UpToDate windows slot rest s t)
    (hsame : (s.records.get? index).map (updatedRecord windows slot) = s.records.get? index) :
    UpToDate windows slot (index :: rest) s t := by
  refine ⟨h.elsewhere, h.keys, fun i => ?_⟩
  rw [h.records]
  by_cases hi : i = index
  · simp [hi, hsame]
  · simp [hi]

/-- Bringing a record up to date before the others. -/
theorem write (hr : s.records.get? index = some r)
    (h : UpToDate windows slot rest
      { s with records := s.records.set index (updatedRecord windows slot r) } t) :
    UpToDate windows slot (index :: rest) s t := by
  have hmem : index ∈ s.records.keys := Table.mem_keys_iff.2 (by rw [hr]; rfl)
  refine ⟨h.elsewhere, h.keys.trans (Table.keys_set_of_mem hmem _), fun i => ?_⟩
  by_cases hi : i = index
  · rw [hi, h.get?_of_updated (Table.get?_set_self _ _ _), if_pos List.mem_cons_self, hr,
      Option.map_some]
  · rw [h.records]
    simp [hi, Ne.symm hi]

end UpToDate

/-- **Whoever comes in turn is brought up to date, and every change of a record is counted.** -/
theorem upToDate_foldl (hk : s.Keyed) (hd : s.records.Distinct) (windows : Windows) (slot : Slot)
    (n : Nat) (order : List UInt64) :
    let (changed, t) := order.foldl (updateRole windows slot) (n, s)
    UpToDate windows slot order s t ∧ changed = n + s.countChanged t := by
  induction order generalizing n s with
  | nil => exact ⟨⟨rfl, rfl, fun i => by simp⟩, by rw [countChanged_self]; rfl⟩
  | cons index rest ih =>
    rw [List.foldl_cons]
    obtain ⟨hsame, hstep⟩ | ⟨r, hr, hne, hstep⟩ := updateRole_cases hk windows slot n index
    · rw [hstep]
      obtain ⟨h, hcount⟩ := ih hk hd n
      exact ⟨h.pass hsame, hcount⟩
    · rw [hstep]
      have hk' : Keyed { s with records := s.records.set index (updatedRecord windows slot r) } :=
        keyed_of_set hk rfl (hk index r hr)
      obtain ⟨h, hcount⟩ := ih hk' (hd.set _ _) (n + 1)
      have hwritten := h.get?_of_updated (Table.get?_set_self _ _ _)
      refine ⟨h.write hr, hcount.trans ?_⟩
      rw [countChanged_set hd hr hne hwritten]
      omega

/-! ## A whole update -/

/-- **In whatever order the validators with windows come, an update leaves the same store and
returns how many records it has changed.** -/
theorem updateInTurn_eq (hk : s.Keyed) (hd : s.records.Distinct) (slot : Slot)
    {order : List UInt64} (horder : ∀ i, i ∈ order ↔ i ∈ s.windows.keys) :
    s.updateInTurn slot order = (s.countChanged (s.updateRoles slot), s.updateRoles slot) := by
  obtain ⟨h, hcount⟩ := upToDate_foldl hk hd s.windows slot 0 order
  have hstore : (s.updateInTurn slot order).2 = s.updateRoles slot := by
    refine h.elsewhere.trans ?_
    unfold updateRoles
    congr 1
    refine Table.eq_of_get?_eq ?_ ?_ fun i => ?_
    · rw [Table.Distinct, h.keys]
      exact hd
    · rw [h.keys, Table.keys_mapValues]
    · rw [h.records, Table.get?_mapValues]
      split
      case isTrue => rfl
      case isFalse hi =>
        -- a validator without windows keeps its record
        cases hr : s.records.get? i with
        | none => rfl
        | some r =>
          have hnone : s.windows.get? r.index = none := by
            rw [hk i r hr, ← Option.not_isSome_iff_eq_none, ← Table.mem_keys_iff, ← horder]
            exact hi
          rw [Option.map_some, updatedRecord_eq_self hnone]
  refine Prod.ext (hcount.trans ?_) hstore
  rw [Nat.zero_add]
  exact congrArg _ hstore

theorem changedByUpdate_eq_countChanged (hd : s.records.Distinct) (slot : Slot) :
    s.changedByUpdate slot = s.countChanged (s.updateRoles slot) := by
  unfold changedByUpdate countChanged Table.values Table.keys
  rw [List.countP_map, List.countP_map]
  refine List.countP_congr fun e he => ?_
  have hr : s.records.get? e.1 = some e.2 := (Table.mem_entries_iff hd).1 he
  simp [byIndex?, get?_updateRoles, hr]

/-- **Of the updates before it, an update leaves no trace.** -/
theorem updateRoles_updateRoles (s : ValidatorStore) (now later : Slot) :
    (s.updateRoles now).updateRoles later = s.updateRoles later := by
  unfold updateRoles
  congr 1
  rw [Table.mapValues_mapValues]
  congr 1
  funext r
  exact updatedRecord_updatedRecord _ _ _ r

theorem updateRoles_foldl_updateRoles (s : ValidatorStore) (earlier : List Slot) (later : Slot) :
    (earlier.foldl updateRoles s).updateRoles later = s.updateRoles later := by
  induction earlier generalizing s with
  | nil => rfl
  | cons now rest ih => exact (ih _).trans (updateRoles_updateRoles s now later)

end ValidatorStore

/-! ## Every store -/

/-- Something that is done to a store. -/
inductive StoreCall where
  | roster (c : RosterCall)
  | recordAttestation (slot : Slot) (pubkey : Pubkey) (a : Attestation)
  | recordBlock (slot : Slot) (pubkey : Pubkey) (b : SignedBlock)
  | addToPool (slot : Slot) (a : Attestation)
  | drainPool (first last : Slot)
  | prune (oldest : Slot)

namespace ValidatorStore

variable {s : ValidatorStore}

/-- The store after something was done to it. -/
def perform (s : ValidatorStore) : StoreCall → ValidatorStore
  | .roster c => s.call c
  | .recordAttestation slot pubkey a => s.recordAttestation slot pubkey a
  | .recordBlock slot pubkey b => s.recordBlock slot pubkey b
  | .addToPool slot a => s.addToPool slot a
  | .drainPool first last => (s.drainPool first last).2
  | .prune oldest => s.prune oldest

/-- The store after much was done to it. -/
def performInTurn (s : ValidatorStore) (calls : List StoreCall) : ValidatorStore :=
  calls.foldl perform s

theorem Consistent.perform (h : s.Consistent) (c : StoreCall) : (s.perform c).Consistent := by
  cases c with
  | roster c => exact h.call c
  | recordAttestation | recordBlock | addToPool | drainPool | prune =>
    exact ⟨h.keyed, h.distinct, h.held⟩

theorem Consistent.performInTurn (h : s.Consistent) (calls : List StoreCall) :
    (s.performInTurn calls).Consistent := by
  induction calls generalizing s with
  | nil => exact h
  | cons c rest ih => exact ih (h.perform c)

/-- **Role updates are unobservable and have no history.** Whatever was done to a store before, an
update comes to the same in every order of the validators, nobody has another role after it, and
each record says which role that is. It returns how many records it has changed; at the same slot it
would change nothing more, and updates at whatever slots before it make no difference. -/
theorem updateRoles_unobservable_history_free (calls : List StoreCall) :
    let s := empty.performInTurn calls
    ∀ now : Slot,
      (∀ order, (∀ i, i ∈ order ↔ i ∈ s.windows.keys) →
        s.updateInTurn now order = (s.changedByUpdate now, s.updateRoles now)) ∧
      (∀ slot i, (s.updateRoles now).roleOf slot i = s.roleOf slot i) ∧
      (∀ i r, (s.updateRoles now).byIndex? i = some r → r.role = s.roleOf now i) ∧
      s.changedByUpdate now = s.countChanged (s.updateRoles now) ∧
      ((s.updateRoles now).changedByUpdate now = 0 ∧
        (s.updateRoles now).updateRoles now = s.updateRoles now) ∧
      ∀ earlier : List Slot,
        (earlier.foldl updateRoles s).updateRoles now = s.updateRoles now := by
  intro s now
  have h : s.Consistent := consistent_empty.performInTurn calls
  have hupdated : (s.updateRoles now).Consistent := h.updateRoles now
  refine ⟨fun order horder => ?inTurn, fun slot i => roleWithin_updateRoles h.keyed now slot i,
    fun i r hr => ?role, changedByUpdate_eq_countChanged h.distinct now,
    ⟨?again, updateRoles_updateRoles s now now⟩, fun earlier =>
      updateRoles_foldl_updateRoles s earlier now⟩
  case inTurn =>
    rw [updateInTurn_eq h.keyed h.distinct now horder, changedByUpdate_eq_countChanged h.distinct]
  case role =>
    rw [byIndex?, get?_updateRoles, Option.map_eq_some_iff] at hr
    obtain ⟨old, hold, rfl⟩ := hr
    exact role_updatedRecord h.keyed hold s.windows now
  case again =>
    rw [changedByUpdate_eq_countChanged hupdated.distinct, updateRoles_updateRoles,
      countChanged_self]

/-- Two validators are registered, and windows are declared for them and for a third. -/
def windowsOfThree : List StoreCall :=
  [.roster (.register ⟨3, ⟨"0xaa"⟩, none⟩), .roster (.register ⟨5, ⟨"0xbb"⟩, some .attacker⟩),
    .roster (.setWindows (.ofDeclarations
      [(3, ⟨⟨0⟩, ⟨10⟩⟩), (5, ⟨⟨20⟩, ⟨30⟩⟩), (9, ⟨⟨0⟩, ⟨10⟩⟩)]))]

theorem updateRoles_unobservable_history_free_windowsOfThree :
    let s := empty.performInTurn windowsOfThree
    (∀ i, i ∈ [9, 5, 3] ↔ i ∈ s.windows.keys) ∧
      s.updateInTurn ⟨4⟩ [9, 5, 3] = (2, s.updateRoles ⟨4⟩) := by
  have horder : ∀ i, i ∈ [9, 5, 3] ↔
      i ∈ (empty.performInTurn windowsOfThree).windows.keys := by
    have hkeys : (empty.performInTurn windowsOfThree).windows.keys = [9, 5, 3].reverse := by decide
    intro i
    rw [hkeys, List.mem_reverse]
  have hchanged : (empty.performInTurn windowsOfThree).changedByUpdate ⟨4⟩ = 2 := by decide
  refine ⟨horder, ?_⟩
  rw [(updateRoles_unobservable_history_free windowsOfThree ⟨4⟩).1 [9, 5, 3] horder, hchanged]

end ValidatorStore

end Saboteur
