import Mathlib.Data.List.Dedup
import Saboteur.Proofs.Registration.Keys
import Saboteur.Proofs.Tables

/-!
# The roster and its two tables

A store keeps the record of each index and the index of each key. A registration writes both, and
may do so for an index that is new, for one that changes its key, and for a key that another index
held. Roles come and go in the records alone.

Whatever is done in whatever order, the table of keys never points astray: a key leads to an index
whose record has that key, so no two keys lead to one index. The converse fails, and a record may
have a key that leads nowhere.
-/

namespace Saboteur

/-- Something that is done to the roster. -/
inductive RosterCall where
  | register (r : Registration)
  | setRole (index : UInt64) (role : Role)
  /-- Windows are put in force. -/
  | setWindows (windows : Windows)
  /-- The roles that the windows give at a slot are written into the records. -/
  | updateRoles (slot : Slot)

namespace RosterCall

/-- The indices that are registered, in order. -/
def registeredIndices : List RosterCall → List UInt64
  | [] => []
  | .register r :: rest => r.index :: registeredIndices rest
  | _ :: rest => registeredIndices rest

/-- The key that an index is registered with last. -/
def lastKey? (index : UInt64) : List RosterCall → Option Pubkey
  | [] => none
  | .register r :: rest =>
    (lastKey? index rest).or (if r.index = index then some r.pubkey else none)
  | _ :: rest => lastKey? index rest

theorem isSome_lastKey?_iff {index : UInt64} {calls : List RosterCall} :
    (lastKey? index calls).isSome ↔ index ∈ registeredIndices calls := by
  induction calls with
  | nil => simp [lastKey?, registeredIndices]
  | cons call rest ih =>
    cases call with
    | register r =>
      rw [lastKey?, registeredIndices, List.mem_cons, Option.isSome_or, Bool.or_eq_true, ih,
        or_comm]
      by_cases hr : r.index = index
      · simp [hr]
      · simp [hr, Ne.symm hr]
    | setRole | setWindows | updateRoles => exact ih

end RosterCall

namespace ValidatorStore

open RosterCall

variable {s : ValidatorStore}

/-- The store after something was done to the roster. -/
def call (s : ValidatorStore) : RosterCall → ValidatorStore
  | .register r => s.register r.index r.pubkey r.role
  | .setRole index role => s.setRole index role
  | .setWindows windows => s.setWindows windows
  | .updateRoles slot => s.updateRoles slot

/-- The store after much was done to the roster. -/
def callInTurn (s : ValidatorStore) (calls : List RosterCall) : ValidatorStore :=
  calls.foldl call s

/-! ## The keys of the records -/

theorem keyOf?_setRole (s : ValidatorStore) (i j : UInt64) (role : Role) :
    (s.setRole i role).keyOf? j = s.keyOf? j := by
  rw [keyOf?, keyOf?, byIndex?, byIndex?, setRole]
  split
  case h_2 => rfl
  case h_1 r hr =>
    rw [Table.get?_set]
    split
    case isTrue hij =>
      rw [← hij, hr]
      rfl
    case isFalse => rfl

theorem keyOf?_updateRoles (s : ValidatorStore) (slot : Slot) (i : UInt64) :
    (s.updateRoles slot).keyOf? i = s.keyOf? i := by
  rw [keyOf?, keyOf?, byIndex?, byIndex?, get?_updateRoles, Option.map_map]
  rfl

/-- **An index has the key that it was registered with last.** -/
theorem keyOf?_callInTurn (s : ValidatorStore) (calls : List RosterCall) (i : UInt64) :
    (s.callInTurn calls).keyOf? i = (lastKey? i calls).or (s.keyOf? i) := by
  induction calls generalizing s with
  | nil => rfl
  | cons call rest ih =>
    refine (ih (s.call call)).trans ?_
    cases call with
    | register r =>
      rw [ValidatorStore.call, keyOf?_register, lastKey?, Option.or_assoc]
      split <;> rfl
    | setRole index role => exact congrArg _ (keyOf?_setRole s index i role)
    | setWindows windows => rfl
    | updateRoles slot => exact congrArg _ (keyOf?_updateRoles s slot i)

/-! ## Consistency -/

/-- The two tables fit together. -/
structure Consistent (s : ValidatorStore) : Prop where
  keyed : s.Keyed
  distinct : s.records.Distinct
  /-- A key leads to an index that has it. -/
  held : ∀ p i, s.indexOf? p = some i → s.keyOf? i = some p

theorem consistent_empty : empty.Consistent where
  keyed := nofun
  distinct := Table.distinct_empty
  held := nofun

/-- **A registration keeps the tables consistent.** The key that is registered leads to its index.
Any other key that still leads somewhere is not the one that the index gave up. -/
theorem Consistent.register (h : s.Consistent) (i : UInt64) (p : Pubkey) (role : Option Role) :
    (s.register i p role).Consistent where
  keyed := keyed_register h.keyed i p role
  distinct := h.distinct.set _ _
  held := by
    intro q j hj
    rw [indexOf?_register] at hj
    rw [keyOf?_register]
    split at hj
    case isTrue hpq =>
      rw [if_pos (Option.some.inj hj), hpq]
    case isFalse =>
      split at hj
      case isTrue => cases hj
      case isFalse hother =>
        have hq : s.keyOf? j = some q := h.held q j hj
        have hij : i ≠ j := by
          rintro rfl
          exact hother hq
        rw [if_neg hij, hq]

theorem Consistent.setRole (h : s.Consistent) (i : UInt64) (role : Role) :
    (s.setRole i role).Consistent where
  keyed := keyed_setRole h.keyed i role
  distinct := by
    rw [ValidatorStore.setRole]
    split
    · exact h.distinct.set _ _
    · exact h.distinct
  held := by
    intro p j hj
    have hindices : (s.setRole i role).indices = s.indices := by
      rw [ValidatorStore.setRole]
      split <;> rfl
    rw [indexOf?, hindices] at hj
    rw [keyOf?_setRole]
    exact h.held p j hj

theorem Consistent.setWindows (h : s.Consistent) (windows : Windows) :
    (s.setWindows windows).Consistent := ⟨h.keyed, h.distinct, h.held⟩

theorem Consistent.updateRoles (h : s.Consistent) (slot : Slot) :
    (s.updateRoles slot).Consistent where
  keyed := keyed_updateRoles h.keyed slot
  distinct := h.distinct.mapValues _
  held := by
    intro p i hi
    rw [keyOf?_updateRoles]
    exact h.held p i hi

theorem Consistent.call (h : s.Consistent) (c : RosterCall) : (s.call c).Consistent := by
  cases c with
  | register r => exact h.register r.index r.pubkey r.role
  | setRole index role => exact h.setRole index role
  | setWindows windows => exact h.setWindows windows
  | updateRoles slot => exact h.updateRoles slot

theorem Consistent.callInTurn (h : s.Consistent) (calls : List RosterCall) :
    (s.callInTurn calls).Consistent := by
  induction calls generalizing s with
  | nil => exact h
  | cons c rest ih => exact ih (h.call c)

/-! ## Looking up -/

/-- A validator that is found under a key has the key, and is the one of its index. -/
theorem Consistent.byPubkey? (h : s.Consistent) {p : Pubkey} {r : ValidatorRecord}
    (hr : s.byPubkey? p = some r) : r.pubkey = p ∧ s.byIndex? r.index = some r := by
  obtain ⟨i, hi, hrecord⟩ := Option.bind_eq_some_iff.1 hr
  have hindex : r.index = i := h.keyed i r hrecord
  have hkey : s.keyOf? i = some p := h.held p i hi
  rw [keyOf?, hrecord] at hkey
  exact ⟨Option.some.inj hkey, hindex ▸ hrecord⟩

theorem Consistent.indexOf?_inj (h : s.Consistent) {p q : Pubkey} {i : UInt64}
    (hp : s.indexOf? p = some i) (hq : s.indexOf? q = some i) : p = q :=
  Option.some.inj ((h.held p i hp).symm.trans (h.held q i hq))

/-- **There are as many validators as indices that have a key.** -/
theorem Consistent.size_eq (h : s.Consistent) {indices : List UInt64}
    (hkeys : ∀ i, (s.keyOf? i).isSome ↔ i ∈ indices) : s.size = indices.dedup.length := by
  have hmem : ∀ i, i ∈ s.records.keys ↔ i ∈ indices.dedup := by
    intro i
    rw [Table.mem_keys_iff, List.mem_dedup, ← hkeys, keyOf?, Option.isSome_map, byIndex?]
  have hperm := (List.perm_ext_iff_of_nodup h.distinct indices.nodup_dedup).2 hmem
  rw [size, Table.size, ← hperm.length_eq, Table.keys, List.length_map]

/-- **Looking validators up by their keys is sound.** After whatever was done to the roster a
validator that is found under a key has that key and is the one of its index, a key leads only to an
index that was registered with it last, no two keys lead to one index, and there are as many
validators as different indices that were registered. A key that is registered next leads to its
index. -/
theorem lookups_callInTurn (calls : List RosterCall) :
    let s := empty.callInTurn calls
    (∀ p r, s.byPubkey? p = some r → r.pubkey = p ∧ s.byIndex? r.index = some r) ∧
      (∀ p i, s.indexOf? p = some i → lastKey? i calls = some p ∧ s.keyOf? i = some p) ∧
      (∀ p q i, s.indexOf? p = some i → s.indexOf? q = some i → p = q) ∧
      s.size = (registeredIndices calls).dedup.length ∧
      ∀ r, (s.call (.register r)).indexOf? r.pubkey = some r.index := by
  intro s
  have h : s.Consistent := consistent_empty.callInTurn calls
  have hkey : ∀ i, s.keyOf? i = lastKey? i calls := by
    intro i
    rw [keyOf?_callInTurn]
    exact Option.or_none
  refine ⟨fun p r => h.byPubkey?, fun p i hi => ?_, fun p q i => h.indexOf?_inj, h.size_eq ?_,
    fun r => ?_⟩
  · exact ⟨(hkey i).symm.trans (h.held p i hi), h.held p i hi⟩
  · intro i
    rw [hkey, isSome_lastKey?_iff]
  · rw [call, indexOf?_register, if_pos rfl]

end ValidatorStore

end Saboteur
