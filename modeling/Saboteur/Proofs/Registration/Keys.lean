import Saboteur.Proofs.Roles.Store

/-!
# Looking validators up by their keys

A key leads to the index that registered it last. An index that is registered again with another key
gives its old one up, and the old key is then looked up no more, whoever holds it by that time. So
where a key went from one validator to another, a later change of the first one's key takes the
second one's away as well.

That is the only way to lose a key: the validator that registered it last is found under it exactly
if none of those that held it just before is registered again.
-/

namespace Saboteur

/-- What a validator is registered with. -/
structure Registration where
  index : UInt64
  pubkey : Pubkey
  role : Option Role

namespace ValidatorStore

variable (s : ValidatorStore)

/-- The store after some registrations. -/
def registerInTurn (calls : List Registration) : ValidatorStore :=
  calls.foldl (fun s c => s.register c.index c.pubkey c.role) s

/-- The present key of a validator. -/
def keyOf? (index : UInt64) : Option Pubkey := (s.byIndex? index).map (·.pubkey)

/-! ## One registration -/

theorem keyOf?_register (i j : UInt64) (p : Pubkey) (role : Option Role) :
    (s.register i p role).keyOf? j = if i = j then some p else s.keyOf? j := by
  rw [keyOf?, byIndex?, get?_register]
  split <;> rfl

/-- **A registration leads its key to its index, and takes away the key that the index had.** -/
theorem indexOf?_register (i : UInt64) (p q : Pubkey) (role : Option Role) :
    (s.register i p role).indexOf? q =
      if p = q then some i else if s.keyOf? i = some q then none else s.indexOf? q := by
  rw [indexOf?, register, Table.get?_set]
  by_cases hpq : p = q
  · rw [if_pos hpq, if_pos hpq]
  · rw [if_neg hpq, if_neg hpq, keyOf?, byIndex?]
    cases s.records.get? i with
    | none => rfl
    | some r =>
      simp only [Option.map_some, Option.some.injEq]
      by_cases hr : r.pubkey = p
      · rw [if_pos hr, if_neg (hr ▸ hpq)]
        rfl
      · rw [if_neg hr, Table.get?_erase]
        rfl

/-! ## Many registrations -/

theorem registerInTurn_append (calls calls' : List Registration) :
    s.registerInTurn (calls ++ calls') = (s.registerInTurn calls).registerInTurn calls' :=
  List.foldl_append

theorem byIndex?_registerInTurn {i : UInt64} {calls : List Registration}
    (h : ∀ c ∈ calls, c.index ≠ i) : (s.registerInTurn calls).byIndex? i = s.byIndex? i := by
  induction calls generalizing s with
  | nil => rfl
  | cons c rest ih =>
    obtain ⟨hc, hrest⟩ := List.forall_mem_cons.1 h
    refine (ih (s.register c.index c.pubkey c.role) hrest).trans ?_
    rw [byIndex?, get?_register, if_neg hc, byIndex?]

/-- **A key that is not registered again leads where it led, unless a validator that holds it is.** -/
theorem indexOf?_registerInTurn {p : Pubkey} {calls : List Registration}
    (h : ∀ c ∈ calls, c.pubkey ≠ p) :
    (s.registerInTurn calls).indexOf? p =
      if ∃ c ∈ calls, s.keyOf? c.index = some p then none else s.indexOf? p := by
  induction calls generalizing s with
  | nil => simp [registerInTurn]
  | cons c rest ih =>
    obtain ⟨hc, hrest⟩ := List.forall_mem_cons.1 h
    refine (ih (s.register c.index c.pubkey c.role) hrest).trans ?_
    rw [indexOf?_register, if_neg hc]
    by_cases hheld : s.keyOf? c.index = some p
    · simp [hheld]
    · -- a validator with another key than `c` has now still holds what it held
      have hkey : ∀ d : Registration,
          (s.register c.index c.pubkey c.role).keyOf? d.index = some p ↔
            s.keyOf? d.index = some p := by
        intro d
        rw [keyOf?_register]
        split
        case isTrue hd =>
          rw [← hd]
          exact iff_of_false (fun he => hc (Option.some.inj he)) hheld
        case isFalse => exact Iff.rfl
      simp only [hkey, List.mem_cons, exists_eq_or_imp, hheld, false_or, if_false]

/-- **The validator that registered a key last, and has not changed it since, is found under the key
exactly if no validator that held the key before is registered again.** -/
theorem byPubkey?_registerInTurn_iff (before after : List Registration) (i : UInt64) (p : Pubkey)
    (role : Option Role) (hi : ∀ c ∈ after, c.index ≠ i) (hp : ∀ c ∈ after, c.pubkey ≠ p) :
    let t := s.registerInTurn (before ++ ⟨i, p, role⟩ :: after)
    ∃ r, t.byIndex? i = some r ∧ r.index = i ∧ r.pubkey = p ∧
      (t.indexOf? p = some i ∧ t.byPubkey? p = some r ↔
        ∀ c ∈ after, (s.registerInTurn before).keyOf? c.index ≠ some p) := by
  intro t
  let held := s.registerInTurn before
  have ht : t = (held.register i p role).registerInTurn after := registerInTurn_append ..
  have hrecord : t.byIndex? i = some (held.registered i p role) := by
    rw [ht, byIndex?_registerInTurn _ hi, byIndex?, get?_register, if_pos rfl]
  have hindex : t.indexOf? p =
      if ∃ c ∈ after, held.keyOf? c.index = some p then none else some i := by
    have hsame : (∃ c ∈ after, (held.register i p role).keyOf? c.index = some p) ↔
        ∃ c ∈ after, held.keyOf? c.index = some p := by
      refine exists_congr fun c => and_congr_right fun hc => ?_
      rw [keyOf?_register, if_neg (hi c hc).symm]
    rw [ht, indexOf?_registerInTurn _ hp, indexOf?_register, if_pos rfl]
    exact ite_cond_congr (propext hsame)
  refine ⟨_, hrecord, rfl, rfl, ?_⟩
  by_cases hlost : ∃ c ∈ after, held.keyOf? c.index = some p
  · obtain ⟨c, hc, hheld⟩ := hlost
    refine iff_of_false (fun h => ?_) fun h => h c hc hheld
    rw [hindex, if_pos ⟨c, hc, hheld⟩] at h
    cases h.1
  · rw [if_neg hlost] at hindex
    refine iff_of_true ⟨hindex, ?_⟩ fun c hc hheld => hlost ⟨c, hc, hheld⟩
    rw [byPubkey?, hindex]
    exact hrecord

/-- Two validators with a key each. -/
def twoKeys : List Registration := [⟨1, ⟨"0xaa"⟩, none⟩, ⟨2, ⟨"0xbb"⟩, none⟩]

/-- The first of them gets another key. -/
def firstChanged : List Registration := [⟨1, ⟨"0xcc"⟩, none⟩]

theorem byPubkey?_registerInTurn_iff_twoKeys :
    (∀ c ∈ firstChanged, c.index ≠ 3) ∧ (∀ c ∈ firstChanged, c.pubkey ≠ ⟨"0xbb"⟩) ∧
      let t := empty.registerInTurn (twoKeys ++ ⟨3, ⟨"0xbb"⟩, none⟩ :: firstChanged)
      ∃ r, t.byIndex? 3 = some r ∧ r.index = 3 ∧ r.pubkey = ⟨"0xbb"⟩ ∧
        (t.indexOf? ⟨"0xbb"⟩ = some 3 ∧ t.byPubkey? ⟨"0xbb"⟩ = some r ↔
          ∀ c ∈ firstChanged, (empty.registerInTurn twoKeys).keyOf? c.index ≠ some ⟨"0xbb"⟩) :=
  ⟨by decide, by decide, byPubkey?_registerInTurn_iff empty twoKeys firstChanged 3 ⟨"0xbb"⟩ none
    (by decide) (by decide)⟩

/-- **A validator with a key of its own is not found under it.** -/
theorem key_lost_by_change_of_another :
    let t := empty.registerInTurn
      [⟨1, ⟨"0xaa"⟩, none⟩, ⟨2, ⟨"0xaa"⟩, none⟩, ⟨1, ⟨"0xbb"⟩, none⟩]
    t.byIndex? 2 = some ⟨2, ⟨"0xaa"⟩, .normal⟩ ∧ t.indexOf? ⟨"0xaa"⟩ = none ∧
      t.byPubkey? ⟨"0xaa"⟩ = none := by
  decide

end ValidatorStore

end Saboteur
