import Mathlib.Data.List.Nodup
import Mathlib.Data.List.Perm.Basic
import Saboteur.Proofs.Pool.Interleaving

/-!
# Every attestation in one place

However additions and drains overlap, an attestation that was added is in the pool, in the result of
one drain that covers its slot, or among what one drain that does not cover its slot has dropped. It
is in no two of these places, nor twice in one.

The additions are counted over all places at once: an operation moves some of them from one place to
another, and what lies where is told apart by the slot.
-/

namespace Saboteur.Pool

/-! ## What a step preserves -/

namespace Drain

/-- The additions that a drain took out. -/
def items (d : Drain) : List Item := d.taken ++ d.dropped

/-- A drain returns what it took out of the slots that it covers, and dropped the rest. -/
structure Sound (d : Drain) : Prop where
  result : d.result = d.taken.map Item.attestation
  taken : ∀ item ∈ d.taken, d.Covers item.slot
  dropped : ∀ item ∈ d.dropped, ¬ d.Covers item.slot

theorem sound_start (first last : Slot) (todo : List Slot) : (start first last todo).Sound :=
  ⟨rfl, nofun, nofun⟩

theorem sound_take {d : Drain} (h : d.Sound) {slot : Slot} {held : List Attestation}
    {items : List Item} (hheld : held = items.map Item.attestation)
    (hslot : ∀ item ∈ items, item.slot = slot) (rest : List Slot) :
    (d.take slot held items rest).Sound := by
  unfold take
  split
  · rename_i hcovers
    refine ⟨by simp only [List.map_append, h.result, hheld], ?_, h.dropped⟩
    refine List.forall_mem_append.2 ⟨h.taken, fun item hitem => ?_⟩
    have hitemSlot := hslot item hitem
    rw [hitemSlot]
    exact hcovers
  · rename_i hcovers
    refine ⟨h.result, h.taken, List.forall_mem_append.2 ⟨h.dropped, fun item hitem => ?_⟩⟩
    have hitemSlot := hslot item hitem
    rw [hitemSlot]
    exact hcovers

theorem items_take (d : Drain) (slot : Slot) (held : List Attestation) (items : List Item)
    (rest : List Slot) : (d.take slot held items rest).items.Perm (d.items ++ items) := by
  unfold take Drain.items
  split
  · rw [List.append_assoc, List.append_assoc]
    exact List.perm_append_comm.append_left d.taken
  · rw [List.append_assoc]

end Drain

/-- Every addition is accounted for. -/
structure Accounted (s : State) : Prop where
  numbered : s.added.map Item.number = List.range s.added.length
  conserved : (s.held ++ s.drains.flatMap Drain.items).Perm s.added
  distinct : s.store.pool.Distinct
  /-- The pool holds the attestations of the additions that are said to be in it. -/
  pooled : ∀ slot, s.store.pooledAt slot = (s.heldAt slot).map Item.attestation
  sound : ∀ d ∈ s.drains, d.Sound

theorem accounted_initial (store : ValidatorStore) : Accounted (.initial store) where
  numbered := rfl
  conserved := .refl _
  distinct := Table.distinct_empty
  pooled := fun _ => rfl
  sound := nofun

theorem slot_of_mem_heldAt {s : State} {slot : Slot} {item : Item} (h : item ∈ s.heldAt slot) :
    item.slot = slot := of_decide_eq_true (List.mem_filter.1 h).2

theorem perm_heldAt_heldElsewhere (s : State) (slot : Slot) :
    (s.heldAt slot ++ s.heldElsewhere slot).Perm s.held :=
  List.filter_append_perm (fun item : Item => decide (item.slot = slot)) s.held

theorem heldAt_heldElsewhere (s : State) (slot slot' : Slot) :
    (s.heldElsewhere slot).filter (fun item => item.slot = slot') =
      if slot = slot' then [] else s.heldAt slot' := by
  rw [State.heldElsewhere, List.filter_filter]
  split
  · rename_i h
    subst h
    refine List.filter_eq_nil_iff.2 fun item _ => ?_
    simp
  · rename_i h
    refine List.filter_congr fun item _ => ?_
    by_cases hitem : item.slot = slot'
    · simp [hitem, Ne.symm h]
    · simp [hitem]

/-- What is moved from the first of some places to one behind it is still there once. -/
theorem perm_moved {α : Type} {all moved stays before place place' after : List α}
    (hplace : place'.Perm (place ++ moved)) (hsplit : (moved ++ stays).Perm all) :
    (stays ++ (before ++ (place' ++ after))).Perm (all ++ (before ++ (place ++ after))) := by
  have hfront : (place' ++ after).Perm (moved ++ (place ++ after)) := by
    refine (hplace.append_right after).trans ?_
    rw [List.append_assoc]
    exact List.perm_append_comm_assoc place moved after
  have hbefore : (before ++ (place' ++ after)).Perm (moved ++ (before ++ (place ++ after))) :=
    (hfront.append_left before).trans (List.perm_append_comm_assoc before moved _)
  refine (hbefore.append_left stays).trans ?_
  refine (List.perm_append_comm_assoc stays moved _).trans ?_
  rw [← List.append_assoc]
  exact hsplit.append_right _

theorem Accounted.add {s : State} (h : Accounted s) (slot : Slot) (a : Attestation) :
    Accounted { s with
      store := s.store.addToPool slot a
      held := s.held ++ [s.nextItem slot a]
      added := s.added ++ [s.nextItem slot a] } := by
  refine ⟨?_, ?_, h.distinct.alter _ _ _, fun slot' => ?_, h.sound⟩
  · rw [List.map_append, h.numbered, List.length_append, List.length_singleton, List.range_succ]
    rfl
  · have hmoved := h.conserved.append_right [s.nextItem slot a]
    rw [List.append_assoc] at hmoved ⊢
    exact (List.perm_append_comm.append_left s.held).trans hmoved
  · rw [ValidatorStore.pooledAt_addToPool, h.pooled, State.heldAt, State.heldAt,
      List.filter_append, List.map_append]
    congr 1
    by_cases hslot : slot = slot'
    · simp [State.nextItem, hslot]
    · simp [State.nextItem, hslot]

theorem Accounted.begin {s : State} (h : Accounted s) (first last : Slot) (todo : List Slot) :
    Accounted { s with drains := s.drains ++ [.start first last todo] } := by
  refine ⟨h.numbered, ?_, h.distinct, h.pooled, ?_⟩
  · simpa [Drain.items, Drain.start] using h.conserved
  · exact List.forall_mem_append.2 ⟨h.sound, List.forall_mem_singleton.2 (Drain.sound_start _ _ _)⟩

/-- What a drain takes out of a slot leaves the pool and is with the drain from then on. -/
theorem Accounted.take {s : State} (h : Accounted s) {before after : List Drain} {d : Drain}
    (running : s.drains = before ++ d :: after) (slot : Slot) (rest : List Slot) :
    Accounted { s with
      store := s.store.takeSlot slot
      drains := before ++ d.take slot (s.store.pooledAt slot) (s.heldAt slot) rest :: after
      held := s.heldElsewhere slot } := by
  have hsound := h.sound
  have hconserved := h.conserved
  rw [running] at hsound hconserved
  refine ⟨h.numbered, ?_, h.distinct.erase slot, fun slot' => ?_, ?_⟩
  · refine List.Perm.trans ?_ hconserved
    simp only [List.flatMap_append, List.flatMap_cons]
    exact perm_moved (Drain.items_take _ _ _ _ _) (perm_heldAt_heldElsewhere s slot)
  · rw [ValidatorStore.pooledAt_takeSlot, h.pooled]
    change _ = ((s.heldElsewhere slot).filter fun item => item.slot = slot').map Item.attestation
    rw [heldAt_heldElsewhere]
    split <;> rfl
  · obtain ⟨hbefore, hrest⟩ := List.forall_mem_append.1 hsound
    obtain ⟨hd, hafter⟩ := List.forall_mem_cons.1 hrest
    refine List.forall_mem_append.2 ⟨hbefore, List.forall_mem_cons.2 ⟨?_, hafter⟩⟩
    exact Drain.sound_take hd (h.pooled slot) (fun item hitem => slot_of_mem_heldAt hitem) rest

theorem Accounted.elsewhere {s : State} (h : Accounted s) {store : ValidatorStore}
    (same : store.pool = s.store.pool) : Accounted { s with store } := by
  have hpooled (slot : Slot) : store.pooledAt slot = s.store.pooledAt slot :=
    congrArg (fun pool => (pool.get? slot).getD []) same
  refine ⟨h.numbered, h.conserved, ?_, fun slot => (hpooled slot).trans (h.pooled slot), h.sound⟩
  change store.pool.Distinct
  rw [same]
  exact h.distinct

/-- **No operation on the pool loses or doubles anything.** -/
theorem Accounted.step {s t : State} (h : Accounted s) (hst : Step s t) : Accounted t := by
  cases hst with
  | add slot a => exact h.add slot a
  | begin first last snapshot => exact h.begin first last _
  | take before after running todo => exact h.take running _ _
  | elsewhere same => exact h.elsewhere same

theorem Reachable.accounted {s : State} (h : Reachable s) : Accounted s := by
  obtain ⟨store, hs⟩ := h
  induction hs with
  | refl => exact accounted_initial store
  | tail _ hst ih => exact ih.step hst

/-! ## Places -/

/-- Where an addition can be. Drains are counted in the order in which they began. -/
inductive Place where
  | pool
  | result (drain : Nat)
  | discard (drain : Nat)

/-- The additions at a place. -/
def State.at (s : State) : Place → List Item
  | .pool => s.held
  | .result i => (s.drains[i]?.map Drain.taken).getD []
  | .discard i => (s.drains[i]?.map Drain.dropped).getD []

theorem mem_at_result_iff {s : State} {i : Nat} {item : Item} :
    item ∈ s.at (.result i) ↔ ∃ d, s.drains[i]? = some d ∧ item ∈ d.taken := by
  change item ∈ (s.drains[i]?.map Drain.taken).getD [] ↔ _
  cases s.drains[i]? <;> simp

theorem mem_at_discard_iff {s : State} {i : Nat} {item : Item} :
    item ∈ s.at (.discard i) ↔ ∃ d, s.drains[i]? = some d ∧ item ∈ d.dropped := by
  change item ∈ (s.drains[i]?.map Drain.dropped).getD [] ↔ _
  cases s.drains[i]? <;> simp

namespace Accounted

variable {s : State}

theorem nodup_added (h : Accounted s) : s.added.Nodup := by
  refine List.Nodup.of_map Item.number ?_
  rw [h.numbered]
  exact List.nodup_range

theorem nodup_all (h : Accounted s) : (s.held ++ s.drains.flatMap Drain.items).Nodup :=
  h.conserved.nodup_iff.2 h.nodup_added

/-- What is in the pool was taken out by no drain. -/
theorem not_mem_items_of_mem_held (h : Accounted s) {item : Item} (hitem : item ∈ s.held)
    {d : Drain} (hd : d ∈ s.drains) : item ∉ d.items := by
  intro hmem
  exact (List.disjoint_of_nodup_append h.nodup_all) hitem (List.mem_flatMap.2 ⟨d, hd, hmem⟩)

/-- What a drain took out was taken out by no other. -/
theorem eq_of_mem_items (h : Accounted s) {item : Item} {i j : Nat} {d d' : Drain}
    (hd : s.drains[i]? = some d) (hitem : item ∈ d.items) (hd' : s.drains[j]? = some d')
    (hitem' : item ∈ d'.items) : i = j := by
  obtain ⟨-, hdisjoint⟩ := List.nodup_flatMap.1 (List.Nodup.of_append_right h.nodup_all)
  rw [List.pairwise_iff_getElem] at hdisjoint
  obtain ⟨hi, rfl⟩ := List.getElem?_eq_some_iff.1 hd
  obtain ⟨hj, rfl⟩ := List.getElem?_eq_some_iff.1 hd'
  rcases Nat.lt_trichotomy i j with hlt | heq | hgt
  · exact absurd hitem' (hdisjoint i j hi hj hlt hitem)
  · exact heq
  · exact absurd hitem (hdisjoint j i hj hi hgt hitem')

theorem nodup_items (h : Accounted s) {d : Drain} (hd : d ∈ s.drains) : d.items.Nodup :=
  (List.nodup_flatMap.1 (List.Nodup.of_append_right h.nodup_all)).1 d hd

theorem nodup_at (h : Accounted s) (p : Place) : (s.at p).Nodup := by
  cases p with
  | pool => exact List.Nodup.of_append_left h.nodup_all
  | result i =>
    change ((s.drains[i]?.map Drain.taken).getD []).Nodup
    cases hd : s.drains[i]? with
    | none => exact List.nodup_nil
    | some d => exact List.Nodup.of_append_left (h.nodup_items (List.mem_of_getElem? hd))
  | discard i =>
    change ((s.drains[i]?.map Drain.dropped).getD []).Nodup
    cases hd : s.drains[i]? with
    | none => exact List.nodup_nil
    | some d => exact List.Nodup.of_append_right (h.nodup_items (List.mem_of_getElem? hd))

/-- The drains among the places took out what is at them. -/
theorem exists_of_mem_at {p : Place} {item : Item} (h : item ∈ s.at p) :
    p = .pool ∧ item ∈ s.held ∨ ∃ i d, s.drains[i]? = some d ∧ item ∈ d.items ∧
      (p = .result i ∧ item ∈ d.taken ∨ p = .discard i ∧ item ∈ d.dropped) := by
  cases p with
  | pool => exact .inl ⟨rfl, h⟩
  | result i =>
    obtain ⟨d, hd, hitem⟩ := mem_at_result_iff.1 h
    exact .inr ⟨i, d, hd, List.mem_append_left _ hitem, .inl ⟨rfl, hitem⟩⟩
  | discard i =>
    obtain ⟨d, hd, hitem⟩ := mem_at_discard_iff.1 h
    exact .inr ⟨i, d, hd, List.mem_append_right _ hitem, .inr ⟨rfl, hitem⟩⟩

theorem mem_added_iff (h : Accounted s) {item : Item} :
    item ∈ s.added ↔ item ∈ s.held ∨ ∃ d ∈ s.drains, item ∈ d.items := by
  rw [← h.conserved.mem_iff, List.mem_append, List.mem_flatMap]

theorem mem_added_of_mem_at (h : Accounted s) {p : Place} {item : Item} (hitem : item ∈ s.at p) :
    item ∈ s.added := by
  rw [h.mem_added_iff]
  rcases exists_of_mem_at hitem with ⟨-, hheld⟩ | ⟨i, d, hd, hmem, -⟩
  · exact .inl hheld
  · exact .inr ⟨d, List.mem_of_getElem? hd, hmem⟩

theorem exists_mem_at (h : Accounted s) {item : Item} (hitem : item ∈ s.added) :
    ∃ p, item ∈ s.at p := by
  rcases h.mem_added_iff.1 hitem with hheld | ⟨d, hd, hmem⟩
  · exact ⟨.pool, hheld⟩
  · obtain ⟨i, hi⟩ := List.mem_iff_getElem?.1 hd
    rcases List.mem_append.1 hmem with htaken | hdropped
    · exact ⟨.result i, mem_at_result_iff.2 ⟨d, hi, htaken⟩⟩
    · exact ⟨.discard i, mem_at_discard_iff.2 ⟨d, hi, hdropped⟩⟩

/-- No addition is at two places. -/
theorem place_unique (h : Accounted s) {p q : Place} {item : Item} (hp : item ∈ s.at p)
    (hq : item ∈ s.at q) : p = q := by
  rcases exists_of_mem_at hp with ⟨rfl, hheld⟩ | ⟨i, d, hd, hmem, hwhere⟩
  · rcases exists_of_mem_at hq with ⟨rfl, -⟩ | ⟨j, d', hd', hmem', -⟩
    · rfl
    · exact absurd hmem' (h.not_mem_items_of_mem_held hheld (List.mem_of_getElem? hd'))
  · rcases exists_of_mem_at hq with ⟨rfl, hheld⟩ | ⟨j, d', hd', hmem', hwhere'⟩
    · exact absurd hmem (h.not_mem_items_of_mem_held hheld (List.mem_of_getElem? hd))
    · obtain rfl := h.eq_of_mem_items hd hmem hd' hmem'
      obtain rfl := Option.some.inj (hd.symm.trans hd')
      have hsound := h.sound d (List.mem_of_getElem? hd)
      -- one drain cannot both cover the slot and not cover it
      rcases hwhere with ⟨rfl, htaken⟩ | ⟨rfl, hdropped⟩
      · rcases hwhere' with ⟨rfl, -⟩ | ⟨rfl, hdropped⟩
        · rfl
        · exact absurd (hsound.taken item htaken) (hsound.dropped item hdropped)
      · rcases hwhere' with ⟨rfl, htaken⟩ | ⟨rfl, -⟩
        · exact absurd (hsound.taken item htaken) (hsound.dropped item hdropped)
        · rfl

/-- What the pool holds are the attestations of the additions in it. -/
theorem perm_flatten_pool (h : Accounted s) :
    s.store.pool.values.flatten.Perm (s.held.map Item.attestation) :=
  Table.perm_flatten_values h.distinct h.pooled

/-- If nothing is dropped, what was returned and what is in the pool is all that was added. -/
theorem perm_of_covers (h : Accounted s)
    (hcovers : ∀ d ∈ s.drains, ∀ item ∈ s.added, d.Covers item.slot) :
    (s.drains.flatMap Drain.result ++ s.store.pool.values.flatten).Perm
      (s.added.map Item.attestation) := by
  have hresult : ∀ d ∈ s.drains, d.result = d.items.map Item.attestation := by
    intro d hd
    have hsound := h.sound d hd
    have hnone : d.dropped = [] := by
      refine List.eq_nil_iff_forall_not_mem.2 fun item hitem => hsound.dropped item hitem ?_
      exact hcovers d hd item (h.mem_added_iff.2 (.inr ⟨d, hd, List.mem_append_right _ hitem⟩))
    rw [hsound.result, Drain.items, hnone, List.append_nil]
  have hall := h.conserved.map Item.attestation
  rw [List.map_append, List.map_flatMap, ← List.flatMap_congr hresult] at hall
  refine List.perm_append_comm.trans (List.Perm.trans ?_ hall)
  exact h.perm_flatten_pool.append_right _

end Accounted

/-- **At every moment each attestation that was added is in one place: in the pool, in the result of
one drain that covers its slot, or dropped by one drain that does not.** If all drains cover all
slots, what they return is together with the pool what was added. -/
theorem one_place_of_reachable {s : State} (h : Reachable s) :
    (s.added.map Item.number).Nodup ∧
      (∀ item ∈ s.added, ∃! p, item ∈ s.at p) ∧
      (∀ p, (s.at p).Nodup ∧ ∀ item ∈ s.at p, item ∈ s.added) ∧
      (∀ slot, s.store.pooledAt slot = (s.heldAt slot).map Item.attestation) ∧
      (∀ d ∈ s.drains, d.Sound) ∧
      ((∀ d ∈ s.drains, ∀ item ∈ s.added, d.Covers item.slot) →
        (s.drains.flatMap Drain.result ++ s.store.pool.values.flatten).Perm
          (s.added.map Item.attestation)) := by
  have hs := h.accounted
  refine ⟨hs.numbered ▸ List.nodup_range, fun item hitem => ?_,
    fun p => ⟨hs.nodup_at p, fun _ => hs.mem_added_of_mem_at⟩, hs.pooled, hs.sound,
    hs.perm_of_covers⟩
  obtain ⟨p, hp⟩ := hs.exists_mem_at hitem
  exact ⟨p, hp, fun q hq => hs.place_unique hq hp⟩

/-- Two drains find the same slot. The second one empties it, and what is added then goes to the
first one. -/
theorem one_place_of_reachable_race :
    ∃ s : State, Reachable s ∧ s.added.map Item.slot = [⟨5⟩, ⟨5⟩] ∧
      s.drains.map Drain.todo = [[], []] ∧
      s.at (.result 0) = [⟨1, ⟨5⟩, default⟩] ∧ s.at (.result 1) = [⟨0, ⟨5⟩, default⟩] ∧
      (s.drains.flatMap Drain.result ++ s.store.pool.values.flatten).Perm
        (s.added.map Item.attestation) := by
  have hstart : Reachable (.initial ValidatorStore.empty) := ⟨_, .refl⟩
  have hadded := hstart.steps (.single (.add _ ⟨5⟩ default))
  have hfirst := hadded.steps (.single (.begin _ ⟨0⟩ ⟨10⟩ (.refl _)))
  have hsecond := hfirst.steps (.single (.begin _ ⟨0⟩ ⟨10⟩ (.refl _)))
  have hemptied := hsecond.steps (.single (.take _ [_] [] rfl rfl))
  have hrefilled := hemptied.steps (.single (.add _ ⟨5⟩ default))
  have hend := hrefilled.steps (.single (.take _ [] [_] rfl rfl))
  refine ⟨_, hend, rfl, rfl, rfl, rfl, (one_place_of_reachable hend).2.2.2.2.2 ?_⟩
  decide

end Saboteur.Pool
