import Mathlib.Logic.Relation
import Saboteur.Proofs.Tables
import Saboteur.ValidatorStore

/-!
# Additions and drains that overlap

Attestations are added to the pool and drained from it by many threads. An addition is one operation
on the pool. A drain is many: it looks up which slots there are, and takes them out one by one.
Between any two of these operations every other call may go on, so a slot may be gone when its turn
comes, or hold more than before.

A drain that nobody interrupts does what draining does in one go.

Each addition has a number, by which attestations are told apart that are otherwise the same. The
numbers are kept beside the pool: what the pool does is what the store does.
-/

namespace Saboteur

namespace ValidatorStore

/-- What the pool holds for a slot. -/
def pooledAt (s : ValidatorStore) (slot : Slot) : List Attestation := (s.pool.get? slot).getD []

/-- Takes a slot out of the pool. -/
def takeSlot (s : ValidatorStore) (slot : Slot) : ValidatorStore :=
  { s with pool := s.pool.erase slot }

theorem pooledAt_addToPool (s : ValidatorStore) (slot slot' : Slot) (a : Attestation) :
    (s.addToPool slot a).pooledAt slot' = s.pooledAt slot' ++ if slot = slot' then [a] else [] := by
  rw [pooledAt, addToPool, Table.get?_alter]
  split
  · rename_i h
    rw [h]
    rfl
  · rw [List.append_nil]
    rfl

/-- Taking a slot out of the pool leaves the others as they are. -/
theorem pooledAt_takeSlot (s : ValidatorStore) (slot slot' : Slot) :
    (s.takeSlot slot).pooledAt slot' = if slot = slot' then [] else s.pooledAt slot' := by
  rw [pooledAt, takeSlot, Table.get?_erase]
  split <;> rfl

end ValidatorStore

namespace Pool

/-! ## States and steps -/

/-- An attestation that was added. -/
structure Item where
  /-- How many were added before. -/
  number : Nat
  slot : Slot
  attestation : Attestation

/-- A drain that has begun. -/
structure Drain where
  first : Slot
  last : Slot
  /-- The slots that it has still to take out. -/
  todo : List Slot
  /-- What it will return, as far as it has come. -/
  result : List Attestation
  /-- The additions in its result. -/
  taken : List Item
  /-- The additions that it took out and dropped. -/
  dropped : List Item

namespace Drain

/-- Whether a drain returns what it takes out of a slot. -/
def Covers (d : Drain) (slot : Slot) : Prop := d.first ≤ slot ∧ slot ≤ d.last

instance (d : Drain) (slot : Slot) : Decidable (d.Covers slot) :=
  inferInstanceAs (Decidable (_ ∧ _))

/-- A drain of a run of slots that has found these slots in the pool. -/
def start (first last : Slot) (todo : List Slot) : Drain := ⟨first, last, todo, [], [], []⟩

/-- A drain that has taken a slot out, with what it held, and goes on with others. -/
def take (d : Drain) (slot : Slot) (held : List Attestation) (items : List Item)
    (rest : List Slot) : Drain :=
  if d.Covers slot then
    { d with todo := rest, result := d.result ++ held, taken := d.taken ++ items }
  else { d with todo := rest, dropped := d.dropped ++ items }

section

variable (d : Drain) (slot : Slot) (held : List Attestation) (items : List Item) (rest : List Slot)

@[simp] theorem first_take : (d.take slot held items rest).first = d.first := by
  unfold take
  split <;> rfl

@[simp] theorem last_take : (d.take slot held items rest).last = d.last := by
  unfold take
  split <;> rfl

@[simp] theorem todo_take : (d.take slot held items rest).todo = rest := by
  unfold take
  split <;> rfl

/-- A slot that is taken counts only if it is covered. -/
theorem result_take :
    (d.take slot held items rest).result = d.result ++ if d.Covers slot then held else [] := by
  unfold take
  split <;> simp

end

end Drain

/-- A store with the drains that have begun, in their order. -/
structure State where
  store : ValidatorStore
  drains : List Drain
  /-- The additions in the pool. -/
  held : List Item
  /-- All additions, in their order. -/
  added : List Item

namespace State

/-- A store with an empty pool. -/
def initial (store : ValidatorStore) : State := ⟨store.clearPool, [], [], []⟩

/-- The next addition. -/
def nextItem (s : State) (slot : Slot) (a : Attestation) : Item := ⟨s.added.length, slot, a⟩

/-- The additions in the pool at a slot. -/
def heldAt (s : State) (slot : Slot) : List Item := s.held.filter fun item => item.slot = slot

/-- The additions in the pool at other slots. -/
def heldElsewhere (s : State) (slot : Slot) : List Item :=
  s.held.filter fun item => !decide (item.slot = slot)

end State

/-- One operation on the pool, or something that does not concern it. -/
inductive Step : State → State → Prop
  | add (s : State) (slot : Slot) (a : Attestation) :
    Step s { s with
      store := s.store.addToPool slot a
      held := s.held ++ [s.nextItem slot a]
      added := s.added ++ [s.nextItem slot a] }
  /-- The slots come in any order. -/
  | begin (s : State) (first last : Slot) {todo : List Slot}
    (snapshot : todo.Perm s.store.pool.keys) :
    Step s { s with drains := s.drains ++ [.start first last todo] }
  | take (s : State) (before after : List Drain) {d : Drain} {slot : Slot} {rest : List Slot}
    (running : s.drains = before ++ d :: after) (todo : d.todo = slot :: rest) :
    Step s { s with
      store := s.store.takeSlot slot
      drains := before ++ d.take slot (s.store.pooledAt slot) (s.heldAt slot) rest :: after
      held := s.heldElsewhere slot }
  /-- Whatever else happens to the store. -/
  | elsewhere (s : State) {store : ValidatorStore} (same : store.pool = s.store.pool) :
    Step s { s with store }

/-- Any number of steps. -/
abbrev Steps : State → State → Prop := Relation.ReflTransGen Step

/-- The states that a store comes to from an empty pool. -/
def Reachable (s : State) : Prop := ∃ store, Steps (.initial store) s

theorem Reachable.steps {s t : State} (h : Reachable s) (hst : Steps s t) : Reachable t := by
  obtain ⟨store, hs⟩ := h
  exact ⟨store, hs.trans hst⟩

/-! ## Drains that are not interrupted -/

/-- Erasing the key of the first entry leaves the rest. -/
theorem erase_of_distinct {slot : Slot} {held : List Attestation}
    {rest : List (Slot × List Attestation)}
    (h : (⟨(slot, held) :: rest⟩ : Table Slot (List Attestation)).Distinct) :
    (⟨(slot, held) :: rest⟩ : Table Slot (List Attestation)).erase slot = ⟨rest⟩ := by
  obtain ⟨hhead, -⟩ := List.nodup_cons.1 h
  rw [Table.erase, List.filter_cons_of_neg (by simp)]
  congr 1
  refine List.filter_eq_self.2 fun e he => ?_
  have hne : e.1 ≠ slot := fun heq => hhead (List.mem_map.2 ⟨e, he, heq⟩)
  simp [hne]

/-- A drain takes out slot by slot what is in the pool when it goes on alone. -/
theorem exists_steps_take {entries : List (Slot × List Attestation)} {s : State}
    {before : List Drain} {d : Drain} (hpool : s.store.pool = ⟨entries⟩)
    (hdistinct : s.store.pool.Distinct) (hdrains : s.drains = before ++ [d])
    (htodo : d.todo = entries.map Prod.fst) :
    ∃ t d', Steps s t ∧ t.store = s.store.clearPool ∧ t.drains = before ++ [d'] ∧ d'.todo = [] ∧
      d'.result = d.result ++
        (entries.filter fun e => d.first ≤ e.1 && e.1 ≤ d.last).flatMap Prod.snd := by
  induction entries generalizing s d with
  | nil =>
    have hclear : s.store.clearPool = s.store := by
      have hempty : Table.empty = s.store.pool := hpool.symm
      rw [ValidatorStore.clearPool, hempty]
    exact ⟨s, d, .refl, hclear.symm, hdrains, htodo, by simp⟩
  | cons e rest ih =>
    obtain ⟨slot, held⟩ := e
    have hstep := Step.take s before [] hdrains htodo
    rw [hpool] at hdistinct
    have hrest : (s.store.takeSlot slot).pool = ⟨rest⟩ := by
      rw [ValidatorStore.takeSlot, hpool, erase_of_distinct hdistinct]
    have hheld : s.store.pooledAt slot = held := by
      rw [ValidatorStore.pooledAt, hpool, Table.get?, Table.find?, if_pos rfl, Option.getD_some]
    have hdistinct' : (s.store.takeSlot slot).pool.Distinct := by
      rw [hrest]
      exact (List.nodup_cons.1 hdistinct).2
    obtain ⟨t, d', hst, hstore, hdrains', htodo', hresult⟩ := ih (s := { s with
      store := s.store.takeSlot slot
      drains := before ++ [d.take slot (s.store.pooledAt slot) (s.heldAt slot) (rest.map Prod.fst)]
      held := s.heldElsewhere slot }) hrest hdistinct' rfl (Drain.todo_take ..)
    refine ⟨t, d', .head hstep hst, hstore, hdrains', htodo', ?_⟩
    have hcovered : (decide (d.first ≤ slot) && decide (slot ≤ d.last)) = decide (d.Covers slot) :=
      (Bool.decide_and _ _).symm
    rw [hresult, Drain.result_take, hheld, Drain.first_take, Drain.last_take]
    simp only [List.filter_cons, hcovered, decide_eq_true_eq]
    split
    · rw [List.flatMap_cons, List.append_assoc]
    · rw [List.append_nil]

/-- **Without interruption the steps of a drain are a drain.** -/
theorem exists_steps_drainPool {s : State} (hdistinct : s.store.pool.Distinct) (first last : Slot) :
    ∃ t d, Steps s t ∧ t.store = (s.store.drainPool first last).2 ∧ t.drains = s.drains ++ [d] ∧
      d.todo = [] ∧ d.result = (s.store.drainPool first last).1 := by
  have hbegin : Step s { s with drains := s.drains ++ [.start first last s.store.pool.keys] } :=
    .begin s first last (.refl _)
  obtain ⟨t, d, hst, hstore, hdrains, htodo, hresult⟩ :=
    exists_steps_take (s := { s with drains := s.drains ++ [.start first last s.store.pool.keys] })
      rfl hdistinct rfl rfl
  exact ⟨t, d, .head hbegin hst, hstore, hdrains, htodo, hresult⟩

end Pool

end Saboteur
