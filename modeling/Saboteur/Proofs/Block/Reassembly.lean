import Saboteur.Action.Execution
import Saboteur.Proofs.Attestation.Coverage
import Saboteur.Proofs.Epochs

/-!
# Blocks put together from the pool

When a block is packed, its own attestations and those of the pool compete for the room in it. The
pool is emptied on the way, so whatever does not get into the block is gone. The statements here say
what may get in, that only the list of attestations changes, that the new list always has room in the
format, and that signers are lost only where the list has to be cut.
-/

namespace Saboteur

/-! ## The pool -/

/-- The pooled attestations, each with the slot that it was pooled at. -/
def ValidatorStore.staged (s : ValidatorStore) : List (Slot × Attestation) :=
  s.pool.entries.flatMap fun e => e.2.map fun a => (e.1, a)

/-- What is handed out for a run of slots is what was pooled at these slots, in the order of the
pool. -/
theorem ValidatorStore.pooled_eq (s : ValidatorStore) (first last : Slot) :
    s.pooled first last =
      (s.staged.filter fun e => first ≤ e.1 ∧ e.1 ≤ last).map Prod.snd := by
  unfold pooled staged
  induction s.pool.entries with
  | nil => rfl
  | cons e rest ih =>
    rw [List.flatMap_cons, List.filter_append, List.map_append, ← ih, List.filter_map,
      List.map_map]
    by_cases h : first ≤ e.1 ∧ e.1 ≤ last
    · simp [h, Function.comp_def]
    · simp [h, Function.comp_def]

namespace ChainSpec

/-- A slot lies between the first slot of the epoch before that of a block and the last slot of the
block's own epoch. -/
def Fits (spec : ChainSpec) (block s : Slot) : Prop :=
  spec.epochStart ((spec.epochOf block).subSat 1) ≤ s ∧ s ≤ spec.epochEnd (spec.epochOf block)

instance (spec : ChainSpec) (block s : Slot) : Decidable (spec.Fits block s) :=
  inferInstanceAs (Decidable (_ ∧ _))

/-- These are the slots of the two epochs, but for the last slot that a word can name. -/
theorem fits_iff {spec : ChainSpec} (hk : spec.slotsPerEpoch ≠ 0) {block s : Slot}
    (hs : s ≠ Slot.last) :
    spec.Fits block s ↔
      spec.epochOf s = spec.epochOf block ∨ (spec.epochOf s).next = spec.epochOf block := by
  have hstart : spec.epochStart ((spec.epochOf block).subSat 1) ≤ s ↔
      ((spec.epochOf block).subSat 1).toNat ≤ (spec.epochOf s).toNat :=
    Epoch.startSlot_le_iff hk hs
  have hend : s ≤ spec.epochEnd (spec.epochOf block) ↔
      (spec.epochOf s).toNat ≤ (spec.epochOf block).toNat := Epoch.le_endSlot_iff hk hs
  have heq : ∀ e f : Epoch, e = f ↔ e.toNat = f.toNat :=
    fun e f => ⟨congrArg Epoch.toNat, Epoch.ext_toNat⟩
  have hmax : ∀ e : Epoch, e.toNat ≤ Word.max.toNat := fun e => Word.toNat_le_max e.val
  have hblock := hmax (spec.epochOf block)
  have hslot := hmax (spec.epochOf s)
  have hone : (1 : UInt64).toNat = 1 := rfl
  rw [Fits, hstart, hend, heq, heq, Epoch.next, Epoch.toNat_subSat, Epoch.toNat_addSat, hone]
  omega

/-- A parameter beyond the room of the format is cut off. -/
theorem maxAttestationsPerBlock_le (spec : ChainSpec) :
    spec.maxAttestationsPerBlock ≤ attestationCapacity := Nat.min_le_right _ _

end ChainSpec

/-! ## Replacing the attestations of a block -/

/-- A block with other attestations. -/
def Block.withAttestations (b : Block) (packed : Capped Attestation attestationCapacity) : Block :=
  { b with body := { b.body with attestations := packed } }

/-- Within the room of the format a packed list is always taken over. -/
theorem Block.exists_repack_eq (b : Block) {max : Nat} (hmax : max ≤ attestationCapacity)
    (extra : List Attestation) :
    ∃ packed, packed.toList = Attestation.pack (b.body.attestations.toList ++ extra) max ∧
      b.repack max extra = b.withAttestations packed := by
  have hroom : (Attestation.pack (b.body.attestations.toList ++ extra) max).length ≤
      attestationCapacity := (List.length_take_le _ _).trans hmax
  refine ⟨⟨_, hroom⟩, rfl, ?_⟩
  simp only [Block.repack, Capped.ofList, dif_pos hroom]
  rfl

namespace Payload

/-- The attestations of the block in a payload. -/
def attestations? : Payload → Option (Capped Attestation attestationCapacity)
  | block b => some b.body.attestations
  | signedBlock b => some b.message.body.attestations
  | _ => none

/-- A payload with other attestations in its block. -/
def withAttestations (packed : Capped Attestation attestationCapacity) : Payload → Payload
  | block b => block (b.withAttestations packed)
  | signedBlock b => signedBlock { b with message := b.message.withAttestations packed }
  | other => other

theorem isBlock_eq (p : Payload) : p.isBlock = p.attestations?.isSome := by
  cases p <;> rfl

/-- The block of a payload takes over what is packed, and nothing else of the payload changes. -/
theorem exists_repack_eq {p : Payload} {own : Capped Attestation attestationCapacity}
    (hown : p.attestations? = some own) {max : Nat} (hmax : max ≤ attestationCapacity)
    (extra : List Attestation) :
    ∃ packed, packed.toList = Attestation.pack (own.toList ++ extra) max ∧
      p.repack max extra = p.withAttestations packed := by
  cases p with
  | block b =>
    cases hown
    obtain ⟨packed, hpacked, hb⟩ := b.exists_repack_eq hmax extra
    exact ⟨packed, hpacked, congrArg block hb⟩
  | signedBlock b =>
    cases hown
    obtain ⟨packed, hpacked, hb⟩ := b.message.exists_repack_eq hmax extra
    refine ⟨packed, hpacked, ?_⟩
    rw [repack, hb]
    rfl
  | _ => cases hown

end Payload

/-! ## Packing the pool into a block -/

namespace Attestation

/-- What may get into a block: its own attestations, and the pooled ones whose slots fit. -/
def candidates (spec : ChainSpec) (store : ValidatorStore) (slot : Slot)
    (own : List Attestation) : List Attestation :=
  own ++ (store.staged.filter fun e => spec.Fits slot e.1).map Prod.snd

/-- A list is what packing makes of the candidates for a block. It stays within the parameter of the
chain and the room of the format. Unless it was cut, the signers of each candidate stay together in
one attestation of the same data. -/
structure PackedFrom (spec : ChainSpec) (xs : List Attestation)
    (packed : Capped Attestation attestationCapacity) : Prop where
  eq_pack : packed.toList = pack xs spec.maxAttestationsPerBlock
  length_le : packed.toList.length ≤ min spec.maxAttestations.toNat attestationCapacity
  covers : (packAll xs).length ≤ spec.maxAttestationsPerBlock →
    ∀ x ∈ xs, ∃ y ∈ packed.toList, treeRoot y.data = treeRoot x.data ∧
      ∀ i, x.aggregationBits.get i = true → y.aggregationBits.get i = true

/-- What is packed has the properties of a packed list. -/
theorem packedFrom_of_eq {spec : ChainSpec} {xs : List Attestation}
    {packed : Capped Attestation attestationCapacity}
    (h : packed.toList = pack xs spec.maxAttestationsPerBlock) : PackedFrom spec xs packed where
  eq_pack := h
  length_le := h ▸ List.length_take_le _ _
  covers := by
    intro hroom x hx
    obtain ⟨y, hy, hroot, hxy⟩ := keepsSigners_packAll xs x hx
    rw [h, pack, List.take_of_length_le hroom]
    exact ⟨y, hy, hroot, signersWithin_iff.1 hxy⟩

end Attestation

namespace Action

section Packing

variable {β : Type} [Backend β] (ctx : Context) (slot : Slot) (pubkey : Pubkey)
  (store : ValidatorStore) (b : β)

/-- With a block, the candidates are packed and the pool is emptied. -/
theorem execute_packPooledAttest_of_attestations? {p : Payload}
    {own : Capped Attestation attestationCapacity} (hown : p.attestations? = some own) :
    ∃ packed, packed.toList =
        Attestation.pack (Attestation.candidates ctx.spec store slot own.toList)
          ctx.spec.maxAttestationsPerBlock ∧
      ((packPooledAttest.execute ctx slot pubkey (some p) store).run b).1 =
        (Outcome.carryOn (some (p.withAttestations packed)), store.clearPool) := by
  have hblock : p.isBlock = true := by rw [p.isBlock_eq, hown]; rfl
  obtain ⟨packed, hpacked, hp⟩ := Payload.exists_repack_eq hown
    ctx.spec.maxAttestationsPerBlock_le
    (store.pooled (firstPooledSlot ctx.spec slot) (lastPooledSlot ctx.spec slot))
  refine ⟨packed, ?_, ?_⟩
  · rw [hpacked, ValidatorStore.pooled_eq]
    rfl
  · simp only [execute, if_pos hblock, ValidatorStore.drainPool]
    rw [hp]
    rfl

/-- Without a block there is nothing to pack, and the pool stays. -/
theorem execute_packPooledAttest_of_not_isBlock {payload : Option Payload}
    (h : ∀ p, payload = some p → p.isBlock = false) :
    ((packPooledAttest.execute ctx slot pubkey payload store).run b).1 =
      (Outcome.carryOn payload, store) := by
  cases payload with
  | none => rfl
  | some p =>
    simp only [execute, h p rfl]
    rfl

end Packing

/-- **Packing the pool into a block changes only the attestations of the block, takes the candidates
and nothing else, stays within the room there is, and empties the pool. Without a block it does
nothing.** -/
theorem packPooledAttest_reassembles {β : Type} [Backend β] (ctx : Context) (slot : Slot)
    (pubkey : Pubkey) (payload : Option Payload) (store : ValidatorStore) (b : β) :
    let after := ((packPooledAttest.execute ctx slot pubkey payload store).run b).1
    (∀ p own, payload = some p → p.attestations? = some own →
      ∃ packed,
        Attestation.PackedFrom ctx.spec
          (Attestation.candidates ctx.spec store slot own.toList) packed ∧
        after = (Outcome.carryOn (some (p.withAttestations packed)),
          { store with pool := Table.empty })) ∧
    ((∀ p, payload = some p → p.isBlock = false) → after = (Outcome.carryOn payload, store)) ∧
    (ctx.spec.slotsPerEpoch ≠ 0 → ∀ s, s ≠ Slot.last →
      (ctx.spec.Fits slot s ↔ ctx.spec.epochOf s = ctx.spec.epochOf slot ∨
        (ctx.spec.epochOf s).next = ctx.spec.epochOf slot)) := by
  intro after
  refine ⟨?_, ?_, fun hk s hs => ChainSpec.fits_iff hk hs⟩
  · rintro p own rfl hown
    obtain ⟨packed, hpacked, hafter⟩ :=
      execute_packPooledAttest_of_attestations? ctx slot pubkey store b hown
    exact ⟨packed, Attestation.packedFrom_of_eq hpacked, hafter⟩
  · intro h
    exact execute_packPooledAttest_of_not_isBlock ctx slot pubkey store b h

/-- A context of the main network without windows. -/
def calm : Context := ⟨ChainSpec.mainnet, ChainSpec.mainnet.clock .zero, Table.empty⟩

/-- A store that has two attestations in its pool for the epoch before slot 64, and two that come too
late for it. -/
def stocked : ValidatorStore :=
  { ValidatorStore.empty with
    pool := ⟨[(⟨40⟩, Attestation.twoVotes), (⟨200⟩, Attestation.twoVotes)]⟩ }

theorem packPooledAttest_reassembles_stocked :
    (∃ packed : Capped Attestation attestationCapacity,
      ((packPooledAttest.execute calm ⟨64⟩ (Rehearsal.pubkey 1) (some (.block .empty)) stocked).run
          (Rehearsal.empty 32)).1 =
        (Outcome.carryOn (some (.block (Block.empty.withAttestations packed))),
          { stocked with pool := Table.empty }) ∧
      ∀ x ∈ Attestation.twoVotes, ∃ y ∈ packed.toList, treeRoot y.data = treeRoot x.data ∧
        ∀ i, x.aggregationBits.get i = true → y.aggregationBits.get i = true) ∧
    ((packPooledAttest.execute calm ⟨64⟩ (Rehearsal.pubkey 1) none stocked).run
        (Rehearsal.empty 32)).1 = (Outcome.carryOn none, stocked) ∧
    ¬ calm.spec.Fits ⟨64⟩ ⟨31⟩ := by
  have hpack := packPooledAttest_reassembles calm ⟨64⟩ (Rehearsal.pubkey 1)
    (some (.block .empty)) stocked (Rehearsal.empty 32)
  have hnone := packPooledAttest_reassembles calm ⟨64⟩ (Rehearsal.pubkey 1) none stocked
    (Rehearsal.empty 32)
  have hxs : Attestation.candidates calm.spec stocked ⟨64⟩ Block.empty.body.attestations.toList =
      Attestation.twoVotes := rfl
  refine ⟨?_, hnone.2.1 (fun p hp => by cases hp), ?_⟩
  · obtain ⟨packed, hpacked, hafter⟩ := hpack.1 _ _ rfl rfl
    refine ⟨packed, hafter, ?_⟩
    have hcovers := hpacked.covers
    rw [hxs] at hcovers
    exact hcovers ((Attestation.assembled_packAll _).length_le.trans (by decide))
  · rw [hpack.2.2 (by decide) ⟨31⟩ (by decide)]
    decide

end Action

end Saboteur
