import Saboteur.Block
import Saboteur.Pubkey
import Saboteur.Role
import Saboteur.SlotClock

/-!
# The validator store

The validators that are known, and what they have signed. A record holds a role of its own; where
windows are declared for a validator they decide instead, and role updates write what they say into
the records. Signed attestations and blocks are kept by slot and key. The pool collects attestations
for a later block and is emptied as a whole.

A hook call sees the store in a context, whose windows are those of the rule set that the call began
with. A strategy that is installed meanwhile does not touch them.
-/

namespace Saboteur

/-- A known validator. -/
structure ValidatorRecord where
  index : UInt64
  pubkey : Pubkey
  role : Role
  deriving DecidableEq

/-- The known validators and what they have signed. -/
structure ValidatorStore where
  records : Table UInt64 ValidatorRecord
  /-- The index of each key. -/
  indices : Table Pubkey UInt64
  /-- The windows in force. -/
  windows : Windows
  attestations : Table Slot (Table Pubkey Attestation)
  blocks : Table Slot (Table Pubkey SignedBlock)
  pool : Table Slot (List Attestation)

namespace ValidatorStore

/-- The store that knows nothing. -/
def empty : ValidatorStore :=
  ⟨Table.empty, Table.empty, Table.empty, Table.empty, Table.empty, Table.empty⟩

/-! ## Registration -/

/-- The record of an index after a registration. A new validator is normal unless a role is given,
and a known one keeps its role. -/
def registered (s : ValidatorStore) (index : UInt64) (pubkey : Pubkey) (role : Option Role) :
    ValidatorRecord :=
  let old := ((s.records.get? index).map (·.role)).getD .normal
  { index, pubkey, role := role.getD old }

/-- Adds a validator, or gives a known one its present key. A key that is given up is looked up no
more. -/
def register (s : ValidatorStore) (index : UInt64) (pubkey : Pubkey) (role : Option Role) :
    ValidatorStore :=
  let kept := match s.records.get? index with
    | some r => if r.pubkey = pubkey then s.indices else s.indices.erase r.pubkey
    | none => s.indices
  { s with
    records := s.records.set index (s.registered index pubkey role)
    indices := kept.set pubkey index }

/-- The record of an index. -/
def byIndex? (s : ValidatorStore) (index : UInt64) : Option ValidatorRecord := s.records.get? index

/-- The index of a key. -/
def indexOf? (s : ValidatorStore) (pubkey : Pubkey) : Option UInt64 := s.indices.get? pubkey

/-- The record of a key. -/
def byPubkey? (s : ValidatorStore) (pubkey : Pubkey) : Option ValidatorRecord :=
  (s.indexOf? pubkey).bind s.byIndex?

/-- How many validators are known. -/
def size (s : ValidatorStore) : Nat := s.records.size

/-! ## Roles -/

/-- Gives a known validator a role. An unknown index changes nothing. -/
def setRole (s : ValidatorStore) (index : UInt64) (role : Role) : ValidatorStore :=
  match s.records.get? index with
  | some r => { s with records := s.records.set index { r with role } }
  | none => s

/-- Puts windows in force. -/
def setWindows (s : ValidatorStore) (windows : Windows) : ValidatorStore := { s with windows }

/-- The role of a validator at a slot under the given windows. Without windows of its own it has the
role of its record, and an unknown validator is normal. -/
def roleWithin (s : ValidatorStore) (windows : Windows) (slot : Slot) (index : UInt64) : Role :=
  match windows.role? slot index with
  | some role => role
  | none => ((s.records.get? index).map (·.role)).getD .normal

/-- The role of a validator at a slot under the windows in force. -/
def roleOf (s : ValidatorStore) (slot : Slot) (index : UInt64) : Role :=
  s.roleWithin s.windows slot index

/-- The role of the validator with a key, if the key is known. -/
def roleOfPubkey? (s : ValidatorStore) (slot : Slot) (pubkey : Pubkey) : Option Role :=
  (s.indexOf? pubkey).map (s.roleOf slot)

/-- A record with the role that windows give it. -/
def updatedRecord (windows : Windows) (slot : Slot) (r : ValidatorRecord) : ValidatorRecord :=
  { r with role := (windows.role? slot r.index).getD r.role }

/-- Writes the roles that the windows in force give at a slot into the records. -/
def updateRoles (s : ValidatorStore) (slot : Slot) : ValidatorStore :=
  { s with records := s.records.mapValues (updatedRecord s.windows slot) }

/-- How many records a role update changes. -/
def changedByUpdate (s : ValidatorStore) (slot : Slot) : Nat :=
  s.records.values.countP fun r => decide (updatedRecord s.windows slot r ≠ r)

/-- Brings the record of one validator up to date, and counts it if that changes its role. -/
def updateRole (windows : Windows) (slot : Slot) (done : Nat × ValidatorStore) (index : UInt64) :
    Nat × ValidatorStore :=
  match done.2.byIndex? index with
  | some r =>
    let role := done.2.roleWithin windows slot index
    if r.role = role then done else (done.1 + 1, done.2.setRole index role)
  | none => done

/-- Brings the records of validators up to date one after the other. -/
def updateInTurn (s : ValidatorStore) (slot : Slot) (order : List UInt64) : Nat × ValidatorStore :=
  order.foldl (updateRole s.windows slot) (0, s)

/-! ## Signed attestations and blocks -/

/-- Keeps an attestation under its slot and signer. -/
def recordAttestation (s : ValidatorStore) (slot : Slot) (pubkey : Pubkey) (a : Attestation) :
    ValidatorStore :=
  { s with attestations := s.attestations.alter slot Table.empty (·.set pubkey a) }

/-- Keeps a block under its slot and signer. -/
def recordBlock (s : ValidatorStore) (slot : Slot) (pubkey : Pubkey) (b : SignedBlock) :
    ValidatorStore :=
  { s with blocks := s.blocks.alter slot Table.empty (·.set pubkey b) }

/-- The attestations that are kept at a slot. -/
def attestationsAt (s : ValidatorStore) (slot : Slot) : Table Pubkey Attestation :=
  (s.attestations.get? slot).getD Table.empty

/-- The blocks that are kept at a slot. -/
def blocksAt (s : ValidatorStore) (slot : Slot) : Table Pubkey SignedBlock :=
  (s.blocks.get? slot).getD Table.empty

/-! ## The pool -/

/-- Puts an attestation at the end of the pool of a slot. -/
def addToPool (s : ValidatorStore) (slot : Slot) (a : Attestation) : ValidatorStore :=
  { s with pool := s.pool.alter slot [] (· ++ [a]) }

/-- How many attestations the pool holds. -/
def poolSize (s : ValidatorStore) : Nat := s.pool.values.flatten.length

/-- The pooled attestations of a run of slots. -/
def pooled (s : ValidatorStore) (first last : Slot) : List Attestation :=
  (s.pool.entries.filter fun e => first ≤ e.1 && e.1 ≤ last).flatMap Prod.snd

/-- Empties the pool. -/
def clearPool (s : ValidatorStore) : ValidatorStore := { s with pool := Table.empty }

/-- Empties the pool and hands out what it held for a run of slots. The rest is dropped. -/
def drainPool (s : ValidatorStore) (first last : Slot) : List Attestation × ValidatorStore :=
  (s.pooled first last, s.clearPool)

/-! ## Pruning -/

/-- Drops attestations, blocks and pooled attestations of slots before the given one. -/
def prune (s : ValidatorStore) (oldest : Slot) : ValidatorStore :=
  { s with
    attestations := s.attestations.filter fun slot _ => oldest ≤ slot
    blocks := s.blocks.filter fun slot _ => oldest ≤ slot
    pool := s.pool.filter fun slot _ => oldest ≤ slot }

end ValidatorStore

/-! ## In a hook call -/

/-- The surroundings of a hook call. -/
structure Context where
  spec : ChainSpec
  clock : SlotClock
  windows : Windows

namespace Context

/-- The role of a validator in a context. -/
def roleOf (ctx : Context) (store : ValidatorStore) (slot : Slot) (index : UInt64) : Role :=
  store.roleWithin ctx.windows slot index

/-- The role of the validator with a key, if the key is known. -/
def roleOfPubkey? (ctx : Context) (store : ValidatorStore) (slot : Slot) (pubkey : Pubkey) :
    Option Role := (store.indexOf? pubkey).map (ctx.roleOf store slot)

end Context

/-! ## Documents -/

instance : WriteJson ValidatorRecord where
  write r := .obj [("index", .word r.index), ("pubkey", write r.pubkey), ("role", write r.role)]

instance : ReadJson ValidatorRecord where
  read j := do
    let f ← Json.fields ["index", "pubkey", "role"] j
    let index ← f.required "index" Json.readWord
    let pubkey ← f.required "pubkey" read
    let role ← f.required "role" read
    return { index, pubkey, role }

end Saboteur
