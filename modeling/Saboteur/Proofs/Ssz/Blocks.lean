import Saboteur.Block
import Saboteur.Proofs.Ssz.BitListCodec
import Saboteur.Proofs.Ssz.OffsetList

/-!
# Votes and blocks on the wire

The containers from checkpoints up to signed blocks are lawful. Each is given by its fields; the
reader is the one of the definition, and that it is the inverse comes down to the fields being lawful
themselves.
-/

namespace Saboteur

open Ssz

/-! ## Votes -/

/-- The fields of a checkpoint. -/
def Checkpoint.container : ContainerOf Checkpoint where
  layout := [some 8, some 32]
  sizes := [maxSize Epoch, maxSize Root]
  fields c := [.of c.epoch, .of c.root]
  read := _
  decode_eq _ := rfl
  read_eq_ok_iff {bs c} h := by
    cases c
    match bs, h with
    | [_, _], _ => simp [field]
  fixedSize_eq n hn := by
    cases hn
    exact ⟨rfl, rfl⟩

instance : LawfulCodec Checkpoint := Checkpoint.container.lawful (by decide)

/-- The fields of the data of a vote. -/
def AttestationData.container : ContainerOf AttestationData where
  layout := [some 8, some 8, some 32, some 40, some 40]
  sizes := [maxSize Slot, maxSize UInt64, maxSize Root, maxSize Checkpoint, maxSize Checkpoint]
  fields d := [.of d.slot, .of d.index, .of d.beaconBlockRoot, .of d.source, .of d.target]
  read := _
  decode_eq _ := rfl
  read_eq_ok_iff {bs d} h := by
    cases d
    match bs, h with
    | [_, _, _, _, _], _ => simp [field]
  fixedSize_eq n hn := by
    cases hn
    exact ⟨rfl, rfl⟩

instance : LawfulCodec AttestationData := AttestationData.container.lawful (by decide)

/-- The fields of an attestation. -/
def Attestation.container : ContainerOf Attestation where
  layout := [none, some 128, some 96]
  sizes := [maxSize (BitList committeeCapacity), maxSize AttestationData, maxSize Signature]
  fields a := [.of a.aggregationBits, .of a.data, .of a.signature]
  read := _
  decode_eq _ := rfl
  read_eq_ok_iff {bs a} h := by
    cases a
    match bs, h with
    | [_, _, _], _ => simp [field]
  fixedSize_eq n hn := nomatch hn

instance : LawfulCodec Attestation := Attestation.container.lawful (by decide)

/-! ## Blocks -/

/-- The fields of the state of the deposit chain. -/
def Eth1Data.container : ContainerOf Eth1Data where
  layout := [some 32, some 8, some 32]
  sizes := [maxSize Root, maxSize UInt64, maxSize Root]
  fields e := [.of e.depositRoot, .of e.depositCount, .of e.blockHash]
  read := _
  decode_eq _ := rfl
  read_eq_ok_iff {bs e} h := by
    cases e
    match bs, h with
    | [_, _, _], _ => simp [field]
  fixedSize_eq n hn := by
    cases hn
    exact ⟨rfl, rfl⟩

instance : LawfulCodec Eth1Data := Eth1Data.container.lawful (by decide)

instance : LawfulCodec (Capped Attestation attestationCapacity) := Capped.lawful rfl (by decide)

/-- The fields of the content of a block. -/
def BlockBody.container : ContainerOf BlockBody where
  layout := [some 96, some 72, some 32, none]
  sizes := [maxSize Signature, maxSize Eth1Data, maxSize Root,
    maxSize (Capped Attestation attestationCapacity)]
  fields b := [.of b.randaoReveal, .of b.eth1Data, .of b.graffiti, .of b.attestations]
  read := _
  decode_eq _ := rfl
  read_eq_ok_iff {bs b} h := by
    cases b
    match bs, h with
    | [_, _, _, _], _ => simp [field]
  fixedSize_eq n hn := nomatch hn

instance : LawfulCodec BlockBody := BlockBody.container.lawful (by decide)

/-- The fields of a block. -/
def Block.container : ContainerOf Block where
  layout := [some 8, some 8, some 32, some 32, none]
  sizes := [maxSize Slot, maxSize UInt64, maxSize Root, maxSize Root, maxSize BlockBody]
  fields b := [.of b.slot, .of b.proposerIndex, .of b.parentRoot, .of b.stateRoot, .of b.body]
  read := _
  decode_eq _ := rfl
  read_eq_ok_iff {bs b} h := by
    cases b
    match bs, h with
    | [_, _, _, _, _], _ => simp [field]
  fixedSize_eq n hn := nomatch hn

instance : LawfulCodec Block := Block.container.lawful (by decide)

/-- The fields of a signed block. -/
def SignedBlock.container : ContainerOf SignedBlock where
  layout := [none, some 96]
  sizes := [maxSize Block, maxSize Signature]
  fields b := [.of b.message, .of b.signature]
  read := _
  decode_eq _ := rfl
  read_eq_ok_iff {bs b} h := by
    cases b
    match bs, h with
    | [_, _], _ => simp [field]
  fixedSize_eq n hn := nomatch hn

instance : LawfulCodec SignedBlock := SignedBlock.container.lawful (by decide)

end Saboteur
