import Ream.Consensus.ChainLinkage
import Ream.Lib.StoreM

/-!
# The fork-choice store

The tables of `fork_choice/lean/src/store.rs` as finite maps. A method that writes them is a
`StoreM` program that keeps its earlier writes when it fails; database failures are not modelled.
-/

namespace Ream.ForkChoice

open Ssz Ream.Consensus

/-- `INTERVALS_PER_SLOT` of the Lean chain. -/
def INTERVALS_PER_SLOT : Nat := 5

/-- `SignedBlock`: the block and the bytes of its multi-message proof. -/
structure SignedBlock where
  block : Block
  proof : List UInt8
  deriving DecidableEq, Repr

/-- `ChildIndexEntry`: the children index mirrors a block's slot and parent. -/
structure ChildIndexEntry where
  slot : Nat
  parentRoot : B256
  deriving DecidableEq, Repr

/-- `SignatureKey`: a validator and the root of the data it signed. -/
structure SignatureKey where
  validatorId : Nat
  dataRoot : B256
  deriving DecidableEq, Repr

/-- `PayloadProof`, a single-message aggregate: who took part, and the proof bytes. -/
structure PayloadProof where
  participants : BitList VALIDATOR_REGISTRY_LIMIT
  proof : List UInt8
  deriving DecidableEq, Repr

/-- `to_validator_indices`. -/
def PayloadProof.toValidatorIndices (p : PayloadProof) : List Nat := p.participants.indices

/-- `SignedAttestation`, without its signature. -/
structure SignedAttestation where
  validatorId : Nat
  message : AttestationData
  deriving DecidableEq, Repr

/-- `AggregatedAttestations`: one validator's vote for one attestation data. -/
structure AggregatedAttestations where
  validatorId : Nat
  data : AttestationData
  deriving DecidableEq, Repr

/-- `Signature`: the bytes of one validator's XMSS signature. -/
abbrev Signature := List UInt8

/-- The tables of `LeanDB` that fork choice reads and writes, and the head slot it
publishes. -/
structure Store where
  time : Nat
  blocks : AssocMap B256 SignedBlock
  slotIndex : AssocMap Nat B256
  stateRootIndex : AssocMap B256 B256
  childrenIndex : AssocMap B256 ChildIndexEntry
  states : AssocMap B256 LeanState
  latestJustified : Checkpoint
  latestFinalized : Checkpoint
  head : B256
  /-- The slot of the head checkpoint of the store's `network_state`. -/
  headSlot : Nat
  safeTarget : B256
  latestKnownAttestations : AssocMap Nat SignedAttestation
  attestationDataByRoot : AssocMap B256 AttestationData
  latestKnownAggregatedPayloads : AssocMap SignatureKey (List PayloadProof)
  latestNewAggregatedPayloads : AssocMap SignatureKey (List PayloadProof)
  /-- `gossip_signatures`: the single signatures an aggregator keeps for its subnet. -/
  attestationSignatures : AssocMap SignatureKey Signature
  /-- The node's own validator, when it runs one. -/
  validatorId : Option Nat

/-- A database with no entries. -/
def Store.empty : Store :=
  { time := 0, blocks := AssocMap.empty, slotIndex := AssocMap.empty,
    stateRootIndex := AssocMap.empty, childrenIndex := AssocMap.empty,
    states := AssocMap.empty, latestJustified := Checkpoint.default,
    latestFinalized := Checkpoint.default, head := B256.ZERO, headSlot := 0,
    safeTarget := B256.ZERO,
    latestKnownAttestations := AssocMap.empty, attestationDataByRoot := AssocMap.empty,
    latestKnownAggregatedPayloads := AssocMap.empty,
    latestNewAggregatedPayloads := AssocMap.empty, attestationSignatures := AssocMap.empty,
    validatorId := none }

/-- Store methods: they mutate the tables and may stop with an error. -/
abbrev StoreM := EStateM String Store

variable (T : TreeHash)

/-- `LeanBlockTable::insert_ref`: the slot, state-root and children indexes under the
block's own root, then the block under `key`. -/
def Store.insertRef (s : Store) (key : B256) (value : SignedBlock) : Store :=
  let blockRoot := value.block.treeHashRoot T
  { s with
    slotIndex := s.slotIndex.insert value.block.slot blockRoot
    stateRootIndex := s.stateRootIndex.insert value.block.stateRoot blockRoot
    childrenIndex := s.childrenIndex.insert blockRoot ⟨value.block.slot, value.block.parentRoot⟩
    blocks := s.blocks.insert key value }

/-- `get_oldest_root`: the root at the lowest slot of the slot index. -/
def Store.oldestRoot (s : Store) : Option B256 :=
  s.slotIndex.keys.min?.bind s.slotIndex.get?

/-- The `lookup_slot` closure of `update_head`: parent and slot from the children index,
else from the block table. -/
def Store.lookupSlot (s : Store) (root : B256) : Option (B256 × Nat) :=
  match s.childrenIndex.get? root with
  | some entry => some (entry.parentRoot, entry.slot)
  | none => (s.blocks.get? root).map fun b => (b.block.parentRoot, b.block.slot)

/-- `Store::get_forkchoice_store` on the database `db`, with `seconds_per_slot` of the
network spec. The anchor is stored under the root of the anchor state's latest header,
with the slot and state-root indexes pointed at it. -/
def getForkchoiceStore (secondsPerSlot : Nat) (db : Store) (anchorBlock : SignedBlock)
    (anchorState : LeanState) (time : Option Nat) : Except String Store :=
  if anchorBlock.block.stateRoot ≠ T.stateRoot anchorState then
    .error "Anchor block state root must match anchor state hash"
  else
    let anchorRoot := anchorRoot T anchorState
    let anchorSlot := anchorBlock.block.slot
    let anchorCheckpoint : Checkpoint := ⟨anchorRoot, anchorSlot⟩
    let db := { db with time := time.getD (anchorSlot * secondsPerSlot) }
    let db := db.insertRef T anchorRoot anchorBlock
    .ok { db with
      slotIndex := db.slotIndex.insert anchorSlot anchorRoot
      stateRootIndex := db.stateRootIndex.insert (T.stateRoot anchorState) anchorRoot
      latestFinalized := anchorCheckpoint
      latestJustified := anchorCheckpoint
      states := db.states.insert anchorRoot anchorState
      head := anchorRoot
      headSlot := anchorSlot
      safeTarget := anchorRoot }

end Ream.ForkChoice
