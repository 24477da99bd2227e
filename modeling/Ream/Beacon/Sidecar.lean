import Ream.Beacon.TreeHash
import Ream.Merkle.Tree
import Ream.Lib.Loop

/-!
# Inclusion proofs of blocks, sidecars and states

The proofs a node builds that blob commitments are part of a block body, and the checks it runs
on blob and data column sidecars (`beacon_block_body.rs`, `blob_sidecar.rs`,
`data_column_sidecar.rs`). A field the proofs only hash is kept as its root.
-/

namespace Ream.Beacon

open Ssz Ream.Consensus Ream.Merkle

def BLOB_KZG_COMMITMENTS_INDEX : Nat := 11
def BLOB_SIDECAR_KZG_PROOF_DEPTH : Nat := 17
def BLOCK_BODY_MERKLE_DEPTH : Nat := 4
def BEACON_STATE_MERKLE_DEPTH : Nat := 6
def DATA_COLUMN_SIDECAR_KZG_PROOF_DEPTH : Nat := 4
def KZG_COMMITMENTS_MERKLE_DEPTH : Nat := 12
def MAX_BLOBS_PER_BLOCK : Nat := 4096
def BYTES_PER_COMMITMENT : Nat := 48
def NUMBER_OF_COLUMNS : Nat := 128

/-- `usize::next_power_of_two`: the least power of two at or above `n`. -/
def nextPowerOfTwo (n : Nat) : Nat := 2 ^ Nat.clog 2 n

structure KZGCommitment where
  bytes : FixedVector UInt8 BYTES_PER_COMMITMENT

structure KZGProof where
  bytes : FixedVector UInt8 48

structure BLSSignature where
  bytes : FixedVector UInt8 96

/-- A blob; no function here reads its bytes. -/
structure Blob where
  bytes : List UInt8

/-- A cell of a data column; no function here reads its bytes. -/
structure Cell where
  bytes : FixedVector UInt8 2048

structure BlobAndProofV1 where
  blob : Blob
  proof : KZGProof

/-- The body of an Electra block. A field whose type is not modelled is given by its root. -/
structure BeaconBlockBody where
  randaoRevealRoot : B256
  eth1DataRoot : B256
  graffiti : B256
  proposerSlashingsRoot : B256
  attesterSlashingsRoot : B256
  attestationsRoot : B256
  depositsRoot : B256
  voluntaryExitsRoot : B256
  syncAggregateRoot : B256
  executionPayloadRoot : B256
  blsToExecutionChangesRoot : B256
  blobKzgCommitments : VariableList KZGCommitment MAX_BLOBS_PER_BLOCK
  executionRequestsRoot : B256

structure BeaconBlock where
  slot : Nat
  proposerIndex : Nat
  parentRoot : B256
  stateRoot : B256
  body : BeaconBlockBody

structure SignedBeaconBlock where
  message : BeaconBlock
  signature : BLSSignature

structure SignedBeaconBlockHeader where
  message : BeaconBlockHeader
  signature : BLSSignature

structure BlobSidecar where
  index : Nat
  blob : Blob
  kzgCommitment : KZGCommitment
  kzgProof : KZGProof
  signedBlockHeader : SignedBeaconBlockHeader
  kzgCommitmentInclusionProof : FixedVector B256 17

structure DataColumnSidecar where
  index : Nat
  column : VariableList Cell MAX_BLOBS_PER_BLOCK
  kzgCommitments : VariableList KZGCommitment MAX_BLOBS_PER_BLOCK
  kzgProofs : VariableList KZGProof MAX_BLOBS_PER_BLOCK
  signedBlockHeader : SignedBeaconBlockHeader
  kzgCommitmentsInclusionProof : FixedVector B256 4

inductive DataColumnSidecarError where
  | CommitmentCountMismatch (actual expected : Nat)
  | ColumnIndexOutOfBounds (columnIndex entries : Nat)
  | DecodingError (columnIndex : Nat) (err : String)
  | InclusionProofError (message : String)

/-- The fields of an Electra `BeaconState` as `merkle_leaves` and the derived tree hash read
them: a `u64` field as its value, every other field as its root. -/
structure BeaconStateFields where
  genesisTime : Nat
  genesisValidatorsRoot : B256
  slot : Nat
  forkRoot : B256
  latestBlockHeaderRoot : B256
  blockRootsRoot : B256
  stateRootsRoot : B256
  historicalRootsRoot : B256
  eth1DataRoot : B256
  eth1DataVotesRoot : B256
  eth1DepositIndex : Nat
  validatorsRoot : B256
  balancesRoot : B256
  randaoMixesRoot : B256
  slashingsRoot : B256
  previousEpochParticipationRoot : B256
  currentEpochParticipationRoot : B256
  justificationBitsRoot : B256
  previousJustifiedCheckpointRoot : B256
  currentJustifiedCheckpointRoot : B256
  finalizedCheckpointRoot : B256
  inactivityScoresRoot : B256
  currentSyncCommitteeRoot : B256
  nextSyncCommitteeRoot : B256
  latestExecutionPayloadHeaderRoot : B256
  nextWithdrawalIndex : Nat
  nextWithdrawalValidatorIndex : Nat
  historicalSummariesRoot : B256
  depositRequestsStartIndex : Nat
  depositBalanceToConsume : Nat
  exitBalanceToConsume : Nat
  earliestExitEpoch : Nat
  consolidationBalanceToConsume : Nat
  earliestConsolidationEpoch : Nat
  pendingDepositsRoot : B256
  pendingPartialWithdrawalsRoot : B256
  pendingConsolidationsRoot : B256
  proposerLookaheadRoot : B256

variable (hashConcat : B256 → B256 → B256)

/-- A commitment's root: the root of its 48 bytes. -/
def KZGCommitment.treeHashRoot (c : KZGCommitment) : B256 := bytesRoot hashConcat c.bytes.data

/-! ## The block body -/

namespace BeaconBlockBody

/-- The root of `blob_kzg_commitments`: the commitment roots in a tree with room for
`4096`, with the length mixed in. -/
def blobKzgCommitmentsRoot (b : BeaconBlockBody) : B256 :=
  VariableList.treeHashRoot hashConcat (KZGCommitment.treeHashRoot hashConcat) b.blobKzgCommitments

/-- The derived `tree_hash_root`: the fields in declaration order. -/
def treeHashRoot (b : BeaconBlockBody) : B256 :=
  containerRoot hashConcat [b.randaoRevealRoot, b.eth1DataRoot, b.graffiti,
    b.proposerSlashingsRoot, b.attesterSlashingsRoot, b.attestationsRoot, b.depositsRoot,
    b.voluntaryExitsRoot, b.syncAggregateRoot, b.executionPayloadRoot,
    b.blsToExecutionChangesRoot, b.blobKzgCommitmentsRoot hashConcat, b.executionRequestsRoot]

def merkleLeaves (b : BeaconBlockBody) : List B256 :=
  [b.randaoRevealRoot, b.eth1DataRoot, b.graffiti, b.proposerSlashingsRoot,
    b.attesterSlashingsRoot, b.attestationsRoot, b.depositsRoot, b.voluntaryExitsRoot,
    b.syncAggregateRoot, b.executionPayloadRoot, b.blsToExecutionChangesRoot,
    b.blobKzgCommitmentsRoot hashConcat, b.executionRequestsRoot]

def dataInclusionProof (b : BeaconBlockBody) (index : Nat) : Except String (List B256) := do
  let tree ← merkleTree hashConcat (b.merkleLeaves hashConcat) BLOCK_BODY_MERKLE_DEPTH
  generateProof tree index BLOCK_BODY_MERKLE_DEPTH

def blobKzgCommitmentInclusionProof (b : BeaconBlockBody) (index : Nat) :
    Except String (List B256) := do
  -- inclusion proof for blob_kzg_commitment in blob_kzg_commitments
  let tree ← merkleTree hashConcat (b.blobKzgCommitments.data.map
    (KZGCommitment.treeHashRoot hashConcat)) KZG_COMMITMENTS_MERKLE_DEPTH
  let kzgCommitmentToKzgCommitmentsProof ← generateProof tree index KZG_COMMITMENTS_MERKLE_DEPTH
  -- add branch for length of blob_kzg_commitments
  let kzgCommitmentsLengthRoot := bytesRoot hashConcat (leBytes b.blobKzgCommitments.data.length 8)
  -- inclusion proof for blob_kzg_commitments in beacon_block_body
  let kzgCommitmentsToBlockBodyProof ← b.dataInclusionProof hashConcat BLOB_KZG_COMMITMENTS_INDEX
  pure (kzgCommitmentToKzgCommitmentsProof ++ [kzgCommitmentsLengthRoot] ++
    kzgCommitmentsToBlockBodyProof)

end BeaconBlockBody

/-! ## Blob sidecars -/

/-- The proof has a fixed length of seventeen, so the split at `13` never panics. -/
def BlobSidecar.verifyBlobSidecarInclusionProof (s : BlobSidecar) : Except String Bool :=
  let kzgCommitmentsTreeDepth := Nat.log2 (nextPowerOfTwo MAX_BLOBS_PER_BLOCK) + 1
  let (kzgCommitmentToKzgCommitmentsProof, kzgCommitmentsToBlockBodyProof) :=
    s.kzgCommitmentInclusionProof.data.splitAt kzgCommitmentsTreeDepth
  do
    let blobKzgCommitmentsRoot ← getRootFromMerkleBranch hashConcat
      (s.kzgCommitment.treeHashRoot hashConcat) kzgCommitmentToKzgCommitmentsProof
      kzgCommitmentsTreeDepth s.index
    isValidMerkleBranch hashConcat blobKzgCommitmentsRoot kzgCommitmentsToBlockBodyProof
      (BLOB_SIDECAR_KZG_PROOF_DEPTH - kzgCommitmentsTreeDepth) BLOB_KZG_COMMITMENTS_INDEX
      s.signedBlockHeader.message.bodyRoot

namespace SignedBeaconBlock

def signedHeader (b : SignedBeaconBlock) : SignedBeaconBlockHeader where
  message :=
    { slot := b.message.slot
      proposerIndex := b.message.proposerIndex
      parentRoot := b.message.parentRoot
      stateRoot := b.message.stateRoot
      bodyRoot := b.message.body.treeHashRoot hashConcat }
  signature := b.signature

def blobSidecar (b : SignedBeaconBlock) (blobAndProof : BlobAndProofV1) (index : Nat) :
    Except String BlobSidecar :=
  if h : index < b.message.body.blobKzgCommitments.data.length then do
    let proof ← b.message.body.blobKzgCommitmentInclusionProof hashConcat index
    let kzgCommitmentInclusionProof ← (FixedVector.new proof).mapError fun err =>
      s!"Failed to convert blob_kzg_commitment_inclusion_proof to FixedVector: {err.debug}"
    pure
      { index
        blob := blobAndProof.blob
        kzgCommitment := b.message.body.blobKzgCommitments.data.get ⟨index, h⟩
        kzgProof := blobAndProof.proof
        signedBlockHeader := b.signedHeader hashConcat
        kzgCommitmentInclusionProof }
  else .error "index must be less than the number of blob kzg commitments"

def getBlobSidecars (b : SignedBeaconBlock) (blobs : List Blob) (blobKzgProofs : List KZGProof) :
    Except String (List BlobSidecar) :=
  ((blobs.zip blobKzgProofs).zipIdx).mapM fun ((blob, proof), index) =>
    b.blobSidecar hashConcat ⟨blob, proof⟩ index

end SignedBeaconBlock

/-! ## Data column sidecars -/

/-- The inner loop of `get_data_column_sidecars`: the cell and the proof at `column_index` of
every blob. -/
def columnEntries (columnIndex : Nat) (cellsAndKzgProofs : List (List Cell × List KZGProof)) :
    Except DataColumnSidecarError (List Cell × List KZGProof) := do
  let entries ← cellsAndKzgProofs.mapM fun (cells, proofs) =>
    if h : columnIndex < cells.length ∧ columnIndex < proofs.length then
      .ok (cells.get ⟨columnIndex, h.1⟩, proofs.get ⟨columnIndex, h.2⟩)
    else .error (.ColumnIndexOutOfBounds columnIndex (max cells.length proofs.length))
  pure entries.unzip

def getDataColumnSidecars (signedBlockHeader : SignedBeaconBlockHeader)
    (kzgCommitments : VariableList KZGCommitment MAX_BLOBS_PER_BLOCK)
    (kzgCommitmentsInclusionProof : FixedVector B256 4)
    (cellsAndKzgProofs : List (List Cell × List KZGProof)) :
    Except DataColumnSidecarError (List DataColumnSidecar) :=
  if cellsAndKzgProofs.length ≠ kzgCommitments.data.length then
    .error (.CommitmentCountMismatch cellsAndKzgProofs.length kzgCommitments.data.length)
  else (List.range NUMBER_OF_COLUMNS).mapM fun columnIndex => do
    let (columnCells, columnProofs) ← columnEntries columnIndex cellsAndKzgProofs
    let column ← (VariableList.new columnCells).mapError fun err =>
      DataColumnSidecarError.DecodingError columnIndex err.debug
    let kzgProofs ← (VariableList.new columnProofs).mapError fun err =>
      DataColumnSidecarError.DecodingError columnIndex err.debug
    pure
      { index := columnIndex
        column
        kzgCommitments
        kzgProofs
        signedBlockHeader
        kzgCommitmentsInclusionProof }

def getDataColumnSidecarsFromBlock (signedBlock : SignedBeaconBlock)
    (cellsAndKzgProofs : List (List Cell × List KZGProof)) :
    Except DataColumnSidecarError (List DataColumnSidecar) := do
  let blobKzgCommitments := signedBlock.message.body.blobKzgCommitments
  let signedBlockHeader := signedBlock.signedHeader hashConcat
  let proof ← (signedBlock.message.body.dataInclusionProof hashConcat
    BLOB_KZG_COMMITMENTS_INDEX).mapError DataColumnSidecarError.InclusionProofError
  let kzgCommitmentsInclusionProof ← (FixedVector.new proof).mapError fun err =>
    DataColumnSidecarError.InclusionProofError err.debug
  getDataColumnSidecars signedBlockHeader blobKzgCommitments kzgCommitmentsInclusionProof
    cellsAndKzgProofs

/-- Verifies that the `kzg_commitments` list is included in the block body. -/
def DataColumnSidecar.verifyInclusionProof (s : DataColumnSidecar) : Except String Bool :=
  isValidMerkleBranch hashConcat
    (VariableList.treeHashRoot hashConcat (KZGCommitment.treeHashRoot hashConcat)
      s.kzgCommitments)
    s.kzgCommitmentsInclusionProof.data DATA_COLUMN_SIDECAR_KZG_PROOF_DEPTH
    BLOB_KZG_COMMITMENTS_INDEX s.signedBlockHeader.message.bodyRoot

/-! ## The state -/

namespace BeaconStateFields

/-- The derived `tree_hash_root`: the fields in declaration order, a `u64` as its own root. -/
def treeHashRoot (s : BeaconStateFields) : B256 :=
  containerRoot hashConcat [uint64Root s.genesisTime, s.genesisValidatorsRoot,
    uint64Root s.slot, s.forkRoot, s.latestBlockHeaderRoot, s.blockRootsRoot, s.stateRootsRoot,
    s.historicalRootsRoot, s.eth1DataRoot, s.eth1DataVotesRoot, uint64Root s.eth1DepositIndex,
    s.validatorsRoot, s.balancesRoot, s.randaoMixesRoot, s.slashingsRoot,
    s.previousEpochParticipationRoot, s.currentEpochParticipationRoot, s.justificationBitsRoot,
    s.previousJustifiedCheckpointRoot, s.currentJustifiedCheckpointRoot,
    s.finalizedCheckpointRoot, s.inactivityScoresRoot, s.currentSyncCommitteeRoot,
    s.nextSyncCommitteeRoot, s.latestExecutionPayloadHeaderRoot,
    uint64Root s.nextWithdrawalIndex, uint64Root s.nextWithdrawalValidatorIndex,
    s.historicalSummariesRoot, uint64Root s.depositRequestsStartIndex,
    uint64Root s.depositBalanceToConsume, uint64Root s.exitBalanceToConsume,
    uint64Root s.earliestExitEpoch, uint64Root s.consolidationBalanceToConsume,
    uint64Root s.earliestConsolidationEpoch, s.pendingDepositsRoot,
    s.pendingPartialWithdrawalsRoot, s.pendingConsolidationsRoot, s.proposerLookaheadRoot]

/-- `merkle_leaves`: a `u64` field enters as the root of its little-endian bytes. -/
def merkleLeaves (s : BeaconStateFields) : List B256 :=
  let u64Root (v : Nat) := bytesRoot hashConcat (leBytes v 8)
  [u64Root s.genesisTime, s.genesisValidatorsRoot, u64Root s.slot, s.forkRoot,
    s.latestBlockHeaderRoot, s.blockRootsRoot, s.stateRootsRoot, s.historicalRootsRoot,
    s.eth1DataRoot, s.eth1DataVotesRoot, u64Root s.eth1DepositIndex, s.validatorsRoot,
    s.balancesRoot, s.randaoMixesRoot, s.slashingsRoot, s.previousEpochParticipationRoot,
    s.currentEpochParticipationRoot, s.justificationBitsRoot, s.previousJustifiedCheckpointRoot,
    s.currentJustifiedCheckpointRoot, s.finalizedCheckpointRoot, s.inactivityScoresRoot,
    s.currentSyncCommitteeRoot, s.nextSyncCommitteeRoot, s.latestExecutionPayloadHeaderRoot,
    u64Root s.nextWithdrawalIndex, u64Root s.nextWithdrawalValidatorIndex,
    s.historicalSummariesRoot, u64Root s.depositRequestsStartIndex,
    u64Root s.depositBalanceToConsume, u64Root s.exitBalanceToConsume,
    u64Root s.earliestExitEpoch, u64Root s.consolidationBalanceToConsume,
    u64Root s.earliestConsolidationEpoch, s.pendingDepositsRoot, s.pendingPartialWithdrawalsRoot,
    s.pendingConsolidationsRoot, s.proposerLookaheadRoot]

def dataInclusionProof (s : BeaconStateFields) (index : Nat) : Except String (List B256) := do
  let tree ← merkleTree hashConcat (s.merkleLeaves hashConcat) BEACON_STATE_MERKLE_DEPTH
  generateProof tree index BEACON_STATE_MERKLE_DEPTH

end BeaconStateFields

end Ream.Beacon
