import Ream.Beacon.Sidecar
import Ream.Merkle.Branch

/-!
# The inclusion proofs a node builds verify in its own checks

The body tree over the thirteen field roots has depth four and the body's root at `tree[1]`. A
commitment's proof climbs twelve levels of the commitment tree, the length chunk and four levels
of the body tree, which is where `verify_blob_sidecar_inclusion_proof` splits it.
-/

namespace Ream.Beacon

open Ssz Ream.Consensus Ream.Merkle

variable {hashConcat : B256 → B256 → B256}

theorem splitAt_append {α : Type} {l₁ l₂ : List α} {n : Nat} (h : l₁.length = n) :
    (l₁ ++ l₂).splitAt n = (l₁, l₂) := by
  rw [List.splitAt_eq, List.take_left' h, List.drop_left' h]

theorem containerProof_ok {leaves : List B256} {depth index : Nat} (hd : depth < 64)
    (hc : Nat.clog 2 leaves.length = depth) (hi : index < 2 ^ depth) :
    ∃ tree proof, merkleTree hashConcat leaves depth = .ok tree ∧
      generateProof tree index depth = .ok proof ∧
      isValidMerkleBranch hashConcat (leaves.getD index B256.ZERO) proof depth index
        (containerRoot hashConcat leaves) = .ok true := by
  have hl : leaves.length ≤ 2 ^ depth := hc ▸ Nat.le_pow_clog Nat.one_lt_two leaves.length
  obtain ⟨tree, proof, htree, hgen, hlen, hclimb⟩ := @merkleProof_ok hashConcat _ _ _ hd hl hi
  refine ⟨tree, proof, htree, hgen, ?_⟩
  rw [isValidMerkleBranch_eq index hlen (by omega), hclimb, containerRoot,
    merkleize_eq hashConcat hc, beq_self_eq_true]

/-! ## The block body -/

namespace BeaconBlockBody

@[simp] theorem length_merkleLeaves (b : BeaconBlockBody) :
    (b.merkleLeaves hashConcat).length = 13 := rfl

/-- The derived root is the padded root of `merkle_leaves`: both list the fields in
declaration order. -/
theorem treeHashRoot_eq (b : BeaconBlockBody) :
    b.treeHashRoot hashConcat = MerkleHeap.root hashConcat BLOCK_BODY_MERKLE_DEPTH
      fun k => (b.merkleLeaves hashConcat).getD k B256.ZERO :=
  merkleize_eq hashConcat (show Nat.clog 2 13 = BLOCK_BODY_MERKLE_DEPTH by decide)

theorem merkleTree_root (b : BeaconBlockBody) :
    ∃ tree,
      merkleTree hashConcat (b.merkleLeaves hashConcat) BLOCK_BODY_MERKLE_DEPTH = .ok tree ∧
      vecIndex tree 1 = .ok (b.treeHashRoot hashConcat) := by
  obtain ⟨tree, htree, hof⟩ :=
    @merkleTree_ok hashConcat (b.merkleLeaves hashConcat) BLOCK_BODY_MERKLE_DEPTH (by decide)
      (by simp [BLOCK_BODY_MERKLE_DEPTH])
  exact ⟨tree, htree, by rw [hof.root_eq, treeHashRoot_eq]⟩

theorem dataInclusionProof_ok (b : BeaconBlockBody) {index : Nat}
    (hi : index < 2 ^ BLOCK_BODY_MERKLE_DEPTH) :
    ∃ proof, b.dataInclusionProof hashConcat index = .ok proof ∧
      proof.length = BLOCK_BODY_MERKLE_DEPTH ∧
      MerkleHeap.climb hashConcat index 0 ((b.merkleLeaves hashConcat).getD index B256.ZERO)
        proof = b.treeHashRoot hashConcat := by
  obtain ⟨tree, proof, htree, hgen, hlen, hclimb⟩ :=
    @merkleProof_ok hashConcat (b.merkleLeaves hashConcat) BLOCK_BODY_MERKLE_DEPTH index
      (by decide) (by simp [BLOCK_BODY_MERKLE_DEPTH]) hi
  refine ⟨proof, ?_, hlen, by rw [hclimb, treeHashRoot_eq]⟩
  rw [dataInclusionProof, htree, Except.ok_bind, hgen]

theorem commitmentsProof_ok (b : BeaconBlockBody) :
    ∃ proof, b.dataInclusionProof hashConcat BLOB_KZG_COMMITMENTS_INDEX = .ok proof ∧
      proof.length = BLOCK_BODY_MERKLE_DEPTH ∧
      MerkleHeap.climb hashConcat BLOB_KZG_COMMITMENTS_INDEX 0
        (b.blobKzgCommitmentsRoot hashConcat) proof = b.treeHashRoot hashConcat :=
  b.dataInclusionProof_ok (by decide)

/-- The length chunk `mix_in_length` hashes in is the root of the length's eight bytes, and the
root before it is the root of the commitment tree of depth twelve. -/
theorem blobKzgCommitmentsRoot_eq (b : BeaconBlockBody) :
    b.blobKzgCommitmentsRoot hashConcat =
      hashConcat (MerkleHeap.root hashConcat KZG_COMMITMENTS_MERKLE_DEPTH fun k =>
          (b.blobKzgCommitments.data.map (KZGCommitment.treeHashRoot hashConcat)).getD k
            B256.ZERO)
        (bytesRoot hashConcat (leBytes b.blobKzgCommitments.data.length 8)) := by
  have hlen : b.blobKzgCommitments.data.length < 2 ^ 64 :=
    lt_of_le_of_lt b.blobKzgCommitments.bound (by decide)
  have hdepth : Nat.clog 2 MAX_BLOBS_PER_BLOCK = KZG_COMMITMENTS_MERKLE_DEPTH := by decide
  rw [lengthChunk_eq hashConcat hlen, ← merkleize_eq hashConcat hdepth]
  rfl

/-- The proof for commitment `index`: its branch in the commitment tree, the length root, and
the branch of the list in the body, each climbing to the root the next one starts from. -/
theorem blobKzgCommitmentInclusionProof_ok (b : BeaconBlockBody) {index : Nat}
    (hi : index < b.blobKzgCommitments.data.length) :
    ∃ commitmentProof bodyProof,
      b.blobKzgCommitmentInclusionProof hashConcat index =
        .ok (commitmentProof ++
          [bytesRoot hashConcat (leBytes b.blobKzgCommitments.data.length 8)] ++ bodyProof) ∧
      commitmentProof.length = KZG_COMMITMENTS_MERKLE_DEPTH ∧
      bodyProof.length = BLOCK_BODY_MERKLE_DEPTH ∧
      hashConcat (MerkleHeap.climb hashConcat index 0
          (b.blobKzgCommitments.data[index].treeHashRoot hashConcat) commitmentProof)
        (bytesRoot hashConcat (leBytes b.blobKzgCommitments.data.length 8)) =
        b.blobKzgCommitmentsRoot hashConcat ∧
      MerkleHeap.climb hashConcat BLOB_KZG_COMMITMENTS_INDEX 0
        (b.blobKzgCommitmentsRoot hashConcat) bodyProof = b.treeHashRoot hashConcat := by
  have hbound := b.blobKzgCommitments.bound
  let roots := b.blobKzgCommitments.data.map (KZGCommitment.treeHashRoot hashConcat)
  have hleaf : roots.getD index B256.ZERO =
      b.blobKzgCommitments.data[index].treeHashRoot hashConcat := by
    rw [List.getD_eq_getElem _ _ (by simpa [roots] using hi), List.getElem_map]
  obtain ⟨tree, commitmentProof, htree, hgen, hlen, hclimb⟩ :=
    @merkleProof_ok hashConcat roots KZG_COMMITMENTS_MERKLE_DEPTH index (by decide)
      (by simpa [roots, KZG_COMMITMENTS_MERKLE_DEPTH, MAX_BLOBS_PER_BLOCK] using hbound)
      (lt_of_lt_of_le hi (hbound.trans (by decide)))
  obtain ⟨bodyProof, hbody, hbodyLen, hbodyClimb⟩ := @commitmentsProof_ok hashConcat b
  refine ⟨commitmentProof, bodyProof, ?_, hlen, hbodyLen, ?_, hbodyClimb⟩
  · rw [blobKzgCommitmentInclusionProof, htree, Except.ok_bind, hgen, Except.ok_bind]
    dsimp only
    rw [hbody, Except.ok_bind]
    rfl
  · rw [← hleaf, hclimb, blobKzgCommitmentsRoot_eq]

end BeaconBlockBody

/-! ## Blob sidecars -/

theorem kzgCommitmentsTreeDepth_eq : Nat.log2 (nextPowerOfTwo MAX_BLOBS_PER_BLOCK) + 1 = 13 := by
  decide

/-- The check of a blob sidecar whose proof is a commitment branch of twelve nodes, a length
root and a body branch: it climbs the commitment branch, hashes the length root in on the right
and compares the body branch's climb from there with the header's body root. -/
theorem BlobSidecar.verifyBlobSidecarInclusionProof_eq {s : BlobSidecar}
    {commitmentProof bodyProof : List B256} {lengthRoot : B256}
    (hproof : s.kzgCommitmentInclusionProof.data = commitmentProof ++ [lengthRoot] ++ bodyProof)
    (hlen : commitmentProof.length = KZG_COMMITMENTS_MERKLE_DEPTH)
    (hi : s.index < 2 ^ KZG_COMMITMENTS_MERKLE_DEPTH) :
    s.verifyBlobSidecarInclusionProof hashConcat =
      .ok (s.signedBlockHeader.message.bodyRoot ==
        MerkleHeap.climb hashConcat BLOB_KZG_COMMITMENTS_INDEX 0
          (hashConcat (MerkleHeap.climb hashConcat s.index 0
            (s.kzgCommitment.treeHashRoot hashConcat) commitmentProof) lengthRoot) bodyProof) := by
  have hfirst : (commitmentProof ++ [lengthRoot]).length = 13 := by
    simp [hlen, KZG_COMMITMENTS_MERKLE_DEPTH]
  have hbodyLen : bodyProof.length = BLOB_SIDECAR_KZG_PROOF_DEPTH - 13 := by
    have htotal := s.kzgCommitmentInclusionProof.length_eq
    rw [hproof, List.length_append, hfirst] at htotal
    simp [BLOB_SIDECAR_KZG_PROOF_DEPTH]
    omega
  have hbit : s.index.testBit 12 = false := Nat.testBit_lt_two_pow hi
  have hclimb : MerkleHeap.climb hashConcat s.index 0 (s.kzgCommitment.treeHashRoot hashConcat)
      (commitmentProof ++ [lengthRoot]) = hashConcat (MerkleHeap.climb hashConcat s.index 0
        (s.kzgCommitment.treeHashRoot hashConcat) commitmentProof) lengthRoot := by
    rw [MerkleHeap.climb_append, hlen]
    simp [MerkleHeap.climb, KZG_COMMITMENTS_MERKLE_DEPTH, hbit]
  simp only [BlobSidecar.verifyBlobSidecarInclusionProof, kzgCommitmentsTreeDepth_eq, hproof,
    splitAt_append hfirst]
  rw [getRootFromMerkleBranch_eq s.index hfirst (by omega), Except.ok_bind, hclimb,
    isValidMerkleBranch_eq BLOB_KZG_COMMITMENTS_INDEX hbodyLen (by decide)]

/-- A blob sidecar for commitment `index` of a body, carrying the proof the body gives for it
and the body's root, passes its check. -/
theorem BlobSidecar.verify_of_body {b : BeaconBlockBody} {index : Nat}
    (hi : index < b.blobKzgCommitments.data.length) :
    ∃ proof, b.blobKzgCommitmentInclusionProof hashConcat index = .ok proof ∧
      proof.length = 17 ∧
      ∀ s : BlobSidecar, s.index = index →
        s.kzgCommitment = b.blobKzgCommitments.data[index] →
        s.kzgCommitmentInclusionProof.data = proof →
        s.signedBlockHeader.message.bodyRoot = b.treeHashRoot hashConcat →
        s.verifyBlobSidecarInclusionProof hashConcat = .ok true := by
  obtain ⟨commitmentProof, bodyProof, hproof, hlen, hbodyLen, hcommitments, hbody⟩ :=
    @BeaconBlockBody.blobKzgCommitmentInclusionProof_ok hashConcat b index hi
  refine ⟨_, hproof, by simp [hlen, hbodyLen, KZG_COMMITMENTS_MERKLE_DEPTH,
    BLOCK_BODY_MERKLE_DEPTH], fun s hindex hcommitment hdata hroot => ?_⟩
  have hsmall : s.index < 2 ^ KZG_COMMITMENTS_MERKLE_DEPTH := by
    rw [hindex]
    exact lt_of_lt_of_le hi (b.blobKzgCommitments.bound.trans (by decide))
  rw [verifyBlobSidecarInclusionProof_eq hdata hlen hsmall, hindex, hcommitment, hcommitments,
    hbody, hroot, beq_self_eq_true]

/-- `blob_sidecar` succeeds for every commitment of the block, and the sidecar it builds passes
its check. -/
theorem SignedBeaconBlock.blobSidecar_verify (b : SignedBeaconBlock)
    (blobAndProof : BlobAndProofV1) {index : Nat}
    (hi : index < b.message.body.blobKzgCommitments.data.length) :
    ∃ s, b.blobSidecar hashConcat blobAndProof index = .ok s ∧ s.index = index ∧
      s.kzgCommitment = b.message.body.blobKzgCommitments.data[index] ∧
      s.verifyBlobSidecarInclusionProof hashConcat = .ok true := by
  obtain ⟨proof, hproof, hlen, hverify⟩ :=
    @BlobSidecar.verify_of_body hashConcat b.message.body index hi
  let s : BlobSidecar :=
    { index
      blob := blobAndProof.blob
      kzgCommitment := b.message.body.blobKzgCommitments.data[index]
      kzgProof := blobAndProof.proof
      signedBlockHeader := b.signedHeader hashConcat
      kzgCommitmentInclusionProof := ⟨proof, hlen⟩ }
  refine ⟨s, ?_, rfl, rfl, hverify s rfl rfl rfl rfl⟩
  rw [blobSidecar, dif_pos hi, hproof, Except.ok_bind, FixedVector.new_of_length hlen]
  rfl

theorem SignedBeaconBlock.getBlobSidecars_verify {b : SignedBeaconBlock} {blobs : List Blob}
    {blobKzgProofs : List KZGProof} {sidecars : List BlobSidecar}
    (h : b.getBlobSidecars hashConcat blobs blobKzgProofs = .ok sidecars) :
    ∀ s ∈ sidecars, s.verifyBlobSidecarInclusionProof hashConcat = .ok true := by
  intro s hs
  obtain ⟨⟨⟨blob, proof⟩, index⟩, -, hbuilt⟩ := Loop.mem_of_mapM_eq_ok h s hs
  dsimp only at hbuilt
  have hi : index < b.message.body.blobKzgCommitments.data.length := by
    by_contra hout
    simp [blobSidecar, hout] at hbuilt
  obtain ⟨s', hbuilt', -, -, hverify⟩ :=
    @SignedBeaconBlock.blobSidecar_verify hashConcat b ⟨blob, proof⟩ index hi
  rw [hbuilt, Except.ok.injEq] at hbuilt'
  rw [hbuilt']
  exact hverify

/-! ## Data column sidecars -/

/-- Every sidecar `get_data_column_sidecars` returns carries the header, the commitments and
the proof it was given. -/
theorem getDataColumnSidecars_mem {signedBlockHeader : SignedBeaconBlockHeader}
    {kzgCommitments : VariableList KZGCommitment MAX_BLOBS_PER_BLOCK}
    {kzgCommitmentsInclusionProof : FixedVector B256 4}
    {cellsAndKzgProofs : List (List Cell × List KZGProof)} {sidecars : List DataColumnSidecar}
    (h : getDataColumnSidecars signedBlockHeader kzgCommitments kzgCommitmentsInclusionProof
      cellsAndKzgProofs = .ok sidecars) :
    ∀ s ∈ sidecars, s.kzgCommitments = kzgCommitments ∧
      s.signedBlockHeader = signedBlockHeader ∧
      s.kzgCommitmentsInclusionProof = kzgCommitmentsInclusionProof := by
  unfold getDataColumnSidecars at h
  rw [Except.ite_error_eq_ok] at h
  intro s hs
  obtain ⟨columnIndex, -, hcolumn⟩ := Loop.mem_of_mapM_eq_ok h.2 s hs
  simp only [Except.bind_eq_ok, Except.mapError_eq_ok, Except.pure_eq_ok] at hcolumn
  obtain ⟨⟨columnCells, columnProofs⟩, -, column, -, kzgProofs, -, hs⟩ := hcolumn
  rw [← hs]
  exact ⟨rfl, rfl, rfl⟩

/-- Every sidecar of a block carries the block's commitments and header, and the proof the
body gives for its commitment list. -/
theorem getDataColumnSidecarsFromBlock_mem {signedBlock : SignedBeaconBlock}
    {cellsAndKzgProofs : List (List Cell × List KZGProof)} {sidecars : List DataColumnSidecar}
    (h : getDataColumnSidecarsFromBlock hashConcat signedBlock cellsAndKzgProofs = .ok sidecars) :
    ∃ proof, signedBlock.message.body.dataInclusionProof hashConcat BLOB_KZG_COMMITMENTS_INDEX =
        .ok proof ∧
      ∀ s ∈ sidecars, s.kzgCommitments = signedBlock.message.body.blobKzgCommitments ∧
        s.signedBlockHeader = signedBlock.signedHeader hashConcat ∧
        s.kzgCommitmentsInclusionProof.data = proof := by
  unfold getDataColumnSidecarsFromBlock at h
  simp only [Except.bind_eq_ok, Except.mapError_eq_ok] at h
  obtain ⟨proof, hproof, fixed, hfixed, hsidecars⟩ := h
  refine ⟨proof, hproof, fun s hs => ?_⟩
  obtain ⟨hcommitments, hheader, hfixedProof⟩ := getDataColumnSidecars_mem hsidecars s hs
  exact ⟨hcommitments, hheader, by rw [hfixedProof, FixedVector.data_of_new hfixed]⟩

theorem DataColumnSidecar.verifyInclusionProof_of_block {signedBlock : SignedBeaconBlock}
    {cellsAndKzgProofs : List (List Cell × List KZGProof)} {sidecars : List DataColumnSidecar}
    (h : getDataColumnSidecarsFromBlock hashConcat signedBlock cellsAndKzgProofs = .ok sidecars) :
    ∀ s ∈ sidecars, s.verifyInclusionProof hashConcat = .ok true := by
  obtain ⟨proof, hproof, hmem⟩ := getDataColumnSidecarsFromBlock_mem h
  obtain ⟨proof', hproof', hlen, hclimb⟩ :=
    @BeaconBlockBody.commitmentsProof_ok hashConcat signedBlock.message.body
  rw [hproof, Except.ok.injEq] at hproof'
  have hlen' : proof'.length = DATA_COLUMN_SIDECAR_KZG_PROOF_DEPTH := hlen
  intro s hs
  obtain ⟨hcommitments, hheader, hdata⟩ := hmem s hs
  rw [verifyInclusionProof, hdata, hproof', isValidMerkleBranch_eq _ hlen' (by decide),
    hcommitments, hheader]
  show Except.ok (signedBlock.message.body.treeHashRoot hashConcat == MerkleHeap.climb hashConcat
    BLOB_KZG_COMMITMENTS_INDEX 0 (signedBlock.message.body.blobKzgCommitmentsRoot hashConcat)
      proof') = _
  rw [hclimb, beq_self_eq_true]

/-! ## The state -/

namespace BeaconStateFields

@[simp] theorem length_merkleLeaves (s : BeaconStateFields) :
    (s.merkleLeaves hashConcat).length = 38 := rfl

/-- The derived root is the root of the container of `merkle_leaves`: a `u64` leaf is the root
of the `u64`. -/
theorem treeHashRoot_eq (s : BeaconStateFields) :
    s.treeHashRoot hashConcat = containerRoot hashConcat (s.merkleLeaves hashConcat) := by
  simp only [treeHashRoot, merkleLeaves, bytesRoot_leBytes]

theorem dataInclusionProof_valid (s : BeaconStateFields) {index : Nat} (hi : index < 38) :
    ∃ proof, s.dataInclusionProof hashConcat index = .ok proof ∧
      isValidMerkleBranch hashConcat ((s.merkleLeaves hashConcat).getD index B256.ZERO) proof
        BEACON_STATE_MERKLE_DEPTH index (s.treeHashRoot hashConcat) = .ok true := by
  obtain ⟨tree, proof, htree, hgen, hvalid⟩ :=
    @containerProof_ok hashConcat (s.merkleLeaves hashConcat) BEACON_STATE_MERKLE_DEPTH index
      (by decide) (show Nat.clog 2 38 = BEACON_STATE_MERKLE_DEPTH by decide)
      (lt_of_lt_of_le hi (by decide))
  refine ⟨proof, ?_, by rw [treeHashRoot_eq]; exact hvalid⟩
  rw [dataInclusionProof, htree, Except.ok_bind, hgen]

end BeaconStateFields

/-! ## The proofs the node produces verify -/

/-- The body tree's root is the body's root; a blob sidecar carrying a commitment of a body,
the body's proof for it and the body's root passes its check, as do all the sidecars
`get_blob_sidecars` builds (`SignedBeaconBlock.getBlobSidecars_verify`); every data column
sidecar of a block passes its check; and the proof of every field of a state verifies against
the state's root. -/
theorem inclusion_proofs_verify (hashConcat : B256 → B256 → B256) :
    (∀ b : BeaconBlockBody, ∃ tree,
      merkleTree hashConcat (b.merkleLeaves hashConcat) BLOCK_BODY_MERKLE_DEPTH = .ok tree ∧
      vecIndex tree 1 = .ok (b.treeHashRoot hashConcat)) ∧
    (∀ (b : BeaconBlockBody) (index : Nat) (hi : index < b.blobKzgCommitments.data.length),
      ∃ proof, b.blobKzgCommitmentInclusionProof hashConcat index = .ok proof ∧
        proof.length = 17 ∧
        ∀ s : BlobSidecar, s.index = index →
          s.kzgCommitment = b.blobKzgCommitments.data[index] →
          s.kzgCommitmentInclusionProof.data = proof →
          s.signedBlockHeader.message.bodyRoot = b.treeHashRoot hashConcat →
          s.verifyBlobSidecarInclusionProof hashConcat = .ok true) ∧
    (∀ (signedBlock : SignedBeaconBlock) (cellsAndKzgProofs : List (List Cell × List KZGProof))
      (sidecars : List DataColumnSidecar),
      getDataColumnSidecarsFromBlock hashConcat signedBlock cellsAndKzgProofs = .ok sidecars →
        ∀ s ∈ sidecars, s.verifyInclusionProof hashConcat = .ok true) ∧
    (∀ (s : BeaconStateFields) (index : Nat), index < 38 →
      ∃ proof, s.dataInclusionProof hashConcat index = .ok proof ∧
        isValidMerkleBranch hashConcat ((s.merkleLeaves hashConcat).getD index B256.ZERO) proof
          BEACON_STATE_MERKLE_DEPTH index (s.treeHashRoot hashConcat) = .ok true) :=
  ⟨BeaconBlockBody.merkleTree_root, fun _ _ hi => BlobSidecar.verify_of_body hi,
    fun _ _ _ h => DataColumnSidecar.verifyInclusionProof_of_block h,
    fun s _ hi => s.dataInclusionProof_valid hi⟩

/-- A hash that keeps small values apart: the parent is a polynomial in its two children. -/
def mixHash (a b : B256) : B256 := Fin.ofNat _ (a.val * 1009 + b.val + 1)

/-- A body whose only commitment is 48 bytes of `7`, every other field root zero. -/
def oneCommitmentBody : BeaconBlockBody where
  randaoRevealRoot := B256.ZERO
  eth1DataRoot := B256.ZERO
  graffiti := B256.ZERO
  proposerSlashingsRoot := B256.ZERO
  attesterSlashingsRoot := B256.ZERO
  attestationsRoot := B256.ZERO
  depositsRoot := B256.ZERO
  voluntaryExitsRoot := B256.ZERO
  syncAggregateRoot := B256.ZERO
  executionPayloadRoot := B256.ZERO
  blsToExecutionChangesRoot := B256.ZERO
  blobKzgCommitments := ⟨[⟨⟨List.replicate 48 7, List.length_replicate⟩⟩], Nat.le_of_ble_eq_true rfl⟩
  executionRequestsRoot := B256.ZERO

/-- The proof of the body's one commitment is seventeen long, and a sidecar that carries it,
with the commitment, index 0 and a header of the body, passes the check. -/
theorem oneCommitment_sidecar_verifies :
    ∃ proof, ∃ hlen : proof.length = 17,
      oneCommitmentBody.blobKzgCommitmentInclusionProof mixHash 0 = .ok proof ∧
      BlobSidecar.verifyBlobSidecarInclusionProof mixHash
        { index := 0
          blob := ⟨[]⟩
          kzgCommitment := ⟨⟨List.replicate 48 7, List.length_replicate⟩⟩
          kzgProof := ⟨⟨List.replicate 48 0, List.length_replicate⟩⟩
          signedBlockHeader :=
            ⟨⟨0, 0, B256.ZERO, B256.ZERO, oneCommitmentBody.treeHashRoot mixHash⟩,
              ⟨⟨List.replicate 96 0, List.length_replicate⟩⟩⟩
          kzgCommitmentInclusionProof := ⟨proof, hlen⟩ } = .ok true := by
  obtain ⟨proof, hproof, hlen, hverify⟩ :=
    (inclusion_proofs_verify mixHash).2.1 oneCommitmentBody 0 (by decide)
  exact ⟨proof, hlen, hproof, hverify _ rfl rfl rfl rfl⟩

end Ream.Beacon
