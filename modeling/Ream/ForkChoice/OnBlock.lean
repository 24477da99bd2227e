import Ream.ForkChoice.Head

/-!
# `on_block`

`Store::on_block` in the order of the source: the known-block shortcut, the parent state, the slot
bounds, the signatures and the state transition, the writes, then the duplicate-data check and
`update_head`. The verdict of `type_2_verify_block` is a parameter.
-/

namespace Ream.ForkChoice

open Ssz Ream.Consensus

/-- `type_2_verify_block`: does the proof sign, for each component, its message binding
with its public keys? -/
abbrev BlockProofVerifier := List UInt8 → List (List PublicKey) → List (B256 × Nat) → Bool

variable (T : TreeHash) (verifyBlockProof : BlockProofVerifier)

/-- The attestation keys of the signers of one aggregate, and its message binding. -/
def attestationComponent (validators : List Validator) (attestation : AggregatedAttestation) :
    Except String (List PublicKey × (B256 × Nat)) := do
  let publicKeys ← attestation.aggregationBits.indices.mapM fun validatorId =>
    match validators[validatorId]? with
    | some validator => .ok validator.attestationPublicKey
    | none => .error s!"Failed to get validator {validatorId}"
  pure (publicKeys, (T.dataRoot attestation.message, attestation.message.slot % 2 ^ 32))

/-- `SignedBlock::verify_signatures`: every signer and the proposer must be registered; the
proof is checked only when `verify_signatures` is set. -/
def SignedBlock.verifySignatures (signedBlock : SignedBlock) (parentState : LeanState)
    (verifySignatures : Bool) : Except String Bool := do
  let block := signedBlock.block
  let validators := parentState.validators.data
  let components ← block.body.attestations.data.mapM (attestationComponent T validators)
  if ¬ block.proposerIndex < validators.length then .error "Proposer index out of range"
  else
    let proposer ← match validators[block.proposerIndex]? with
      | some validator => .ok validator
      | none => .error "Failed to get proposer validator"
    let publicKeysPerComponent := components.map Prod.fst ++ [[proposer.proposalPublicKey]]
    let expectedBindings :=
      components.map Prod.snd ++ [(block.treeHashRoot T, block.slot % 2 ^ 32)]
    if verifySignatures ∧
        ¬ verifyBlockProof signedBlock.proof publicKeysPerComponent expectedBindings then
      .error "Block proof verification failed"
    else pure true

/-- The checks of `on_block` before its first write, ending in the post-state. -/
def Store.prepareBlock (s : Store) (signedBlock : SignedBlock) (verifySignatures : Bool) :
    Except String LeanState := do
  let block := signedBlock.block
  let parentState ← match s.states.get? block.parentRoot with
    | some state => .ok state
    | none => .error "State not found for parent root"
  if ¬ block.slot - parentState.slot ≤ MAX_HISTORICAL_BLOCK_HASHES then
    .error "Block slot is too far beyond its parent"
  else if ¬ block.slot ≤ s.time / INTERVALS_PER_SLOT + 1 then .error "Block too far in future"
  else do
    let _ ← signedBlock.verifySignatures T verifyBlockProof parentState verifySignatures
    stateTransition T parentState block true

/-- The justified checkpoint `on_block` stores: the post-state's, when it is later than the
stored one and its root is a known block. -/
def Store.justifiedAfter (s : Store) (postState : LeanState) : Checkpoint :=
  if postState.latestJustified.slot > s.latestJustified.slot ∧
      (s.blocks.get? postState.latestJustified.root).isSome then
    postState.latestJustified
  else s.latestJustified

/-- The three writes of an accepted block: `insert_ref`, the post-state, the justified
checkpoint. -/
def Store.storeBlock (s : Store) (blockRoot : B256) (signedBlock : SignedBlock)
    (postState : LeanState) : Store :=
  let latestJustified := s.justifiedAfter postState
  let s := s.insertRef T blockRoot signedBlock
  { s with
    states := s.states.insert blockRoot postState
    latestJustified := latestJustified }

/-- The duplicate check: a set of data roots, and an error at the first root seen twice. -/
def checkSeen (seen : List B256) (dataRoot : B256) : Except String (List B256) :=
  if dataRoot ∈ seen then
    .error ("Block contains duplicate AttestationData entries; " ++
      "each AttestationData must appear at most once")
  else .ok (dataRoot :: seen)

def checkDistinctAttestationData (attestations : List AggregatedAttestation) :
    Except String (List B256) :=
  attestations.foldlM
    (fun seen attestation => checkSeen seen (T.dataRoot attestation.message)) []

/-- One aggregate's payload under the key of each signer. -/
def Store.recordPayload (s : Store) (dataRoot : B256) (payload : PayloadProof)
    (validatorId : Nat) : Store :=
  let key : SignatureKey := ⟨validatorId, dataRoot⟩
  { s with
    latestKnownAggregatedPayloads := s.latestKnownAggregatedPayloads.insert key
      (s.latestKnownAggregatedPayloads.getD key [] ++ [payload]) }

/-- The `devnet5` writes of `on_block`: each aggregate's data by its root, and its
participants as a payload of every signer. -/
def Store.recordBlockAttestations (s : Store) (attestations : List AggregatedAttestation) :
    Store :=
  attestations.foldl (fun s attestation =>
      let dataRoot := T.dataRoot attestation.message
      let s := { s with
        attestationDataByRoot := s.attestationDataByRoot.insert dataRoot attestation.message }
      let payload : PayloadProof := ⟨attestation.aggregationBits, []⟩
      attestation.aggregationBits.indices.foldl
        (fun s validatorId => s.recordPayload dataRoot payload validatorId) s)
    s

/-- `Store::on_block`. -/
def onBlock (signedBlock : SignedBlock) (verifySignatures : Bool) : StoreM Unit := do
  let s ← get
  let block := signedBlock.block
  let blockRoot := block.treeHashRoot T
  if (s.blocks.get? blockRoot).isSome then pure ()
  else do
    let postState ← MonadExcept.ofExcept
      (s.prepareBlock T verifyBlockProof signedBlock verifySignatures)
    set (s.storeBlock T blockRoot signedBlock postState)
    let _ ← MonadExcept.ofExcept (checkDistinctAttestationData T block.body.attestations.data)
    modify fun s => s.recordBlockAttestations T block.body.attestations.data
    updateHead

end Ream.ForkChoice
