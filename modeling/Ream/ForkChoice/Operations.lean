import Ream.ForkChoice.OnBlock

/-!
# The store's other operations

Gossip, the clock and pruning, and `StoreOp`, which names every operation with its arguments.
The verdict of `type_1_verify` on a gossiped aggregate is a parameter.
-/

namespace Ream.ForkChoice

open Ssz Ream.Consensus

/-- `GOSSIP_DISPARITY_INTERVALS`. -/
def GOSSIP_DISPARITY_INTERVALS : Nat := 1

/-- `ATTESTATION_RETENTION_SLOTS`. -/
def ATTESTATION_RETENTION_SLOTS : Nat := 1024

/-- `SignedAggregatedAttestation`. -/
structure SignedAggregatedAttestation where
  data : AttestationData
  proof : PayloadProof
  deriving DecidableEq, Repr

/-- `type_1_from_wire` followed by `type_1_verify`: does the proof sign with these keys? -/
abbrev AggregateVerifier := List UInt8 → List PublicKey → Bool

/-! ## Gossip -/

/-- The loop of `checkpoint_is_ancestor`: down the block table from the descendant until a
block at or below the ancestor's slot. -/
def Store.ancestorWalk (s : Store) (ancestor : Checkpoint) : Nat → B256 → Bool
  | 0, _ => false
  | fuel + 1, currentRoot =>
    match s.blocks.get? currentRoot with
    | none => false
    | some blockWrapper =>
      if blockWrapper.block.slot = ancestor.slot then decide (currentRoot = ancestor.root)
      else if blockWrapper.block.slot < ancestor.slot then false
      else s.ancestorWalk ancestor fuel blockWrapper.block.parentRoot

/-- `Store::checkpoint_is_ancestor`. -/
def Store.checkpointIsAncestor (s : Store) (ancestor descendant : Checkpoint) : Bool :=
  if ancestor.slot > descendant.slot then false
  else s.ancestorWalk ancestor (s.blocks.size + 1) descendant.root

/-- A stored block, or the error that it is missing. -/
def Store.getBlock (s : Store) (root : B256) (err : String) : Except String SignedBlock :=
  match s.blocks.get? root with
  | some block => .ok block
  | none => .error err

theorem Store.getBlock_eq_ok {s : Store} {root : B256} {err : String} {block : SignedBlock} :
    s.getBlock root err = .ok block ↔ s.blocks.get? root = some block := by
  unfold Store.getBlock
  cases s.blocks.get? root <;> simp

/-- `Store::validate_attestation`. -/
def Store.validateAttestation (s : Store) (data : AttestationData) : Except String Unit := do
  if (s.blocks.get? data.source.root).isNone then
    .error s!"Unknown source block: {data.source.root}"
  else if (s.blocks.get? data.target.root).isNone then
    .error s!"Unknown target block: {data.target.root}"
  else if (s.blocks.get? data.head.root).isNone then
    .error s!"Unknown head block: {data.head.root}"
  else if ¬ data.source.slot ≤ data.target.slot then
    .error "Source checkpoint slot must not exceed target"
  else if ¬ data.head.slot ≥ data.target.slot then
    .error "Head checkpoint must not be older than target"
  else do
    let sourceBlock ← s.getBlock data.source.root "Failed to get source block"
    let targetBlock ← s.getBlock data.target.root "Failed to get target block"
    let headBlock ← s.getBlock data.head.root "Failed to get head block"
    if sourceBlock.block.slot ≠ data.source.slot then .error "Source checkpoint slot mismatch"
    else if targetBlock.block.slot ≠ data.target.slot then
      .error "Target checkpoint slot mismatch"
    else if headBlock.block.slot ≠ data.head.slot then .error "Head checkpoint slot mismatch"
    else if ¬ s.checkpointIsAncestor data.source data.target then
      .error "Source checkpoint must be ancestor of target"
    else if ¬ s.checkpointIsAncestor data.target data.head then
      .error "Target checkpoint must be ancestor of head"
    else if ¬ s.checkpointIsAncestor s.latestFinalized data.head then
      .error "Head checkpoint must descend from the finalized block"
    else if ¬ data.slot ≥ headBlock.block.slot then .error "Attestation slot precedes head"
    else if ¬ data.slot * INTERVALS_PER_SLOT ≤ s.time + GOSSIP_DISPARITY_INTERVALS then
      .error "Attestation too far in future"
    else pure ()

/-- Has the validator a payload, new or known, for other data at the same slot? -/
def Store.alreadyVotedThisSlot (s : Store) (data : AttestationData) (dataRoot : B256)
    (validator : Nat) : Bool :=
  (s.latestNewAggregatedPayloads.keys ++ s.latestKnownAggregatedPayloads.keys).any fun key =>
    key.validatorId = validator && key.dataRoot ≠ dataRoot &&
      ((s.attestationDataByRoot.get? key.dataRoot).map (·.slot)) == some data.slot

/-- The aggregate as a new payload of one signer, unless it voted other data this slot. -/
def Store.recordNewPayload (s : Store) (data : AttestationData) (dataRoot : B256)
    (proof : PayloadProof) (validator : Nat) : Store :=
  if s.alreadyVotedThisSlot data dataRoot validator then s
  else
    let key : SignatureKey := ⟨validator, dataRoot⟩
    { s with
      latestNewAggregatedPayloads := s.latestNewAggregatedPayloads.insert key
        (s.latestNewAggregatedPayloads.getD key [] ++ [proof]) }

/-- The signers' attestation keys, from the state of the target block. -/
def attestationPublicKeys (state : LeanState) (validatorIds : List Nat) :
    Except String (List PublicKey) :=
  validatorIds.mapM fun validator =>
    match state.validators.data[validator]? with
    | some v => .ok v.attestationPublicKey
    | none => .error s!"Validator {validator} not found in state"

/-- The post-state of an attestation's target block. -/
def Store.targetState (s : Store) (targetRoot : B256) : Except String LeanState :=
  match s.states.get? targetRoot with
  | some state => .ok state
  | none => .error s!"No state available for target {targetRoot}"

variable (T : TreeHash)

/-- `Store::on_gossip_aggregated_attestation_core`. -/
def onGossipAggregatedAttestation (verifyAggregate : AggregateVerifier)
    (signedAttestation : SignedAggregatedAttestation) (verify : Bool) : StoreM Unit := do
  let s ← get
  let data := signedAttestation.data
  let proof := signedAttestation.proof
  let _ ← MonadExcept.ofExcept (s.validateAttestation data)
  let dataRoot := T.dataRoot data
  let validatorIds := proof.toValidatorIndices
  if validatorIds.isEmpty then throw "Aggregated attestation has no participants"
  else
    let state ← MonadExcept.ofExcept (s.targetState data.target.root)
    let publicKeys ← MonadExcept.ofExcept (attestationPublicKeys state validatorIds)
    if verify ∧ ¬ verifyAggregate proof.proof publicKeys then
      throw "Aggregated signature verification failed"
    else
      modify fun s =>
        let s := { s with
          attestationDataByRoot := s.attestationDataByRoot.insert dataRoot data }
        validatorIds.foldl (fun s validator => s.recordNewPayload data dataRoot proof validator) s

/-! ## Accepting attestations -/

/-- The drain of the new payloads, each appended to the known ones under its key. -/
def Store.mergeNewPayloads (s : Store) : Store :=
  let payloads := s.latestNewAggregatedPayloads.entries
  let s := { s with latestNewAggregatedPayloads := AssocMap.empty }
  payloads.foldl (fun s (signatureKey, newProofs) =>
      { s with
        latestKnownAggregatedPayloads := s.latestKnownAggregatedPayloads.insert signatureKey
          (s.latestKnownAggregatedPayloads.getD signatureKey [] ++ newProofs) })
    s

/-- The known payloads of each validator below the latest slot it has known data for are
dropped. Data no longer in the table count as slot 0. -/
def Store.dropSupersededPayloads (s : Store) : Store :=
  let known := s.latestKnownAggregatedPayloads.keys
  let slotOf := fun (key : SignatureKey) =>
    ((s.attestationDataByRoot.get? key.dataRoot).map (·.slot)).getD 0
  let validatorMaxSlot := fun validator =>
    ((known.filter (·.validatorId = validator)).map slotOf).foldl max 0
  let superseded := known.filter fun key => slotOf key < validatorMaxSlot key.validatorId
  if superseded.isEmpty then s
  else
    { s with
      latestKnownAggregatedPayloads :=
        s.latestKnownAggregatedPayloads.retain fun key _ => key ∉ superseded }

/-- `Store::accept_new_attestations`. -/
def acceptNewAttestations : StoreM Unit := do
  modify Store.mergeNewPayloads
  modify Store.dropSupersededPayloads
  updateHead

/-- The root `update_safe_target` stores: LMD GHOST over the new payloads, counting only
blocks with two thirds of the head state's validators behind them. -/
def Store.safeTargetRoot (s : Store) : Except String B256 := do
  let headState ← match s.states.get? s.head with
    | some state => .ok state
    | none => .error "Failed to get head state for safe target update"
  let minTargetScore := (headState.validators.len * 2 + 2) / 3
  let attestations :=
    s.extractAttestationsFromAggregatedPayloads s.latestNewAggregatedPayloads.keys
  let (newSafeTargetRoot, _) ← s.computeLmdGhostHead (attestations.entries.map Prod.snd)
    s.latestJustified.root minTargetScore
  pure newSafeTargetRoot

/-- `Store::update_safe_target`. -/
def updateSafeTarget : StoreM Unit := do
  let s ← get
  let root ← MonadExcept.ofExcept s.safeTargetRoot
  set { s with safeTarget := root }

/-! ## The clock -/

/-- `Store::tick_interval`. Under `devnet5` interval 2 does nothing here, so the aggregator
flag of `on_tick` has no effect. -/
def tickInterval (hasProposal : Bool) : StoreM Unit := do
  modify fun s => { s with time := s.time + 1 }
  let s ← get
  let currentInterval := s.time % INTERVALS_PER_SLOT
  if currentInterval = 0 then
    if hasProposal then acceptNewAttestations else pure ()
  else if currentInterval = 3 then updateSafeTarget
  else if currentInterval = 4 then acceptNewAttestations
  else pure ()

/-- The loop of `on_tick`: one interval at a time up to `tickIntervalTime`. The fuel is the
number of intervals left, one per pass. -/
def tickLoop (tickIntervalTime : Nat) (hasProposal : Bool) : Nat → StoreM Unit
  | 0 => pure ()
  | fuel + 1 => do
    let s ← get
    if s.time < tickIntervalTime then
      tickInterval (hasProposal && s.time + 1 == tickIntervalTime)
      tickLoop tickIntervalTime hasProposal fuel
    else pure ()

/-- `Store::genesis_time`: read from the head state. -/
def Store.genesisTime (s : Store) : Except String Nat :=
  match s.states.get? s.head with
  | some headState => .ok headState.config.genesisTime
  | none => .error "Head state not found while reading genesis time"

/-- `Store::on_tick`, with `seconds_per_slot` of the network spec. -/
def onTick (secondsPerSlot time : Nat) (hasProposal : Bool) : StoreM Unit := do
  let s ← get
  let genesisTime ← MonadExcept.ofExcept s.genesisTime
  if time < genesisTime then pure ()
  else
    let timeDeltaMs := (time - genesisTime) * 1000
    let tickIntervalTime := timeDeltaMs * INTERVALS_PER_SLOT / (secondsPerSlot * 1000)
    tickLoop tickIntervalTime hasProposal (tickIntervalTime - s.time)

/-! ## Pruning -/

/-- `Store::prune_stale_attestation_data`. -/
def Store.pruneStaleAttestationData (s : Store) : Store :=
  let finalizedSlot := s.latestFinalized.slot
  -- `prune_finalized`: index entries below the finalized slot go
  let s := { s with
    childrenIndex := s.childrenIndex.retain fun _ entry => ¬ entry.slot < finalizedSlot }
  let cutoffSlot := max finalizedSlot (s.headSlot - ATTESTATION_RETENTION_SLOTS)
  let protectedRoots := s.latestKnownAggregatedPayloads.keys.map (·.dataRoot) ++
    s.latestNewAggregatedPayloads.keys.map (·.dataRoot)
  let staleRoots : List B256 := (s.attestationDataByRoot.entries.filter fun (root, data) =>
      (data.target.slot ≤ finalizedSlot ∨ data.slot < cutoffSlot) ∧
        root ∉ protectedRoots).map Prod.fst
  if staleRoots.isEmpty then s
  else
    { s with
      attestationDataByRoot := s.attestationDataByRoot.retain fun root _ => root ∉ staleRoots
      latestNewAggregatedPayloads :=
        s.latestNewAggregatedPayloads.retain fun key _ => key.dataRoot ∉ staleRoots
      latestKnownAggregatedPayloads :=
        s.latestKnownAggregatedPayloads.retain fun key _ => key.dataRoot ∉ staleRoots
      attestationSignatures :=
        s.attestationSignatures.retain fun key _ => key.dataRoot ∉ staleRoots }

/-! ## Every operation -/

/-- The store's operations, with their arguments. -/
inductive StoreOp where
  | onBlock (signedBlock : SignedBlock) (verifySignatures : Bool)
  | acceptNewAttestations
  | updateHead
  | onTick (time : Nat) (hasProposal : Bool)
  | onGossipAggregatedAttestation (signedAttestation : SignedAggregatedAttestation)
      (verify : Bool)
  | pruneStaleAttestationData

/-- One operation, under the signature verdicts and the network's `seconds_per_slot`. -/
def StoreOp.run (verifyBlockProof : BlockProofVerifier) (verifyAggregate : AggregateVerifier)
    (secondsPerSlot : Nat) : StoreOp → StoreM Unit
  | .onBlock signedBlock verifySignatures =>
    Ream.ForkChoice.onBlock T verifyBlockProof signedBlock verifySignatures
  | .acceptNewAttestations => Ream.ForkChoice.acceptNewAttestations
  | .updateHead => Ream.ForkChoice.updateHead
  | .onTick time hasProposal => Ream.ForkChoice.onTick secondsPerSlot time hasProposal
  | .onGossipAggregatedAttestation signedAttestation verify =>
    Ream.ForkChoice.onGossipAggregatedAttestation T verifyAggregate signedAttestation verify
  | .pruneStaleAttestationData => modify Store.pruneStaleAttestationData

/-- The store after a sequence of operations. A failed operation keeps its writes and the
node goes on with the next. -/
def runOps (verifyBlockProof : BlockProofVerifier) (verifyAggregate : AggregateVerifier)
    (secondsPerSlot : Nat) : List StoreOp → Store → Store
  | [], s => s
  | op :: ops, s =>
    runOps verifyBlockProof verifyAggregate secondsPerSlot ops
      ((op.run T verifyBlockProof verifyAggregate secondsPerSlot).run s).state

end Ream.ForkChoice
