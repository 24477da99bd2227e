import Ream.ForkChoice.OnBlock

/-!
# Block production

`Store::build_block` with its two vote-selection strategies, `select_round_based` and
`select_tiered`, and `seal_block`. Hash maps and sets iterate in the order of the lists that hold
them; metrics are left out.
-/

namespace Ream.ForkChoice

open Ssz Ream.Consensus

variable (T : TreeHash)

/-! ## Covering votes with payloads -/

/-- The validators of each attestation data, in the order the votes come. -/
def groupByData (attestations : List AggregatedAttestations) :
    AssocMap AttestationData (List Nat) :=
  attestations.foldl (fun groups attestation =>
      groups.insert attestation.data (groups.getD attestation.data [] ++ [attestation.validatorId]))
    AssocMap.empty

/-- The candidate proof covering the most uncovered validators; a later one replaces the
best only with a strictly larger intersection. -/
def bestProof (uncovered : List Nat) (candidates : List PayloadProof) :
    Option (PayloadProof × List Nat) :=
  candidates.foldl (fun best proof =>
      let intersection := uncovered.filter (· ∈ proof.toValidatorIndices)
      if intersection.length > ((best.map Prod.snd).getD []).length then some (proof, intersection)
      else best)
    none

/-- The `while !uncovered_indices.is_empty()` loop for one data: take an uncovered
validator, use the payload of its key that covers most, and drop what it covers. Each pass
drops at least one validator, so the number of validators is enough fuel. -/
def coverLoop (payloads : AssocMap SignatureKey (List PayloadProof)) (data : AttestationData)
    (dataRoot : B256) : Nat → List Nat → List (AggregatedAttestation × PayloadProof) →
      List (AggregatedAttestation × PayloadProof)
  | 0, _, results => results
  | _ + 1, [], results => results
  | fuel + 1, targetId :: rest, results =>
    match payloads.get? ⟨targetId, dataRoot⟩ with
    | none => coverLoop payloads data dataRoot fuel rest results
    | some candidates =>
      match bestProof (targetId :: rest) candidates with
      | some (proof, maxIntersection) =>
        coverLoop payloads data dataRoot fuel
          ((targetId :: rest).filter (· ∉ maxIntersection))
          (results ++ [(⟨proof.participants, data⟩, proof)])
      | none => coverLoop payloads data dataRoot fuel rest results

/-- `Store::select_aggregated_proofs`: the aggregates of the block and the payloads they
come from, in parallel. -/
def Store.selectAggregatedProofs (s : Store) (attestations : List AggregatedAttestations) :
    List AggregatedAttestation × List PayloadProof :=
  let results := (groupByData attestations).entries.foldl (fun results (data, validatorIds) =>
      let uncoveredIndices := validatorIds.dedup
      coverLoop s.latestKnownAggregatedPayloads data (T.dataRoot data) uncoveredIndices.length
        uncoveredIndices results)
    []
  results.unzip

/-- `Store::seal_block`: the block over the selected votes, the payloads it uses and its
post-state. -/
def Store.sealBlock (s : Store) (headState : LeanState) (attestations : List AggregatedAttestations)
    (slot proposerIndex : Nat) (parentRoot : B256) :
    Except String (Block × List PayloadProof × LeanState) := do
  let (aggregatedAttestations, aggregatedProofs) := s.selectAggregatedProofs T attestations
  let attestationsList ← (VariableList.new aggregatedAttestations).mapError Error.debug
  let candidateFinalBlock : Block :=
    { slot, proposerIndex, parentRoot, stateRoot := B256.ZERO, body := ⟨attestationsList⟩ }
  let postState ← processSlots T headState slot
  let postState ← processBlock T postState candidateFinalBlock
  pure ({ candidateFinalBlock with stateRoot := T.stateRoot postState }, aggregatedProofs,
    postState)

/-! ## The context of a build -/

/-- `BuildContext`: the parent's state and the latest known attestation of each validator;
the block and payload tables are read from the store. -/
structure BuildContext where
  headState : LeanState
  availableSignedAttestations : AssocMap Nat SignedAttestation

def Store.loadBuildContext (s : Store) (parentRoot : B256) : Except String BuildContext :=
  match s.states.get? parentRoot with
  | some headState => .ok ⟨headState, s.latestKnownAttestations⟩
  | none => .error "State not found for head root"

/-- `extended_historical_block_hashes`: the parent's history, the parent, and a zero for
each empty slot up to the new block. -/
def extendedHistoricalBlockHashes (headState : LeanState) (parentRoot : B256) (slot : Nat) :
    List B256 :=
  headState.historicalBlockHashes.data ++ [parentRoot] ++
    List.replicate (slot - headState.latestBlockHeader.slot - 1) B256.ZERO

/-! ## Round-based selection -/

/-- The checkpoints the rounds have reached. -/
structure RoundState where
  attestations : VariableList AggregatedAttestations 4096
  currentJustified : Checkpoint
  currentFinalizedSlot : Nat
  currentJustifiedSlots : BitList MAX_HISTORICAL_BLOCK_HASHES
  processedAttestationData : List AttestationData
  childPayloadsConsumed : Nat

/-- Is bit `slot` of a justified bit list set? The rounds read it at the slot itself. -/
def bitAt (justifiedSlots : BitList MAX_HISTORICAL_BLOCK_HASHES) (slot : Nat) : Bool :=
  decide (slot < justifiedSlots.len) && justifiedSlots.getD slot

/-- The `continue` checks of one candidate in a round: the head block is known, the data is
on the chain, the source is justified, the target is not yet (unless it is the genesis self
vote) and is justifiable, the vote is new and has a known payload. -/
def Store.roundCandidate (s : Store) (ctx : BuildContext) (extended : List B256)
    (round : RoundState) (signedAttestation : SignedAttestation) : Bool :=
  let data := signedAttestation.message
  let headState := ctx.headState
  let sourceIsJustified := decide (data.source.slot ≤ round.currentFinalizedSlot) ||
    bitAt round.currentJustifiedSlots data.source.slot ||
    bitAt headState.justifiedSlots data.source.slot || decide (data.source = round.currentJustified)
  let isGenesisSelfVote := decide (data.source.slot = 0 ∧ data.target.slot = 0)
  let targetIsJustified := decide (data.target.slot ≤ round.currentFinalizedSlot) ||
    bitAt round.currentJustifiedSlots data.target.slot ||
    bitAt headState.justifiedSlots data.target.slot || decide (data.target = round.currentJustified)
  (s.blocks.get? data.head.root).isSome &&
    attestationDataMatchesChain extended data &&
    sourceIsJustified &&
    !(!isGenesisSelfVote && targetIsJustified) &&
    !(!isGenesisSelfVote && !isJustifiableAfter data.target.slot round.currentFinalizedSlot) &&
    !(round.attestations.data.contains ⟨signedAttestation.validatorId, data⟩) &&
    (s.latestKnownAggregatedPayloads.get? ⟨signedAttestation.validatorId, T.dataRoot data⟩).isSome

/-- One scan over the sorted candidates: the new votes, the data taken so far and the
payload count. The scan stops at the first candidate of new data once
`MAX_ATTESTATIONS_DATA` data are taken. -/
def Store.roundScan (s : Store) (ctx : BuildContext) (extended : List B256) (round : RoundState) :
    List SignedAttestation → VariableList AggregatedAttestations 4096 → List AttestationData →
      Nat → Except String (VariableList AggregatedAttestations 4096 × List AttestationData × Nat)
  | [], newAttestations, processed, consumed => .ok (newAttestations, processed, consumed)
  | signedAttestation :: rest, newAttestations, processed, consumed =>
    let data := signedAttestation.message
    if processed.length ≥ MAX_ATTESTATIONS_DATA ∧ data ∉ processed then
      .ok (newAttestations, processed, consumed)
    else if !s.roundCandidate T ctx extended round signedAttestation then
      s.roundScan ctx extended round rest newAttestations processed consumed
    else
      match newAttestations.push ⟨signedAttestation.validatorId, data⟩ with
      | .error err => .error s!"Could not append attestation: {err.debug}"
      | .ok newAttestations =>
        s.roundScan ctx extended round rest newAttestations
          (if data ∈ processed then processed else processed ++ [data]) (consumed + 1)

/-- The aggregation bits of one data's validators. -/
def votersBits (ids : List Nat) : Except String (BitList VALIDATOR_REGISTRY_LIMIT) := do
  let bits ← (BitList.withCapacity (ids.foldl (fun m id => max m (id + 1)) 0)).mapError
    fun err => s!"BitList error: {err.debug}"
  ids.foldlM (fun bits id => (bits.set id true).mapError fun err => s!"BitList error: {err.debug}")
    bits

/-- The compaction of a round: one aggregate per attestation data. -/
def compactAttestations (attestations : List AggregatedAttestations) :
    Except String (VariableList AggregatedAttestation 4096) := do
  let aggregated ← (groupByData attestations).entries.mapM fun (message, ids) => do
    let bits ← votersBits ids
    pure (⟨bits, message⟩ : AggregatedAttestation)
  (VariableList.new aggregated).mapError fun err => s!"Limit exceeded: {err.debug}"

/-- Append a round's new votes. -/
def appendVotes (attestations : VariableList AggregatedAttestations 4096)
    (newAttestations : List AggregatedAttestations) :
    Except String (VariableList AggregatedAttestations 4096) :=
  newAttestations.foldlM (fun attestations attestation =>
      (attestations.push attestation).mapError fun err =>
        s!"Could not append attestation: {err.debug}")
    attestations

/-- The rounds. A repeated round has added a vote not yet in the list of at most 4096, so
4097 passes are enough fuel. -/
def Store.roundLoop (s : Store) (ctx : BuildContext) (extended : List B256)
    (sortedCandidates : List SignedAttestation) (slot proposerIndex : Nat) (parentRoot : B256) :
    Nat → RoundState → Except String (List AggregatedAttestations × Nat)
  | 0, round => .ok (round.attestations.data, round.childPayloadsConsumed)
  | fuel + 1, round => do
    let (newAttestations, processed, consumed) ← s.roundScan T ctx extended round
      sortedCandidates VariableList.empty round.processedAttestationData
      round.childPayloadsConsumed
    if newAttestations.data.isEmpty then .ok (round.attestations.data, consumed)
    else
      let attestations ← appendVotes round.attestations newAttestations.data
      let attestationsList ← compactAttestations attestations.data
      let candidateBlock : Block :=
        { slot, proposerIndex, parentRoot, stateRoot := B256.ZERO, body := ⟨attestationsList⟩ }
      let advancedState ← processSlots T ctx.headState slot
      let advancedState ← processBlock T advancedState candidateBlock
      if advancedState.latestJustified ≠ round.currentJustified ∨
          advancedState.latestFinalized.slot ≠ round.currentFinalizedSlot then
        s.roundLoop ctx extended sortedCandidates slot proposerIndex parentRoot fuel
          { attestations
            currentJustified := advancedState.latestJustified
            currentFinalizedSlot := advancedState.latestFinalized.slot
            currentJustifiedSlots := advancedState.justifiedSlots
            processedAttestationData := processed
            childPayloadsConsumed := consumed }
      else .ok (attestations.data, consumed)

/-- `Store::select_round_based`. -/
def Store.selectRoundBased (s : Store) (ctx : BuildContext) (extended : List B256)
    (attestations : Option (VariableList AggregatedAttestations 4096)) (slot proposerIndex : Nat)
    (parentRoot : B256) : Except String (List AggregatedAttestations × Nat) :=
  let headState := ctx.headState
  let currentJustified := if headState.latestBlockHeader.slot = 0 then
      { headState.latestJustified with root := parentRoot }
    else headState.latestJustified
  let sortedCandidates := (ctx.availableSignedAttestations.entries.map Prod.snd).insertionSort
    fun a b => decide (a.message.target.slot < b.message.target.slot ∨
      (a.message.target.slot = b.message.target.slot ∧
        T.dataRoot a.message ≤ T.dataRoot b.message))
  s.roundLoop T ctx extended sortedCandidates slot proposerIndex parentRoot 4097
    { attestations := attestations.getD VariableList.empty
      currentJustified
      currentFinalizedSlot := headState.latestFinalized.slot
      currentJustifiedSlots := headState.justifiedSlots
      processedAttestationData := []
      childPayloadsConsumed := 0 }

/-! ## Tiered selection -/

/-- `AttestationScoreTier`, in the order the selection prefers. -/
inductive AttestationScoreTier where
  | Finalize
  | Justify
  | Build
  deriving DecidableEq, Repr

/-- The discriminant of a tier: `Finalize = 1`, `Justify = 2`, `Build = 3`. -/
def AttestationScoreTier.rank : AttestationScoreTier → Nat
  | .Finalize => 1
  | .Justify => 2
  | .Build => 3

/-- `AttestationEntryOrderingKey`: the tier, then more new voters, then the target and
attestation slots and the data root, lowest first. -/
structure OrderingKey where
  tier : AttestationScoreTier
  newVoterCount : Nat
  targetSlot : Nat
  attestationSlot : Nat
  dataRoot : B256

/-- The derived order of the key, with `Reverse` on the voter count. -/
def OrderingKey.lt (a b : OrderingKey) : Bool :=
  decide (a.tier.rank < b.tier.rank ∨ (a.tier.rank = b.tier.rank ∧
    (a.newVoterCount > b.newVoterCount ∨ (a.newVoterCount = b.newVoterCount ∧
      (a.targetSlot < b.targetSlot ∨ (a.targetSlot = b.targetSlot ∧
        (a.attestationSlot < b.attestationSlot ∨ (a.attestationSlot = b.attestationSlot ∧
          a.dataRoot < b.dataRoot))))))))

/-- `build_running_votes_by_target_root`: the voters of each tracked root in the head state. -/
def buildRunningVotesByTargetRoot (headState : LeanState) :
    Except String (AssocMap B256 (List Nat)) :=
  let validatorCount := headState.validators.len
  (headState.justificationsRoots.data.zipIdx).foldlM (fun votesByTargetRoot (targetRoot, rootIndex) => do
      let voters ← (List.range validatorCount).foldlM (fun voters validatorIndex => do
          let bit ← (headState.justificationsValidators.get
            (rootIndex * validatorCount + validatorIndex)).mapError
            fun err => s!"Failed to get justification vote bit: {err.debug}"
          pure (if bit ∧ validatorIndex ∉ voters then voters ++ [validatorIndex] else voters))
        []
      pure (votesByTargetRoot.insert targetRoot voters))
    AssocMap.empty

/-- `is_projected_slot_justified`. -/
def isProjectedSlotJustified (justifiedSlots : BitList MAX_HISTORICAL_BLOCK_HASHES)
    (finalizedSlot candidateSlot : Nat) : Bool :=
  match justifiedIndexAfter candidateSlot finalizedSlot with
  | none => decide (candidateSlot ≤ finalizedSlot)
  | some index => decide (index < justifiedSlots.len) && justifiedSlots.getD index

/-- `extend_projected_justified_slots`. -/
def extendProjectedJustifiedSlots (justifiedSlots : BitList MAX_HISTORICAL_BLOCK_HASHES)
    (finalizedSlot targetSlot : Nat) : Except String (BitList MAX_HISTORICAL_BLOCK_HASHES) :=
  match justifiedIndexAfter targetSlot finalizedSlot with
  | none => .ok justifiedSlots
  | some targetIndex =>
    let length := targetIndex + 1
    if justifiedSlots.len < length then do
      let newBitlist ← (BitList.withCapacity length).mapError
        fun err => s!"Failed to extend projected justified slots: {err.debug}"
      pure (newBitlist.union justifiedSlots)
    else .ok justifiedSlots

/-- `set_projected_justified_slot`. -/
def setProjectedJustifiedSlot (justifiedSlots : BitList MAX_HISTORICAL_BLOCK_HASHES)
    (finalizedSlot targetSlot : Nat) : Except String (BitList MAX_HISTORICAL_BLOCK_HASHES) := do
  let justifiedSlots ← extendProjectedJustifiedSlots justifiedSlots finalizedSlot targetSlot
  match justifiedIndexAfter targetSlot finalizedSlot with
  | none => pure justifiedSlots
  | some index =>
    (justifiedSlots.set index true).mapError fun err =>
      s!"Failed to set projected justified slot: {err.debug}"

/-- `shift_projected_finalized_slot`. -/
def shiftProjectedFinalizedSlot (justifiedSlots : BitList MAX_HISTORICAL_BLOCK_HASHES)
    (finalizedSlot newFinalizedSlot : Nat) : Except String (BitList MAX_HISTORICAL_BLOCK_HASHES) :=
  let delta := newFinalizedSlot - finalizedSlot
  if delta = 0 then .ok justifiedSlots
  else do
    let shifted ← (BitList.withCapacity (justifiedSlots.len - delta)).mapError
      fun err => s!"Failed to shift projected justified slots: {err.debug}"
    (List.range' delta (justifiedSlots.len - delta)).foldlM (fun shifted index =>
        if justifiedSlots.getD index then
          (shifted.set (index - delta) true).mapError
            fun err => s!"Failed to set shifted justified slot: {err.debug}"
        else .ok shifted)
      shifted

/-- The projection the tiered loop carries: the justified bits, the finalized slot and the
voters of each target root. -/
structure Projection where
  justifiedSlots : BitList MAX_HISTORICAL_BLOCK_HASHES
  finalizedSlot : Nat
  votesByTargetRoot : AssocMap B256 (List Nat)

/-- The per-data payload pool: each known data with a known head block, and the payloads of
its candidate validators. -/
def Store.aggregatedPayloads (s : Store) (candidatesByData : AssocMap AttestationData (List Nat)) :
    AssocMap B256 (AttestationData × List PayloadProof) :=
  candidatesByData.entries.foldl (fun pool (data, validatorIds) =>
      if (s.blocks.get? data.head.root).isNone then pool
      else
        let dataRoot := T.dataRoot data
        let proofs := (validatorIds.flatMap fun validatorId =>
          s.latestKnownAggregatedPayloads.getD ⟨validatorId, dataRoot⟩ []).dedup
        if proofs.isEmpty then pool else pool.insert dataRoot (data, proofs))
    AssocMap.empty

/-- Whether any slot strictly between source and target is still justifiable. -/
def noIntermediateJustifiable (sourceSlot targetSlot finalizedSlot : Nat) : Bool :=
  (List.range' (sourceSlot + 1) (targetSlot - (sourceSlot + 1))).all
    fun slot => !isJustifiableAfter slot finalizedSlot

/-- The score of one candidate data, when it passes the checks and brings new voters: its
tier, its new voters and its ordering key. -/
def Store.scoreCandidate (s : Store) (extended : List B256) (validatorCount : Nat)
    (projection : Projection) (dataRoot : B256) (candidateData : AttestationData)
    (proofs : List PayloadProof) : Option (AttestationScoreTier × List Nat × OrderingKey) :=
  let finalizedSlot := projection.finalizedSlot
  let isGenesisSelfVote := decide (candidateData.source.slot = 0 ∧ candidateData.target.slot = 0)
  if (s.blocks.get? candidateData.head.root).isNone then none
  else if !attestationDataMatchesChain extended candidateData then none
  else if !isProjectedSlotJustified projection.justifiedSlots finalizedSlot
      candidateData.source.slot then none
  else if !isGenesisSelfVote ∧ candidateData.target.slot ≤ candidateData.source.slot then none
  else if !isGenesisSelfVote ∧ !isJustifiableAfter candidateData.target.slot finalizedSlot then
    none
  else
    let priorVoters := projection.votesByTargetRoot.getD candidateData.target.root []
    let newVoters := (proofs.flatMap PayloadProof.toValidatorIndices).dedup.filter
      (· ∉ priorVoters)
    if newVoters.isEmpty then none
    else
      let totalVoters := priorVoters.length + newVoters.length
      let crossesTwoThirds := decide (3 * totalVoters ≥ 2 * validatorCount)
      let finalizesSource := crossesTwoThirds && decide (candidateData.source.slot > finalizedSlot) &&
        noIntermediateJustifiable candidateData.source.slot candidateData.target.slot finalizedSlot
      let tier := if isGenesisSelfVote || !crossesTwoThirds then AttestationScoreTier.Build
        else if finalizesSource then .Finalize else .Justify
      some (tier, newVoters,
        ⟨tier, newVoters.length, candidateData.target.slot, candidateData.slot, dataRoot⟩)

/-- The best unprocessed candidate of one pass: the least ordering key. -/
def Store.bestCandidate (s : Store) (extended : List B256) (validatorCount : Nat)
    (projection : Projection) (pool : AssocMap B256 (AttestationData × List PayloadProof))
    (processedDataRoots : List B256) :
    Option (B256 × AttestationScoreTier × List Nat × OrderingKey) :=
  pool.entries.foldl (fun best (dataRoot, candidateData, proofs) =>
      if dataRoot ∈ processedDataRoots then best
      else match s.scoreCandidate extended validatorCount projection dataRoot candidateData proofs with
        | none => best
        | some (tier, newVoters, key) =>
          match best with
          | some (_, _, _, bestKey) => if key.lt bestKey then some (dataRoot, tier, newVoters, key)
            else best
          | none => some (dataRoot, tier, newVoters, key))
    none

/-- The projection after a selected data: its target justified and its voters reset, or its
new voters counted; a finalizing data also moves the finalized slot to its source. -/
def advanceProjection (projection : Projection) (data : AttestationData)
    (tier : AttestationScoreTier) (newVoters : List Nat) : Except String Projection := do
  let projection ← if tier.rank ≤ AttestationScoreTier.Justify.rank then do
      let justifiedSlots ← setProjectedJustifiedSlot projection.justifiedSlots
        projection.finalizedSlot data.target.slot
      pure { projection with
        justifiedSlots
        votesByTargetRoot := projection.votesByTargetRoot.erase data.target.root }
    else
      let voters := projection.votesByTargetRoot.getD data.target.root []
      pure { projection with
        votesByTargetRoot := projection.votesByTargetRoot.insert data.target.root
          (voters ++ newVoters.filter (· ∉ voters)) }
  if tier = .Finalize then do
    let justifiedSlots ← shiftProjectedFinalizedSlot projection.justifiedSlots
      projection.finalizedSlot data.source.slot
    pure { projection with justifiedSlots, finalizedSlot := data.source.slot }
  else pure projection

/-- The selection passes: at most `MAX_ATTESTATIONS_DATA` data, each with every validator of
its payloads. -/
def Store.tieredLoop (s : Store) (extended : List B256) (validatorCount : Nat)
    (pool : AssocMap B256 (AttestationData × List PayloadProof)) :
    Nat → Projection → List B256 → List AggregatedAttestations →
      Except String (List AggregatedAttestations)
  | 0, _, _, selected => .ok selected
  | fuel + 1, projection, processedDataRoots, selected =>
    match s.bestCandidate extended validatorCount projection pool processedDataRoots with
    | none => .ok selected
    | some (dataRoot, tier, newVoters, _) =>
      match pool.get? dataRoot with
      | none => .error s!"Selected missing attestation data root {dataRoot}"
      | some (attestationData, proofs) => do
        let selectedParticipants := (proofs.flatMap PayloadProof.toValidatorIndices).dedup
        let selected := selected ++ selectedParticipants.map fun validatorId =>
          ⟨validatorId, attestationData⟩
        let projection ← advanceProjection projection attestationData tier newVoters
        s.tieredLoop extended validatorCount pool fuel projection
          (processedDataRoots ++ [dataRoot]) selected

/-- `Store::select_tiered`. -/
def Store.selectTiered (s : Store) (ctx : BuildContext) (extended : List B256)
    (attestations : Option (VariableList AggregatedAttestations 4096)) (slot : Nat) :
    Except String (List AggregatedAttestations) := do
  let headState := ctx.headState
  let fromStore := ctx.availableSignedAttestations.entries.map fun (_, signedAttestation) =>
    (signedAttestation.message, signedAttestation.validatorId)
  let fromCaller := ((attestations.map VariableList.data).getD []).map fun attestation =>
    (attestation.data, attestation.validatorId)
  let candidatesByData := (fromStore ++ fromCaller).foldl (fun candidates (data, validatorId) =>
      let voters := candidates.getD data []
      candidates.insert data (if validatorId ∈ voters then voters else voters ++ [validatorId]))
    AssocMap.empty
  let pool := s.aggregatedPayloads T candidatesByData
  let finalizedSlot := headState.latestFinalized.slot
  let justifiedSlots ← extendProjectedJustifiedSlots headState.justifiedSlots finalizedSlot
    (slot - 1)
  let votesByTargetRoot ← buildRunningVotesByTargetRoot headState
  s.tieredLoop extended headState.validators.len pool MAX_ATTESTATIONS_DATA
    ⟨justifiedSlots, finalizedSlot, votesByTargetRoot⟩ [] []

/-! ## `build_block` -/

/-- `BlockProductionStrategy`. -/
inductive BlockProductionStrategy where
  | RoundBased
  | Tiered
  deriving DecidableEq, Repr

/-- The selection of `build_block`: the votes the strategy picks. -/
def Store.selectAttestations (s : Store) (strategy : BlockProductionStrategy) (ctx : BuildContext)
    (extended : List B256) (attestations : Option (VariableList AggregatedAttestations 4096))
    (slot proposerIndex : Nat) (parentRoot : B256) : Except String (List AggregatedAttestations) :=
  match strategy with
  | .RoundBased =>
    (s.selectRoundBased T ctx extended attestations slot proposerIndex parentRoot).map Prod.fst
  | .Tiered => s.selectTiered T ctx extended attestations slot

/-- `Store::build_block`. -/
def Store.buildBlock (s : Store) (strategy : BlockProductionStrategy) (slot proposerIndex : Nat)
    (parentRoot : B256) (attestations : Option (VariableList AggregatedAttestations 4096)) :
    Except String (Block × List PayloadProof × LeanState) := do
  let ctx ← s.loadBuildContext parentRoot
  let extended := extendedHistoricalBlockHashes ctx.headState parentRoot slot
  let selectedAttestations ←
    s.selectAttestations T strategy ctx extended attestations slot proposerIndex parentRoot
  s.sealBlock T ctx.headState selectedAttestations slot proposerIndex parentRoot

end Ream.ForkChoice
