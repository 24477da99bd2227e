import Ream.Beacon.Rewards

/-!
# The Electra block operations and the consolidation queue

The slashings, voluntary exits and execution-layer requests of `electra/beacon_state.rs`, with
`process_pending_consolidations` and `process_slashings`. `ElectraState` adds the consolidation
queue to the registry record; the BLS checks are parameters (`SignatureChecks`).
-/

namespace Ream.Beacon.Electra

open Ream.Consensus (B256)

def SHARD_COMMITTEE_PERIOD : Nat := 256

def FULL_EXIT_REQUEST_AMOUNT : UInt64 := 0

def UNSET_DEPOSIT_REQUESTS_START_INDEX : Nat := 18446744073709551615

def PENDING_CONSOLIDATIONS_LIMIT : Nat := 262144

def PENDING_PARTIAL_WITHDRAWALS_LIMIT : Nat := 134217728

structure VoluntaryExit where
  epoch : Nat
  validatorIndex : Nat
  deriving DecidableEq, Repr

structure SignedVoluntaryExit where
  message : VoluntaryExit
  signature : Nat
  deriving DecidableEq, Repr

structure SignedBeaconBlockHeader where
  message : BeaconBlockHeader
  signature : Nat
  deriving DecidableEq, Repr

structure ProposerSlashing where
  signedHeader1 : SignedBeaconBlockHeader
  signedHeader2 : SignedBeaconBlockHeader
  deriving DecidableEq, Repr

structure AttestationData where
  slot : Nat
  index : Nat
  beaconBlockRoot : B256
  source : Checkpoint
  target : Checkpoint
  deriving DecidableEq, Repr

structure IndexedAttestation where
  attestingIndices : List Nat
  data : AttestationData
  signature : Nat
  deriving DecidableEq, Repr

structure AttesterSlashing where
  attestation1 : IndexedAttestation
  attestation2 : IndexedAttestation
  deriving DecidableEq, Repr

/-- An execution-layer deposit; the address is the last twenty bytes, as a number. -/
structure DepositRequest where
  publicKey : PublicKey
  withdrawalCredentials : B256
  amount : UInt64
  signature : Nat
  index : Nat
  deriving DecidableEq, Repr

structure WithdrawalRequest where
  sourceAddress : Nat
  validatorPublicKey : PublicKey
  amount : UInt64
  deriving DecidableEq, Repr

structure ConsolidationRequest where
  sourceAddress : Nat
  sourcePublicKey : PublicKey
  targetPublicKey : PublicKey
  deriving DecidableEq, Repr

def MAX_DEPOSITS : Nat := 16

structure DepositData where
  publicKey : PublicKey
  withdrawalCredentials : B256
  amount : UInt64
  signature : Nat
  deriving DecidableEq, Repr

/-- A deposit of the deposit contract, with the Merkle branch of its data. -/
structure Deposit where
  proof : List B256
  data : DepositData
  deriving DecidableEq, Repr

structure PendingConsolidation where
  sourceIndex : Nat
  targetIndex : Nat
  deriving DecidableEq, Repr

/-- The BLS checks of the block operations, each over its domain: an exit under the validator's
key, a header under its proposer's, and `fast_aggregate_verify` of an indexed attestation under
its attesters' keys, in order. -/
structure SignatureChecks where
  verifyVoluntaryExit : SignedVoluntaryExit → PublicKey → Bool
  verifyBlockHeader : SignedBeaconBlockHeader → PublicKey → Bool
  fastAggregateVerify : IndexedAttestation → List PublicKey → Bool

/-- `Validator::is_slashable_validator`. -/
def Validator.isSlashableValidator (v : Validator) (epoch : Nat) : Bool :=
  !v.slashed && decide (v.activationEpoch ≤ epoch) && decide (epoch < v.withdrawableEpoch)

/-- `is_slashable_attestation_data`: a double vote or a surround vote. -/
def isSlashableAttestationData (data1 data2 : AttestationData) : Bool :=
  (data1 != data2 && data1.target.epoch == data2.target.epoch) ||
    (decide (data1.source.epoch < data2.source.epoch) &&
      decide (data2.target.epoch < data1.target.epoch))

/-- `is_sorted_and_unique`: `indices.windows(2).all(|w| w[0] < w[1])`. -/
def isSortedAndUnique : List Nat → Bool
  | a :: b :: rest => decide (a < b) && isSortedAndUnique (b :: rest)
  | _ => true

/-- The Electra state with its pending consolidation queue. -/
structure ElectraState where
  state : BeaconState
  pendingConsolidations : List PendingConsolidation
  deriving DecidableEq

namespace BeaconState

variable (s : BeaconState)

/-- The first validator with the public key, and its index. -/
def findValidator (publicKey : PublicKey) : Option (Validator × Nat) :=
  s.validators.zipIdx.find? fun (validator, _) => validator.publicKey = publicKey

def getPendingBalanceToWithdraw (validatorIndex : Nat) : UInt64 :=
  ((s.pendingPartialWithdrawals.filter (·.validatorIndex = validatorIndex)).map (·.amount)).sum

/-! ## Slashings -/

def validateProposerSlashing (checks : SignatureChecks) (proposerSlashing : ProposerSlashing) :
    Except String Nat := do
  let header1 := proposerSlashing.signedHeader1.message
  let header2 := proposerSlashing.signedHeader2.message
  if header1.slot ≠ header2.slot then throw "Header slots must match"
  if header1.proposerIndex ≠ header2.proposerIndex then throw "Proposer indices must match"
  if header1 = header2 then throw "Headers must be different"
  let proposerIndex := header1.proposerIndex
  let some proposer := s.validators[proposerIndex]? | throw "Invalid proposer index"
  if !proposer.isSlashableValidator s.getCurrentEpoch then throw "Proposer is not slashable"
  -- the loop over the two signed headers
  if !checks.verifyBlockHeader proposerSlashing.signedHeader1 proposer.publicKey then
    throw "BLS Signature verification failed!"
  if !checks.verifyBlockHeader proposerSlashing.signedHeader2 proposer.publicKey then
    throw "BLS Signature verification failed!"
  pure proposerIndex

/-- `process_proposer_slashing`, with the beacon proposer index as an argument. -/
def processProposerSlashing (checks : SignatureChecks) (beaconProposerIndex : Nat)
    (proposerSlashing : ProposerSlashing) : Except String BeaconState := do
  let proposerIndex ← s.validateProposerSlashing checks proposerSlashing
  s.slashValidator beaconProposerIndex proposerIndex none

/-- `is_valid_indexed_attestation`: a key lookup past the registry is an error. -/
def isValidIndexedAttestation (checks : SignatureChecks) (indexedAttestation : IndexedAttestation) :
    Except String Bool := do
  let indices := indexedAttestation.attestingIndices
  if indices.isEmpty || !isSortedAndUnique indices then return false
  let publicKeys ← indices.mapM fun index =>
    match s.validators[index]? with
    | some validator => .ok validator.publicKey
    | none => .error "Invalid index"
  pure (checks.fastAggregateVerify indexedAttestation publicKeys)

/-- `get_slashable_attester_indices`: the two attesting sets, as lists of distinct indices. -/
def getSlashableAttesterIndices (checks : SignatureChecks) (attesterSlashing : AttesterSlashing) :
    Except String (List Nat × List Nat) := do
  let attestation1 := attesterSlashing.attestation1
  let attestation2 := attesterSlashing.attestation2
  if !isSlashableAttestationData attestation1.data attestation2.data then
    throw "Attestations are not slashable"
  if !(← s.isValidIndexedAttestation checks attestation1) then throw "First attestation is invalid"
  if !(← s.isValidIndexedAttestation checks attestation2) then throw "Second attestation is invalid"
  pure (attestation1.attestingIndices.dedup, attestation2.attestingIndices.dedup)

end BeaconState

/-- One pass of the loop of `process_attester_slashing`: slash the validator if it is slashable
now, and remember that one was. -/
def attesterSlashingStep (beaconProposerIndex currentEpoch : Nat) (acc : BeaconState × Bool)
    (index : Nat) : Except String (BeaconState × Bool) := do
  let validator ← vecIndex acc.1.validators index
  if validator.isSlashableValidator currentEpoch then
    let s ← acc.1.slashValidator beaconProposerIndex index none
    pure (s, true)
  else pure acc

namespace BeaconState

variable (s : BeaconState)

/-- `process_attester_slashing`: every index of both sets, in increasing order
(`indices_1.intersection(&indices_2).sorted()`), is slashed if it is slashable; at least one must
be. -/
def processAttesterSlashing (checks : SignatureChecks) (beaconProposerIndex : Nat)
    (attesterSlashing : AttesterSlashing) : Except String BeaconState := do
  let (indices1, indices2) ← s.getSlashableAttesterIndices checks attesterSlashing
  let currentEpoch := s.getCurrentEpoch
  let commonIndices := (indices1.filter (· ∈ indices2)).mergeSort
  let (s, slashedAny) ← commonIndices.foldlM
    (attesterSlashingStep beaconProposerIndex currentEpoch) (s, false)
  if !slashedAny then throw "No validator was slashed"
  pure s

end BeaconState

def PROPORTIONAL_SLASHING_MULTIPLIER_BELLATRIX : UInt64 := 3

/-- One pass of the loop of `process_slashings`: a validator slashed half a slashings vector
before its withdrawable epoch pays the correlation penalty, per increment of its effective
balance. -/
def slashingsStep (epoch : Nat) (penaltyPerEffectiveBalanceIncrement : UInt64) (s : BeaconState)
    (index : Nat) : Except String BeaconState := do
  let some validator := s.validators[index]? | throw s!"Invalid validator index: {index}"
  if validator.slashed && epoch + EPOCHS_PER_SLASHINGS_VECTOR / 2 == validator.withdrawableEpoch then
    let effectiveBalanceIncrements := validator.effectiveBalance / EFFECTIVE_BALANCE_INCREMENT
    let penalty := penaltyPerEffectiveBalanceIncrement * effectiveBalanceIncrements
    s.decreaseBalance index penalty
  else pure s

namespace BeaconState

variable (s : BeaconState)

/-- `process_slashings`, with the slashings vector, which is not part of this record, as an
argument. The sum and the product by the multiplier wrap as `u64` arithmetic does. -/
def processSlashings (slashings : List UInt64) : Except String BeaconState :=
  let epoch := s.getCurrentEpoch
  let totalBalance := s.getTotalActiveBalance
  let adjustedTotalSlashingBalance :=
    min (slashings.sum * PROPORTIONAL_SLASHING_MULTIPLIER_BELLATRIX) totalBalance
  let increment := EFFECTIVE_BALANCE_INCREMENT
  let penaltyPerEffectiveBalanceIncrement := adjustedTotalSlashingBalance / (totalBalance / increment)
  (List.range s.validators.length).foldlM
    (slashingsStep epoch penaltyPerEffectiveBalanceIncrement) s

/-! ## Exits and execution-layer requests -/

def validateVoluntaryExit (checks : SignatureChecks) (signedVoluntaryExit : SignedVoluntaryExit) :
    Except String Unit := do
  let voluntaryExit := signedVoluntaryExit.message
  let validatorIndex := voluntaryExit.validatorIndex
  let some validator := s.validators[validatorIndex]? | throw "Invalid validator index"
  if !validator.isActiveValidator s.getCurrentEpoch then throw "Validator is not active"
  if validator.exitEpoch ≠ FAR_FUTURE_EPOCH then throw "Exit has already been initiated"
  if s.getCurrentEpoch < voluntaryExit.epoch then throw "Exit is not yet valid"
  if s.getPendingBalanceToWithdraw validatorIndex ≠ 0 then
    throw "Validator has pending withdrawals"
  -- `activation_epoch.checked_add(SHARD_COMMITTEE_PERIOD)` on a `u64`
  if 2 ^ 64 ≤ validator.activationEpoch + SHARD_COMMITTEE_PERIOD then
    throw "Failed to calculate earliest exit epoch"
  if s.getCurrentEpoch < validator.activationEpoch + SHARD_COMMITTEE_PERIOD then
    throw "Validator has not been active long enough"
  if !checks.verifyVoluntaryExit signedVoluntaryExit validator.publicKey then
    throw "BLS Signature verification failed!"

def processVoluntaryExit (checks : SignatureChecks) (signedVoluntaryExit : SignedVoluntaryExit) :
    Except String BeaconState := do
  s.validateVoluntaryExit checks signedVoluntaryExit
  s.initiateValidatorExit signedVoluntaryExit.message.validatorIndex

/-- `process_deposit_request`: the first request fixes `deposit_requests_start_index`, and every
request is queued with the current slot. -/
def processDepositRequest (depositRequest : DepositRequest) : BeaconState :=
  let s := if s.depositRequestsStartIndex = UNSET_DEPOSIT_REQUESTS_START_INDEX then
    { s with depositRequestsStartIndex := depositRequest.index } else s
  { s with pendingDeposits := s.pendingDeposits ++ [⟨depositRequest.publicKey,
    depositRequest.withdrawalCredentials, depositRequest.amount, depositRequest.signature, s.slot⟩] }

/-- `process_deposit`: the Merkle branch of the deposit at `eth1_deposit_index`, then the
index moves on and the deposit is applied. -/
def processDeposit (isValidDepositBranch : Deposit → Nat → Bool)
    (isValidDepositSignature : PendingDeposit → Bool) (deposit : Deposit) :
    Except String BeaconState := do
  if !isValidDepositBranch deposit s.eth1DepositIndex then
    throw ("Condition failed: is_valid_merkle_branch(deposit.data.tree_hash_root(), " ++
      "&deposit.proof, DEPOSIT_CONTRACT_TREE_DEPTH + 1, self.eth1_deposit_index, " ++
      "self.eth1_data.deposit_root)")
  let s := { s with eth1DepositIndex := (s.eth1DepositIndex + 1) % 2 ^ 64 }
  pure (s.applyDeposit isValidDepositSignature deposit.data.publicKey
    deposit.data.withdrawalCredentials deposit.data.amount deposit.data.signature)

/-- `process_withdrawal_request`. A request that fails a check is ignored. A full exit
(`amount == FULL_EXIT_REQUEST_AMOUNT`) initiates the exit when nothing is queued for the
validator; a partial one queues what lies above `MIN_ACTIVATION_BALANCE` and the pending amount,
up to the request, at the exit churn's epoch. The validator is active, so
`activation_epoch + SHARD_COMMITTEE_PERIOD` does not wrap. -/
def processWithdrawalRequest (withdrawalRequest : WithdrawalRequest) :
    Except String BeaconState := do
  let amount := withdrawalRequest.amount
  let isFullExitRequest := amount == FULL_EXIT_REQUEST_AMOUNT
  if s.pendingPartialWithdrawals.length = PENDING_PARTIAL_WITHDRAWALS_LIMIT && !isFullExitRequest
  then return s
  let some (validator, index) := s.findValidator withdrawalRequest.validatorPublicKey | return s
  let hasCorrectCredentials := validator.hasExecutionWithdrawalCredential
  let isCorrectSourceAddress :=
    credentialAddress validator.withdrawalCredentials = withdrawalRequest.sourceAddress
  if !(hasCorrectCredentials && isCorrectSourceAddress) then return s
  if !validator.isActiveValidator s.getCurrentEpoch then return s
  if validator.exitEpoch ≠ FAR_FUTURE_EPOCH then return s
  if s.getCurrentEpoch < validator.activationEpoch + SHARD_COMMITTEE_PERIOD then return s
  let pendingBalanceToWithdraw := s.getPendingBalanceToWithdraw index
  if isFullExitRequest then
    if pendingBalanceToWithdraw = 0 then s.initiateValidatorExit index else pure s
  else
    let hasSufficientEffectiveBalance := MIN_ACTIVATION_BALANCE ≤ validator.effectiveBalance
    let some balance := s.balances[index]? | throw "Failed to get balance"
    let hasExcessBalance := MIN_ACTIVATION_BALANCE + pendingBalanceToWithdraw < balance
    if validator.hasCompoundingWithdrawalCredential && hasSufficientEffectiveBalance &&
        hasExcessBalance then
      let toWithdraw := min (balance - MIN_ACTIVATION_BALANCE - pendingBalanceToWithdraw) amount
      let (exitQueueEpoch, s) ← s.computeExitEpochAndUpdateChurn toWithdraw
      let withdrawableEpoch := (exitQueueEpoch + MIN_VALIDATOR_WITHDRAWABILITY_DELAY) % 2 ^ 64
      pure { s with
        pendingPartialWithdrawals :=
          s.pendingPartialWithdrawals ++ [⟨index, toWithdraw, withdrawableEpoch⟩] }
    else pure s

def isValidSwitchToCompoundingRequest (consolidationRequest : ConsolidationRequest) : Bool :=
  if consolidationRequest.sourcePublicKey ≠ consolidationRequest.targetPublicKey then false
  else
    match s.findValidator consolidationRequest.sourcePublicKey with
    | none => false
    | some (sourceValidator, _) =>
      credentialAddress sourceValidator.withdrawalCredentials = consolidationRequest.sourceAddress &&
        sourceValidator.hasEth1WithdrawalCredential &&
        sourceValidator.isActiveValidator s.getCurrentEpoch &&
        sourceValidator.exitEpoch = FAR_FUTURE_EPOCH

end BeaconState

namespace ElectraState

variable (es : ElectraState)

/-- The checks of `process_consolidation_request` once the request is not a switch to
compounding: the source and target indices of the consolidation to queue, or `none` where the
source returns without one. -/
def consolidationIndices (consolidationRequest : ConsolidationRequest) : Option (Nat × Nat) :=
  let s := es.state
  if consolidationRequest.sourcePublicKey = consolidationRequest.targetPublicKey then none
  else if es.pendingConsolidations.length = PENDING_CONSOLIDATIONS_LIMIT then none
  else if s.getConsolidationChurnLimit ≤ MIN_ACTIVATION_BALANCE then none
  else
    match s.findValidator consolidationRequest.sourcePublicKey with
    | none => none
    | some (sourceValidator, sourceIndex) =>
      match s.findValidator consolidationRequest.targetPublicKey with
      | none => none
      | some (targetValidator, targetIndex) =>
        let hasCorrectCredential := sourceValidator.hasExecutionWithdrawalCredential
        let isCorrectSourceAddress :=
          credentialAddress sourceValidator.withdrawalCredentials = consolidationRequest.sourceAddress
        let currentEpoch := s.getCurrentEpoch
        if !(hasCorrectCredential && isCorrectSourceAddress) then none
        else if !targetValidator.hasCompoundingWithdrawalCredential then none
        else if !sourceValidator.isActiveValidator currentEpoch ||
            !targetValidator.isActiveValidator currentEpoch then none
        else if sourceValidator.exitEpoch ≠ FAR_FUTURE_EPOCH ∨
            targetValidator.exitEpoch ≠ FAR_FUTURE_EPOCH then none
        else if currentEpoch < sourceValidator.activationEpoch + SHARD_COMMITTEE_PERIOD then none
        else if 0 < s.getPendingBalanceToWithdraw sourceIndex then none
        else some (sourceIndex, targetIndex)

/-- `process_consolidation_request`. A request from a validator to itself is a switch to
compounding credentials; any other request that passes every check exits the source at the
consolidation churn's epoch and queues the consolidation; the rest are ignored. -/
def processConsolidationRequest (consolidationRequest : ConsolidationRequest) :
    Except String ElectraState := do
  let s := es.state
  if s.isValidSwitchToCompoundingRequest consolidationRequest then
    let some (_, index) := s.findValidator consolidationRequest.sourcePublicKey
      | throw "Validator not found"
    let state ← s.switchToCompoundingValidator index
    return { es with state }
  match es.consolidationIndices consolidationRequest with
  | none => pure es
  | some (sourceIndex, targetIndex) =>
    let state ← s.initiateConsolidationExit sourceIndex
    pure { state, pendingConsolidations := es.pendingConsolidations ++ [⟨sourceIndex, targetIndex⟩] }

end ElectraState

/-- One pass of the loop of `process_pending_consolidations`, on the state and
`next_pending_consolidation`: a slashed source is passed over, a source not yet withdrawable at
the next epoch stops the loop, and otherwise the source's active balance, at most its effective
balance, moves to the target. -/
def pendingConsolidationStep (nextEpoch : Nat) (acc : BeaconState × Nat)
    (pendingConsolidation : PendingConsolidation) : Except String ((BeaconState × Nat) × Bool) := do
  let s := acc.1
  let some sourceValidator := s.validators[pendingConsolidation.sourceIndex]?
    | throw "Validator not found"
  if sourceValidator.slashed then return ((s, acc.2 + 1), false)
  if nextEpoch < sourceValidator.withdrawableEpoch then return (acc, true)
  let some balance := s.balances[pendingConsolidation.sourceIndex]? | throw "Failed to get balance"
  let sourceEffectiveBalance := min balance sourceValidator.effectiveBalance
  let s ← s.decreaseBalance pendingConsolidation.sourceIndex sourceEffectiveBalance
  let s ← s.increaseBalance pendingConsolidation.targetIndex sourceEffectiveBalance
  pure ((s, acc.2 + 1), false)

/-- `process_pending_consolidations`: the loop, then the queue without the entries it got past. -/
def ElectraState.processPendingConsolidations (es : ElectraState) : Except String ElectraState := do
  let nextEpoch := es.state.getCurrentEpoch + 1
  let acc ← Loop.breakLoop (pendingConsolidationStep nextEpoch) (es.state, 0)
    es.pendingConsolidations
  pure { state := acc.1, pendingConsolidations := es.pendingConsolidations.drop acc.2 }

/-! ## The entry points -/

/-- What the state transition leaves open to its entry points: the registry writers' parameters
and the signature checks of the block operations. -/
structure OperationsEnv where
  registry : RegistryEnv
  signatures : SignatureChecks
  /-- `is_valid_merkle_branch` of a deposit's data root and branch at a deposit index, against
  `eth1_data.deposit_root`, which is outside the record. -/
  isValidDepositBranch : Deposit → Nat → Bool

/-- An entry point of the Electra state transition that reads or writes the registry, the
balances or the queues, with the values the transition computes for it as arguments: the epoch's
rewards and penalties are `processRewardsAndPenalties`, the other rewards and penalties of block
and epoch processing are `increase_balance` and `decrease_balance`, the flag writes of
`process_attestation` are `setParticipationFlags`, a deposit of the block body is
`processDeposit` and one past its Merkle branch `applyDeposit`, and `advanceSlot` is the slot
increment of `process_slots`. -/
inductive OperationCall where
  | advanceSlot
  | increaseBalance (index : Nat) (delta : UInt64)
  | decreaseBalance (index : Nat) (delta : UInt64)
  | processProposerSlashing (beaconProposerIndex : Nat) (proposerSlashing : ProposerSlashing)
  | processAttesterSlashing (beaconProposerIndex : Nat) (attesterSlashing : AttesterSlashing)
  | setParticipationFlags (isCurrentEpoch : Bool) (participationFlagIndices : List UInt8)
      (attestingIndices : List Nat)
  | applyDeposit (publicKey : PublicKey) (withdrawalCredentials : B256) (amount : UInt64)
      (signature : Nat)
  | processDeposit (deposit : Deposit)
  | processVoluntaryExit (signedVoluntaryExit : SignedVoluntaryExit)
  | processBlsToExecutionChange (signed : SignedBLSToExecutionChange)
  | processDepositRequest (depositRequest : DepositRequest)
  | processWithdrawalRequest (withdrawalRequest : WithdrawalRequest)
  | processConsolidationRequest (consolidationRequest : ConsolidationRequest)
  | processWithdrawals (payloadWithdrawals : List Withdrawal)
  | processInactivityUpdates
  | processRewardsAndPenalties
  | processRegistryUpdates
  | processPendingDeposits
  | processPendingConsolidations
  | processSlashings (slashings : List UInt64)
  | processEffectiveBalanceUpdates
  | processParticipationFlagUpdates
  deriving DecidableEq, Repr

/-- A write of the registry record alone. -/
def ElectraState.withState (es : ElectraState) (r : Except String BeaconState) :
    Except String ElectraState := do
  let state ← r
  pure { es with state }

def OperationCall.run (env : OperationsEnv) : OperationCall → ElectraState → Except String ElectraState
  | .advanceSlot, es => .ok { es with state := { es.state with slot := es.state.slot + 1 } }
  | .increaseBalance index delta, es => es.withState (es.state.increaseBalance index delta)
  | .decreaseBalance index delta, es => es.withState (es.state.decreaseBalance index delta)
  | .processProposerSlashing beaconProposerIndex proposerSlashing, es =>
    es.withState (es.state.processProposerSlashing env.signatures beaconProposerIndex proposerSlashing)
  | .processAttesterSlashing beaconProposerIndex attesterSlashing, es =>
    es.withState (es.state.processAttesterSlashing env.signatures beaconProposerIndex attesterSlashing)
  | .setParticipationFlags isCurrentEpoch participationFlagIndices attestingIndices, es =>
    es.withState
      (es.state.setParticipationFlags isCurrentEpoch participationFlagIndices attestingIndices)
  | .applyDeposit publicKey withdrawalCredentials amount signature, es =>
    .ok { es with state := (es.state.applyDeposit env.registry.isValidDepositSignature publicKey
      withdrawalCredentials amount signature) }
  | .processDeposit deposit, es =>
    es.withState (es.state.processDeposit env.isValidDepositBranch
      env.registry.isValidDepositSignature deposit)
  | .processVoluntaryExit signedVoluntaryExit, es =>
    es.withState (es.state.processVoluntaryExit env.signatures signedVoluntaryExit)
  | .processBlsToExecutionChange signed, es =>
    es.withState (es.state.processBlsToExecutionChange env.registry.blsChangeChecks signed)
  | .processDepositRequest depositRequest, es =>
    .ok { es with state := es.state.processDepositRequest depositRequest }
  | .processWithdrawalRequest withdrawalRequest, es =>
    es.withState (es.state.processWithdrawalRequest withdrawalRequest)
  | .processConsolidationRequest consolidationRequest, es =>
    es.processConsolidationRequest consolidationRequest
  | .processWithdrawals payloadWithdrawals, es =>
    es.withState (es.state.processWithdrawals payloadWithdrawals)
  | .processInactivityUpdates, es => es.withState es.state.processInactivityUpdates
  | .processRewardsAndPenalties, es => es.withState es.state.processRewardsAndPenalties
  | .processRegistryUpdates, es => es.withState es.state.processRegistryUpdates
  | .processPendingDeposits, es =>
    es.withState (es.state.processPendingDeposits env.registry.fuluForkEpoch
      env.registry.isValidDepositSignature)
  | .processPendingConsolidations, es => es.processPendingConsolidations
  | .processSlashings slashings, es => es.withState (es.state.processSlashings slashings)
  | .processEffectiveBalanceUpdates, es => es.withState es.state.processEffectiveBalanceUpdates
  | .processParticipationFlagUpdates, es =>
    .ok { es with state := es.state.processParticipationFlagUpdates }

/-- The entry points one after another, each on the state the one before left; the first failure
ends the run. -/
def runOperations (env : OperationsEnv) (calls : List OperationCall) (es : ElectraState) :
    Except String ElectraState :=
  calls.foldlM (fun es call => call.run env es) es

/-! ## What each operation can do -/

namespace BeaconState

variable {s : BeaconState}

theorem findValidator_eq_some {publicKey : PublicKey} {validator : Validator} {index : Nat}
    (h : s.findValidator publicKey = some (validator, index)) :
    s.validators[index]? = some validator ∧ validator.publicKey = publicKey := by
  have hmem := List.mem_of_find?_eq_some h
  have hkey := List.find?_some h
  exact ⟨List.mem_zipIdx_iff_getElem?.mp hmem, by simpa using hkey⟩

theorem processDeposit_eq_ok {isValidDepositBranch : Deposit → Nat → Bool}
    {isValidDepositSignature : PendingDeposit → Bool} {deposit : Deposit} {t : BeaconState}
    (h : s.processDeposit isValidDepositBranch isValidDepositSignature deposit = .ok t) :
    t = { s with eth1DepositIndex := (s.eth1DepositIndex + 1) % 2 ^ 64 }.applyDeposit
      isValidDepositSignature deposit.data.publicKey deposit.data.withdrawalCredentials
      deposit.data.amount deposit.data.signature := by
  unfold processDeposit at h
  split at h
  · cases h
  · exact (Except.ok.inj h).symm

/-- What `process_withdrawal_request` can do: ignore the request, initiate the full exit of a
validator with nothing queued, or, while the queue has room, queue the part of the validator's
balance above `MIN_ACTIVATION_BALANCE` and its pending amount, up to the request, at the exit
churn's epoch and the withdrawability delay. -/
theorem processWithdrawalRequest_cases {withdrawalRequest : WithdrawalRequest} {t : BeaconState}
    (h : s.processWithdrawalRequest withdrawalRequest = .ok t) :
    t = s ∨
      (∃ validator index,
        s.findValidator withdrawalRequest.validatorPublicKey = some (validator, index) ∧
        validator.exitEpoch = FAR_FUTURE_EPOCH ∧
        withdrawalRequest.amount = FULL_EXIT_REQUEST_AMOUNT ∧
        s.getPendingBalanceToWithdraw index = 0 ∧ s.initiateValidatorExit index = .ok t) ∨
      (∃ validator index balance exitQueueEpoch s',
        s.findValidator withdrawalRequest.validatorPublicKey = some (validator, index) ∧
        validator.exitEpoch = FAR_FUTURE_EPOCH ∧
        s.pendingPartialWithdrawals.length ≠ PENDING_PARTIAL_WITHDRAWALS_LIMIT ∧
        s.balances[index]? = some balance ∧
        MIN_ACTIVATION_BALANCE + s.getPendingBalanceToWithdraw index < balance ∧
        s.computeExitEpochAndUpdateChurn (min (balance - MIN_ACTIVATION_BALANCE -
          s.getPendingBalanceToWithdraw index) withdrawalRequest.amount) = .ok (exitQueueEpoch, s') ∧
        t = { s' with pendingPartialWithdrawals := s'.pendingPartialWithdrawals ++
          [⟨index, min (balance - MIN_ACTIVATION_BALANCE - s.getPendingBalanceToWithdraw index)
            withdrawalRequest.amount, (exitQueueEpoch + MIN_VALIDATOR_WITHDRAWABILITY_DELAY) % 2 ^ 64⟩] }) := by
  unfold processWithdrawalRequest at h
  dsimp only at h
  split at h
  case isTrue => exact .inl (Except.pure_eq_ok.mp h).symm
  case isFalse hroom =>
  split at h
  case h_2 => exact .inl (Except.pure_eq_ok.mp h).symm
  case h_1 validator index hfind =>
  split at h
  · exact .inl (Except.pure_eq_ok.mp h).symm
  split at h
  · exact .inl (Except.pure_eq_ok.mp h).symm
  split at h
  · exact .inl (Except.pure_eq_ok.mp h).symm
  case isFalse hexit =>
  split at h
  · exact .inl (Except.pure_eq_ok.mp h).symm
  split at h
  case isTrue hfull =>
    split at h
    case isTrue hpending =>
      exact .inr (.inl ⟨validator, index, hfind, not_not.mp hexit, by simpa using hfull, hpending, h⟩)
    case isFalse => exact .inl (Except.pure_eq_ok.mp h).symm
  case isFalse hpartial =>
  split at h
  case h_2 => cases h
  case h_1 balance hbalance =>
  split at h
  case isFalse => exact .inl (Except.pure_eq_ok.mp h).symm
  case isTrue hcheck =>
  obtain ⟨⟨exitQueueEpoch, s'⟩, hchurn, h⟩ := Except.bind_eq_ok.mp h
  have hlength : s.pendingPartialWithdrawals.length ≠ PENDING_PARTIAL_WITHDRAWALS_LIMIT := by
    intro heq
    simp [heq, hpartial] at hroom
  simp only [Bool.and_eq_true, decide_eq_true_eq] at hcheck
  refine .inr (.inr ⟨validator, index, balance, exitQueueEpoch, s', hfind, not_not.mp hexit,
    hlength, hbalance, hcheck.2, hchurn, ?_⟩)
  exact (Except.pure_eq_ok.mp h).symm

end BeaconState

namespace ElectraState

variable {es : ElectraState}

theorem consolidationIndices_eq_some {consolidationRequest : ConsolidationRequest}
    {sourceIndex targetIndex : Nat}
    (h : es.consolidationIndices consolidationRequest = some (sourceIndex, targetIndex)) :
    ∃ sourceValidator targetValidator,
      es.state.findValidator consolidationRequest.sourcePublicKey =
        some (sourceValidator, sourceIndex) ∧
      es.state.findValidator consolidationRequest.targetPublicKey =
        some (targetValidator, targetIndex) ∧
      consolidationRequest.sourcePublicKey ≠ consolidationRequest.targetPublicKey ∧
      es.pendingConsolidations.length ≠ PENDING_CONSOLIDATIONS_LIMIT ∧
      MIN_ACTIVATION_BALANCE < es.state.getConsolidationChurnLimit ∧
      sourceValidator.hasExecutionWithdrawalCredential = true ∧
      credentialAddress sourceValidator.withdrawalCredentials = consolidationRequest.sourceAddress ∧
      targetValidator.hasCompoundingWithdrawalCredential = true ∧
      sourceValidator.isActiveValidator es.state.getCurrentEpoch = true ∧
      targetValidator.isActiveValidator es.state.getCurrentEpoch = true ∧
      sourceValidator.exitEpoch = FAR_FUTURE_EPOCH ∧ targetValidator.exitEpoch = FAR_FUTURE_EPOCH ∧
      sourceValidator.activationEpoch + SHARD_COMMITTEE_PERIOD ≤ es.state.getCurrentEpoch ∧
      es.state.getPendingBalanceToWithdraw sourceIndex = 0 := by
  unfold consolidationIndices at h
  simp only [Option.ite_none_left_eq_some] at h
  obtain ⟨hne, hroom, hchurn, h⟩ := h
  split at h
  case h_1 => cases h
  case h_2 sourceValidator sourceIndex' hsource =>
  split at h
  case h_1 => cases h
  case h_2 targetValidator targetIndex' htarget =>
  simp only [Option.ite_none_left_eq_some, Bool.not_eq_true', Bool.and_eq_false_iff,
    Bool.or_eq_true, not_or, Option.some.injEq, Prod.mk.injEq] at h
  obtain ⟨hcred, hcomp, ⟨hsourceActive, htargetActive⟩, ⟨hsourceExit, htargetExit⟩, hperiod,
    hpending, rfl, rfl⟩ := h
  simp only [Bool.not_eq_false, decide_eq_false_iff_not, not_not] at hcred
  exact ⟨sourceValidator, targetValidator, hsource, htarget, hne, hroom, UInt64.not_le.mp hchurn,
    hcred.1, hcred.2, by simpa using hcomp, by simpa using hsourceActive,
    by simpa using htargetActive, not_not.mp hsourceExit, not_not.mp htargetExit,
    not_lt.mp hperiod, by simpa using hpending⟩

/-- What `process_consolidation_request` can do: ignore the request, switch the source to
compounding credentials, or exit the source and queue the consolidation. -/
theorem processConsolidationRequest_cases {consolidationRequest : ConsolidationRequest}
    {es' : ElectraState} (h : es.processConsolidationRequest consolidationRequest = .ok es') :
    es' = es ∨
      (∃ validator index,
        es.state.findValidator consolidationRequest.sourcePublicKey = some (validator, index) ∧
        es.state.switchToCompoundingValidator index = .ok es'.state ∧
        es'.pendingConsolidations = es.pendingConsolidations) ∨
      (∃ sourceIndex targetIndex,
        es.consolidationIndices consolidationRequest = some (sourceIndex, targetIndex) ∧
        es.state.initiateConsolidationExit sourceIndex = .ok es'.state ∧
        es'.pendingConsolidations = es.pendingConsolidations ++ [⟨sourceIndex, targetIndex⟩]) := by
  unfold processConsolidationRequest at h
  dsimp only at h
  split at h
  case isTrue =>
    split at h
    case h_1 validator index hfind =>
      obtain ⟨state, hswitch, h⟩ := Except.bind_eq_ok.mp h
      cases Except.pure_eq_ok.mp h
      exact .inr (.inl ⟨validator, index, hfind, hswitch, rfl⟩)
    case h_2 => cases h
  case isFalse =>
    split at h
    case h_1 => exact .inl (Except.pure_eq_ok.mp h).symm
    case h_2 sourceIndex targetIndex hindices =>
      obtain ⟨state, hexit, h⟩ := Except.bind_eq_ok.mp h
      cases Except.pure_eq_ok.mp h
      exact .inr (.inr ⟨sourceIndex, targetIndex, hindices, hexit, rfl⟩)

end ElectraState

/-- What one pass of `process_pending_consolidations` can do: pass over an entry whose source is
slashed, stop at one whose source is not yet withdrawable at the next epoch, or move the source's
balance, at most its effective balance, to the target. -/
theorem pendingConsolidationStep_cases {nextEpoch : Nat} {acc acc' : BeaconState × Nat}
    {pendingConsolidation : PendingConsolidation} {done : Bool}
    (h : pendingConsolidationStep nextEpoch acc pendingConsolidation = .ok (acc', done)) :
    ∃ sourceValidator, acc.1.validators[pendingConsolidation.sourceIndex]? = some sourceValidator ∧
      ((sourceValidator.slashed = true ∧ done = false ∧ acc' = (acc.1, acc.2 + 1)) ∨
        (sourceValidator.slashed = false ∧ nextEpoch < sourceValidator.withdrawableEpoch ∧
          done = true ∧ acc' = acc) ∨
        (sourceValidator.slashed = false ∧ sourceValidator.withdrawableEpoch ≤ nextEpoch ∧
          done = false ∧ acc'.2 = acc.2 + 1 ∧
          ∃ balance s', acc.1.balances[pendingConsolidation.sourceIndex]? = some balance ∧
            acc.1.decreaseBalance pendingConsolidation.sourceIndex
              (min balance sourceValidator.effectiveBalance) = .ok s' ∧
            s'.increaseBalance pendingConsolidation.targetIndex
              (min balance sourceValidator.effectiveBalance) = .ok acc'.1)) := by
  unfold pendingConsolidationStep at h
  dsimp only at h
  split at h
  case h_2 => cases h
  case h_1 sourceValidator hsource =>
  refine ⟨sourceValidator, hsource, ?_⟩
  split at h
  case isTrue hslashed =>
    obtain ⟨rfl, rfl⟩ := Prod.mk.inj (Except.pure_eq_ok.mp h).symm
    exact .inl ⟨hslashed, rfl, rfl⟩
  case isFalse hslashed =>
  split at h
  case isTrue hlate =>
    obtain ⟨rfl, rfl⟩ := Prod.mk.inj (Except.pure_eq_ok.mp h).symm
    exact .inr (.inl ⟨by simpa using hslashed, hlate, rfl, rfl⟩)
  case isFalse hdue =>
  split at h
  case h_2 => cases h
  case h_1 balance hbalance =>
  obtain ⟨s1, hdecrease, h⟩ := Except.bind_eq_ok.mp h
  obtain ⟨s2, hincrease, h⟩ := Except.bind_eq_ok.mp h
  obtain ⟨rfl, rfl⟩ := Prod.mk.inj (Except.pure_eq_ok.mp h).symm
  exact .inr (.inr ⟨by simpa using hslashed, not_lt.mp hdue, rfl, rfl, balance, s1, hbalance,
    hdecrease, hincrease⟩)

/-- What one pass of `process_slashings` can do: charge a validator slashed half a slashings
vector before its withdrawable epoch the penalty of its effective balance, or leave the state. -/
theorem slashingsStep_cases {epoch : Nat} {penaltyPerEffectiveBalanceIncrement : UInt64}
    {s t : BeaconState} {index : Nat}
    (h : slashingsStep epoch penaltyPerEffectiveBalanceIncrement s index = .ok t) :
    ∃ validator, s.validators[index]? = some validator ∧
      ((validator.slashed = true ∧
          epoch + EPOCHS_PER_SLASHINGS_VECTOR / 2 = validator.withdrawableEpoch ∧
          s.decreaseBalance index (penaltyPerEffectiveBalanceIncrement *
            (validator.effectiveBalance / EFFECTIVE_BALANCE_INCREMENT)) = .ok t) ∨
        (¬(validator.slashed = true ∧
          epoch + EPOCHS_PER_SLASHINGS_VECTOR / 2 = validator.withdrawableEpoch) ∧ t = s)) := by
  unfold slashingsStep at h
  split at h
  case h_2 => cases h
  case h_1 validator hvalidator =>
  refine ⟨validator, hvalidator, ?_⟩
  split at h
  case isTrue hdue =>
    simp only [Bool.and_eq_true, beq_iff_eq] at hdue
    exact .inl ⟨hdue.1, hdue.2, h⟩
  case isFalse hdue =>
    simp only [Bool.and_eq_true, beq_iff_eq] at hdue
    exact .inr ⟨hdue, (Except.pure_eq_ok.mp h).symm⟩

end Ream.Beacon.Electra
