import Ream.Beacon.Churn
import Ream.Beacon.Deposits
import Ream.Beacon.SyncRewards
import Ream.Beacon.Withdrawals

/-!
# The writers of the registry

Every place of the Electra state transition that writes a validator, a balance, a participation
list or an inactivity score, gathered as `RegistryCall` with the values the transition computes
for it as arguments. Key hashing and the BLS check of a credential change are parameters.
-/

namespace Ream.Beacon.Electra

open Ream.Consensus (B256)

def HYSTERESIS_QUOTIENT : UInt64 := 4

def HYSTERESIS_DOWNWARD_MULTIPLIER : UInt64 := 1

def HYSTERESIS_UPWARD_MULTIPLIER : UInt64 := 5

def INACTIVITY_SCORE_BIAS : UInt64 := 4

def INACTIVITY_SCORE_RECOVERY_RATE : UInt64 := 16

def MIN_EPOCHS_TO_INACTIVITY_PENALTY : Nat := 4

def EJECTION_BALANCE : UInt64 := 16000000000

def MIN_VALIDATOR_WITHDRAWABILITY_DELAY : Nat := 256

def EPOCHS_PER_SLASHINGS_VECTOR : Nat := 8192

def MIN_SLASHING_PENALTY_QUOTIENT_ELECTRA : UInt64 := 4096

def WHISTLEBLOWER_REWARD_QUOTIENT_ELECTRA : UInt64 := 4096

/-- The timely source, target and head weights. -/
def PARTICIPATION_FLAG_WEIGHTS : List UInt64 := [14, 26, 14]

def BLS_WITHDRAWAL_PREFIX : Nat := 0

/-- `bls.G2_POINT_AT_INFINITY`: the byte `0xc0` and 95 zero bytes. -/
def G2_POINT_AT_INFINITY : Nat := 0xc0 * 2 ^ 760

/-- `B256::from_slice` of a first byte and the 31 bytes after it. -/
def credentialsFrom (firstByte tail : Nat) : B256 :=
  ⟨(firstByte * 2 ^ 248 + tail % 2 ^ 248) % 2 ^ 256, Nat.mod_lt _ (Nat.two_pow_pos 256)⟩

/-- `BeaconState::add_flag`. -/
def addFlag (flags flagIndex : UInt8) : UInt8 :=
  let flag := 1 <<< flagIndex
  flags ||| flag

namespace Validator

variable (v : Validator)

def isEligibleForActivationQueue : Bool :=
  v.activationEligibilityEpoch = FAR_FUTURE_EPOCH && decide (MIN_ACTIVATION_BALANCE ≤ v.effectiveBalance)

end Validator

/-- `BeaconState::is_eligible_for_activation`: the validator's place in the queue is finalized. -/
def isEligibleForActivation (finalizedCheckpointEpoch : Nat) (validator : Validator) : Bool :=
  decide (validator.activationEligibilityEpoch ≤ finalizedCheckpointEpoch) &&
    validator.activationEpoch = FAR_FUTURE_EPOCH

/-- One pass of the loop of `process_effective_balance_updates`: once the balance has left the
hysteresis band around the effective balance, the effective balance becomes the balance rounded
down to an increment, at most the maximum the credentials allow. The sums wrap as `u64` does. -/
def effectiveBalanceUpdate (validator : Validator) (balance : UInt64) : Validator :=
  let hysteresisIncrement := EFFECTIVE_BALANCE_INCREMENT / HYSTERESIS_QUOTIENT
  let downwardThreshold := hysteresisIncrement * HYSTERESIS_DOWNWARD_MULTIPLIER
  let upwardThreshold := hysteresisIncrement * HYSTERESIS_UPWARD_MULTIPLIER
  if balance + downwardThreshold < validator.effectiveBalance ∨
      validator.effectiveBalance + upwardThreshold < balance then
    { validator with
      effectiveBalance :=
        min (balance - balance % EFFECTIVE_BALANCE_INCREMENT) validator.getMaxEffectiveBalance }
  else validator

/-- One pass of the first loop of `process_registry_updates`: the validator as the pass leaves
it, and whether its exit is to be initiated. -/
def registryUpdate (currentEpoch activationEpoch finalizedCheckpointEpoch : Nat)
    (validator : Validator) : Except String (Validator × Bool) :=
  if validator.isEligibleForActivationQueue then
    -- `current_epoch.checked_add(1)` on a `u64`
    if currentEpoch + 1 < 2 ^ 64 then
      .ok ({ validator with activationEligibilityEpoch := currentEpoch + 1 }, false)
    else .error "Epoch overflow when setting activation eligibility epoch"
  else if validator.isActiveValidator currentEpoch &&
      decide (validator.effectiveBalance ≤ EJECTION_BALANCE) then
    .ok (validator, true)
  else if isEligibleForActivation finalizedCheckpointEpoch validator then
    .ok ({ validator with activationEpoch }, false)
  else .ok (validator, false)

/-- One pass of the loop of `process_inactivity_updates` over the scores: a validator that missed
the target gains `INACTIVITY_SCORE_BIAS`, one that made it loses a point, and outside a leak
every score recovers by `INACTIVITY_SCORE_RECOVERY_RATE`. -/
def inactivityScoreStep (unslashedParticipatingIndices : List Nat) (isInInactivityLeak : Bool)
    (inactivityScores : List UInt64) (index : Nat) : Except String (List UInt64) := do
  let score ← vecIndex inactivityScores index
  let inactivityScores ← vecSet inactivityScores index
    (if index ∈ unslashedParticipatingIndices then score - min 1 score
     else score + INACTIVITY_SCORE_BIAS)
  if !isInInactivityLeak then
    let score ← vecIndex inactivityScores index
    vecSet inactivityScores index (score - min INACTIVITY_SCORE_RECOVERY_RATE score)
  else pure inactivityScores

structure BLSToExecutionChange where
  validatorIndex : Nat
  fromBlsPublicKey : PublicKey
  toExecutionAddress : Nat
  deriving DecidableEq, Repr

structure SignedBLSToExecutionChange where
  message : BLSToExecutionChange
  signature : Nat
  deriving DecidableEq, Repr

/-- SHA-256 of a public key, and the signature check of a change over its domain. -/
structure BlsChangeChecks where
  hash : PublicKey → B256
  verify : SignedBLSToExecutionChange → Bool

namespace BeaconState

variable (s : BeaconState)

def getPreviousEpoch : Nat :=
  let currentEpoch := s.getCurrentEpoch
  if currentEpoch = GENESIS_EPOCH then GENESIS_EPOCH else currentEpoch - 1

/-! ## Epoch processing -/

/-- `process_effective_balance_updates`; `self.balances[index]` panics past the balances. -/
def processEffectiveBalanceUpdates : Except String BeaconState := do
  let validators ← s.validators.zipIdx.mapM fun (validator, index) => do
    let balance ← vecIndex s.balances index
    pure (effectiveBalanceUpdate validator balance)
  pure { s with validators }

/-- `process_participation_flag_updates`: the current participation becomes the previous one, and
the current one starts at zero for every validator. -/
def processParticipationFlagUpdates : BeaconState :=
  { s with
    previousEpochParticipation := s.currentEpochParticipation
    currentEpochParticipation := List.replicate s.validators.length 0 }

/-- `get_finality_delay`, whose `u64` subtraction wraps where the finalized epoch is past the
previous epoch. -/
def getFinalityDelay : Nat := (s.getPreviousEpoch + 2 ^ 64 - s.finalizedCheckpoint.epoch) % 2 ^ 64

def isInInactivityLeak : Bool := decide (s.getFinalityDelay > MIN_EPOCHS_TO_INACTIVITY_PENALTY)

def getEligibleValidatorIndices : List Nat :=
  let previousEpoch := s.getPreviousEpoch
  s.validators.zipIdx.filterMap fun (validator, index) =>
    if validator.isActiveValidator previousEpoch ||
        (validator.slashed && decide (previousEpoch + 1 < validator.withdrawableEpoch)) then
      some index
    else none

/-- The active validators with `flagIndex` set in the participation of `epoch`, without the
slashed ones; the `HashSet` the source collects is its list of distinct elements. -/
def getUnslashedParticipatingIndices (flagIndex : UInt8) (epoch : Nat) :
    Except String (List Nat) :=
  if epoch = s.getPreviousEpoch ∨ epoch = s.getCurrentEpoch then do
    let epochParticipation :=
      if epoch = s.getCurrentEpoch then s.currentEpochParticipation
      else s.previousEpochParticipation
    let participatingIndices ← (s.getActiveValidatorIndices epoch).filterM fun i => do
      let flags ← vecIndex epochParticipation i
      pure (Ream.Beacon.BeaconState.hasFlag flags flagIndex)
    let filteredIndices ← participatingIndices.filterM fun index => do
      let validator ← vecIndex s.validators index
      pure !validator.slashed
    pure filteredIndices.dedup
  else .error "Epoch must be either the previous or current epoch"

/-- `process_inactivity_updates`. The leak is read once: the loop writes neither the slot nor the
finalized checkpoint. -/
def processInactivityUpdates : Except String BeaconState := do
  -- the genesis epoch is skipped: the scores follow the previous epoch's participation
  if s.getCurrentEpoch = GENESIS_EPOCH then return s
  let unslashedParticipatingIndices ←
    s.getUnslashedParticipatingIndices TIMELY_TARGET_FLAG_INDEX s.getPreviousEpoch
  let inactivityScores ← s.getEligibleValidatorIndices.foldlM
    (inactivityScoreStep unslashedParticipatingIndices s.isInInactivityLeak) s.inactivityScores
  pure { s with inactivityScores }

/-- `initiate_validator_exit`: nothing for a validator whose exit is initiated already; otherwise
the exit churn gives the exit epoch, and the validator becomes withdrawable
`MIN_VALIDATOR_WITHDRAWABILITY_DELAY` epochs later (`checked_add` on a `u64`). -/
def initiateValidatorExit (index : Nat) : Except String BeaconState := do
  let some validator := s.validators[index]? | throw "could not get validator"
  if validator.exitEpoch ≠ FAR_FUTURE_EPOCH then return s
  let (exitQueueEpoch, s) ← s.computeExitEpochAndUpdateChurn validator.effectiveBalance
  if exitQueueEpoch + MIN_VALIDATOR_WITHDRAWABILITY_DELAY < 2 ^ 64 then
    pure { s with validators := s.validators.modify index fun validator =>
      { validator with
        exitEpoch := exitQueueEpoch
        withdrawableEpoch := exitQueueEpoch + MIN_VALIDATOR_WITHDRAWABILITY_DELAY } }
  else throw "Failed to set withdrawable epoch"

/-- `process_registry_updates`: activation eligibility, ejections and activations in one pass over
the registry, then the ejected validators' exits in registry order. -/
def processRegistryUpdates : Except String BeaconState := do
  let currentEpoch := s.getCurrentEpoch
  let activationEpoch := computeActivationExitEpoch currentEpoch
  let updates ← s.validators.mapM
    (registryUpdate currentEpoch activationEpoch s.finalizedCheckpoint.epoch)
  let initiateValidator := updates.zipIdx.filterMap fun ((_, eject), index) =>
    if eject then some index else none
  initiateValidator.foldlM (fun s index => s.initiateValidatorExit index)
    { s with validators := updates.map Prod.fst }

/-! ## Block operations -/

/-- `slash_validator`, with the beacon proposer index as an argument. The slashed effective
balance is added to the slashings vector, which is not part of this record. -/
def slashValidator (proposerIndex slashedIndex : Nat) (whistleblowerIndex : Option Nat) :
    Except String BeaconState := do
  let epoch := s.getCurrentEpoch
  let s ← s.initiateValidatorExit slashedIndex
  let some validator := s.validators[slashedIndex]?
    | throw s!"Validator at index {slashedIndex} not found"
  let s := { s with validators := s.validators.modify slashedIndex fun validator =>
    { validator with
      slashed := true
      withdrawableEpoch := max validator.withdrawableEpoch (epoch + EPOCHS_PER_SLASHINGS_VECTOR) } }
  let validatorEffectiveBalance := validator.effectiveBalance
  let s ← s.decreaseBalance slashedIndex
    (validatorEffectiveBalance / MIN_SLASHING_PENALTY_QUOTIENT_ELECTRA)
  let whistleblowerIndex := whistleblowerIndex.getD proposerIndex
  let whistleblowerReward := validatorEffectiveBalance / WHISTLEBLOWER_REWARD_QUOTIENT_ELECTRA
  let proposerReward := whistleblowerReward * PROPOSER_WEIGHT / WEIGHT_DENOMINATOR
  let s ← s.increaseBalance proposerIndex proposerReward
  s.increaseBalance whistleblowerIndex (whistleblowerReward - proposerReward)

/-- The participation list of the current epoch, or of the previous one. -/
def epochParticipation (isCurrentEpoch : Bool) : List UInt8 :=
  if isCurrentEpoch then s.currentEpochParticipation else s.previousEpochParticipation

def setEpochParticipation (isCurrentEpoch : Bool) (epochParticipation : List UInt8) :
    BeaconState :=
  if isCurrentEpoch then { s with currentEpochParticipation := epochParticipation }
  else { s with previousEpochParticipation := epochParticipation }

/-- One pass of the inner loop of `process_attestation`: the flag is set for the attesting
validator when the attestation earns it and the validator lacks it. -/
def participationFlagStep (isCurrentEpoch : Bool) (participationFlagIndices : List UInt8)
    (index flagIndex : Nat) : Except String BeaconState := do
  let some epochPart := (s.epochParticipation isCurrentEpoch)[index]?
    | throw s!"Validator index {index} out of bounds in epoch_participation"
  let flagIndex := flagIndex.toUInt8
  if participationFlagIndices.contains flagIndex &&
      !Ream.Beacon.BeaconState.hasFlag epochPart flagIndex then
    pure (s.setEpochParticipation isCurrentEpoch
      ((s.epochParticipation isCurrentEpoch).set index (addFlag epochPart flagIndex)))
  else pure s

/-- The participation writes of `process_attestation`, for every attesting validator and every
flag of `PARTICIPATION_FLAG_WEIGHTS`, in the current epoch's list when the target is the current
epoch. The proposer's reward the same loop adds up is paid with `increase_balance`. -/
def setParticipationFlags (isCurrentEpoch : Bool) (participationFlagIndices : List UInt8)
    (attestingIndices : List Nat) : Except String BeaconState :=
  attestingIndices.foldlM (fun s index =>
    (List.range PARTICIPATION_FLAG_WEIGHTS.length).foldlM (fun s flagIndex =>
      s.participationFlagStep isCurrentEpoch participationFlagIndices index flagIndex) s) s

/-- `apply_deposit`, after the Merkle branch of `process_deposit`: a new key whose signature
verifies joins the registry with no balance, and the amount is queued as a pending deposit; a new
key whose signature does not verify is dropped. The signature check does not read the slot. -/
def applyDeposit (isValidDepositSignature : PendingDeposit → Bool) (publicKey : PublicKey)
    (withdrawalCredentials : B256) (amount : UInt64) (signature : Nat) : BeaconState :=
  let deposit : PendingDeposit :=
    ⟨publicKey, withdrawalCredentials, amount, signature, GENESIS_SLOT⟩
  if s.validators.any fun validator => validator.publicKey = publicKey then
    { s with pendingDeposits := s.pendingDeposits ++ [deposit] }
  else if isValidDepositSignature deposit then
    let s := s.addValidatorToRegistry publicKey withdrawalCredentials 0
    { s with pendingDeposits := s.pendingDeposits ++ [deposit] }
  else s

def validateBlsToExecutionChange (checks : BlsChangeChecks) (signed : SignedBLSToExecutionChange) :
    Except String Unit := do
  let change := signed.message
  let some validator := s.validators[change.validatorIndex]?
    | throw "Condition failed: bls_to_execution_change.validator_index < self.validators.len() as u64"
  if credentialPrefix validator.withdrawalCredentials ≠ BLS_WITHDRAWAL_PREFIX then
    throw "Condition failed: &validator.withdrawal_credentials[..1] == BLS_WITHDRAWAL_PREFIX"
  if validator.withdrawalCredentials.val % 2 ^ 248 ≠
      (checks.hash change.fromBlsPublicKey).val % 2 ^ 248 then
    throw "Condition failed: validator.withdrawal_credentials[1..] == hash(bls_to_execution_change.from_bls_public_key.to_bytes())[1..]"
  if !checks.verify signed then throw "BLS Signature verification failed!"

/-- `process_bls_to_execution_change`: the credentials become the Eth1 prefix, eleven zero bytes
and the execution address. -/
def processBlsToExecutionChange (checks : BlsChangeChecks) (signed : SignedBLSToExecutionChange) :
    Except String BeaconState := do
  s.validateBlsToExecutionChange checks signed
  let change := signed.message
  let withdrawalCredentials :=
    credentialsFrom ETH1_ADDRESS_WITHDRAWAL_PREFIX (change.toExecutionAddress % 2 ^ 160)
  pure { s with validators := s.validators.modify change.validatorIndex fun validator =>
    { validator with withdrawalCredentials } }

/-- `queue_excess_active_balance`: the balance above `MIN_ACTIVATION_BALANCE` goes back to the
pending deposits, marked as the validator's own by `G2_POINT_AT_INFINITY` and `GENESIS_SLOT`. -/
def queueExcessActiveBalance (index : Nat) : Except String BeaconState := do
  let some balance := s.balances[index]? | throw "Balance index out of bounds"
  if balance > MIN_ACTIVATION_BALANCE then
    let excessBalance := balance - MIN_ACTIVATION_BALANCE
    let some validator := s.validators[index]? | throw "Validator index out of bounds"
    pure { s with
      balances := s.balances.set index MIN_ACTIVATION_BALANCE
      pendingDeposits := s.pendingDeposits ++ [⟨validator.publicKey,
        validator.withdrawalCredentials, excessBalance, G2_POINT_AT_INFINITY, GENESIS_SLOT⟩] }
  else pure s

/-- `switch_to_compounding_validator`: the first byte of the credentials becomes
`COMPOUNDING_WITHDRAWAL_PREFIX`, then the excess balance is queued. -/
def switchToCompoundingValidator (index : Nat) : Except String BeaconState := do
  if s.validators.length ≤ index then throw "Validator index out of bounds"
  let s := { s with validators := s.validators.modify index fun validator =>
    { validator with
      withdrawalCredentials :=
        credentialsFrom COMPOUNDING_WITHDRAWAL_PREFIX validator.withdrawalCredentials.val } }
  s.queueExcessActiveBalance index

/-- The exit `process_consolidation_request` initiates for the source of an accepted
consolidation: the consolidation churn gives the exit epoch, and the source becomes withdrawable
`MIN_VALIDATOR_WITHDRAWABILITY_DELAY` epochs later. -/
def initiateConsolidationExit (sourceIndex : Nat) : Except String BeaconState := do
  let some sourceValidator := s.validators[sourceIndex]? | throw "Validator not found"
  let (exitEpoch, s) ← s.computeConsolidationEpochAndUpdateChurn sourceValidator.effectiveBalance
  pure { s with validators := s.validators.modify sourceIndex fun sourceValidator =>
    { sourceValidator with
      exitEpoch
      withdrawableEpoch := (exitEpoch + MIN_VALIDATOR_WITHDRAWABILITY_DELAY) % 2 ^ 64 } }

end BeaconState

/-! ## The calls -/

/-- What the state transition leaves open to the registry writers: the Fulu fork epoch of the
network spec, the deposit signature check, and the checks of a BLS change. -/
structure RegistryEnv where
  fuluForkEpoch : Nat
  isValidDepositSignature : PendingDeposit → Bool
  blsChangeChecks : BlsChangeChecks

/-- A call of the state transition that writes the registry, the balances, the participation
lists or the inactivity scores, with the values the transition computes for it as arguments.
`increase_balance` and `decrease_balance` stand for every reward, penalty and balance move;
`slash_validator` for both kinds of slashing; `initiate_validator_exit` for voluntary exits,
withdrawal requests and ejections. -/
inductive RegistryCall where
  | increaseBalance (index : Nat) (delta : UInt64)
  | decreaseBalance (index : Nat) (delta : UInt64)
  | applyDeposit (publicKey : PublicKey) (withdrawalCredentials : B256) (amount : UInt64)
      (signature : Nat)
  | processPendingDeposits
  | processWithdrawals (payloadWithdrawals : List Withdrawal)
  | initiateValidatorExit (index : Nat)
  | initiateConsolidationExit (sourceIndex : Nat)
  | slashValidator (proposerIndex slashedIndex : Nat) (whistleblowerIndex : Option Nat)
  | setParticipationFlags (isCurrentEpoch : Bool) (participationFlagIndices : List UInt8)
      (attestingIndices : List Nat)
  | processBlsToExecutionChange (signed : SignedBLSToExecutionChange)
  | switchToCompoundingValidator (index : Nat)
  | processInactivityUpdates
  | processRegistryUpdates
  | processEffectiveBalanceUpdates
  | processParticipationFlagUpdates
  deriving DecidableEq, Repr

def RegistryCall.run (env : RegistryEnv) : RegistryCall → BeaconState → Except String BeaconState
  | .increaseBalance index delta, s => s.increaseBalance index delta
  | .decreaseBalance index delta, s => s.decreaseBalance index delta
  | .applyDeposit publicKey withdrawalCredentials amount signature, s =>
    .ok (s.applyDeposit env.isValidDepositSignature publicKey withdrawalCredentials amount signature)
  | .processPendingDeposits, s =>
    s.processPendingDeposits env.fuluForkEpoch env.isValidDepositSignature
  | .processWithdrawals payloadWithdrawals, s => s.processWithdrawals payloadWithdrawals
  | .initiateValidatorExit index, s => s.initiateValidatorExit index
  | .initiateConsolidationExit sourceIndex, s => s.initiateConsolidationExit sourceIndex
  | .slashValidator proposerIndex slashedIndex whistleblowerIndex, s =>
    s.slashValidator proposerIndex slashedIndex whistleblowerIndex
  | .setParticipationFlags isCurrentEpoch participationFlagIndices attestingIndices, s =>
    s.setParticipationFlags isCurrentEpoch participationFlagIndices attestingIndices
  | .processBlsToExecutionChange signed, s => s.processBlsToExecutionChange env.blsChangeChecks signed
  | .switchToCompoundingValidator index, s => s.switchToCompoundingValidator index
  | .processInactivityUpdates, s => s.processInactivityUpdates
  | .processRegistryUpdates, s => s.processRegistryUpdates
  | .processEffectiveBalanceUpdates, s => s.processEffectiveBalanceUpdates
  | .processParticipationFlagUpdates, s => .ok s.processParticipationFlagUpdates

/-- The calls one after another, each on the state the one before left; the first failure ends
the run. -/
def runRegistryCalls (env : RegistryEnv) (calls : List RegistryCall) (s : BeaconState) :
    Except String BeaconState :=
  calls.foldlM (fun s call => call.run env s) s

end Ream.Beacon.Electra
