import Ream.Beacon.State

/-!
# The Electra registry, balances and queues

The part of the Electra `BeaconState` that the sweep, the deposits, the churn and the sync
rewards read and write. Gwei amounts are `UInt64`; epochs and slots are natural numbers, reduced
modulo `2 ^ 64` where the source adds or multiplies them.
-/

namespace Ream.Beacon.Electra

open Ream.Consensus (B256)

def MIN_ACTIVATION_BALANCE : UInt64 := 32000000000

def MAX_EFFECTIVE_BALANCE_ELECTRA : UInt64 := 2048000000000

def MAX_SEED_LOOKAHEAD : Nat := 4

def MIN_PER_EPOCH_CHURN_LIMIT_ELECTRA : UInt64 := 128000000000

def CHURN_LIMIT_QUOTIENT : UInt64 := 65536

def MAX_PER_EPOCH_ACTIVATION_EXIT_CHURN_LIMIT : UInt64 := 256000000000

def ETH1_ADDRESS_WITHDRAWAL_PREFIX : Nat := 1

def COMPOUNDING_WITHDRAWAL_PREFIX : Nat := 2

def GENESIS_SLOT : Nat := 0

/-- `compute_activation_exit_epoch`. -/
def computeActivationExitEpoch (epoch : Nat) : Nat := epoch + 1 + MAX_SEED_LOOKAHEAD

/-- A BLS public key, which the code only compares and copies. -/
abbrev PublicKey := Nat

/-- The first byte of a 32-byte credential. -/
def credentialPrefix (withdrawalCredentials : B256) : Nat := withdrawalCredentials.val / 2 ^ 248

/-- `Address::from_slice(&withdrawal_credentials[12..])`: the last twenty bytes. -/
def credentialAddress (withdrawalCredentials : B256) : Nat := withdrawalCredentials.val % 2 ^ 160

/-- `is_compounding_withdrawal_credential`. -/
def isCompoundingWithdrawalCredential (withdrawalCredentials : B256) : Bool :=
  credentialPrefix withdrawalCredentials = COMPOUNDING_WITHDRAWAL_PREFIX

structure Validator where
  publicKey : PublicKey
  withdrawalCredentials : B256
  effectiveBalance : UInt64
  slashed : Bool
  activationEligibilityEpoch : Nat
  activationEpoch : Nat
  exitEpoch : Nat
  withdrawableEpoch : Nat
  deriving DecidableEq, Repr

namespace Validator

variable (v : Validator)

/-- The fields the committee and FFG code reads. -/
def toValidator : Ream.Beacon.Validator :=
  ⟨v.effectiveBalance, v.slashed, v.activationEpoch, v.exitEpoch⟩

def isActiveValidator (epoch : Nat) : Bool := v.toValidator.isActiveValidator epoch

def hasEth1WithdrawalCredential : Bool :=
  credentialPrefix v.withdrawalCredentials = ETH1_ADDRESS_WITHDRAWAL_PREFIX

def hasCompoundingWithdrawalCredential : Bool :=
  isCompoundingWithdrawalCredential v.withdrawalCredentials

def hasExecutionWithdrawalCredential : Bool :=
  v.hasCompoundingWithdrawalCredential || v.hasEth1WithdrawalCredential

def getMaxEffectiveBalance : UInt64 :=
  if v.hasCompoundingWithdrawalCredential then MAX_EFFECTIVE_BALANCE_ELECTRA
  else MIN_ACTIVATION_BALANCE

def isFullyWithdrawableValidator (balance : UInt64) (epoch : Nat) : Bool :=
  v.hasExecutionWithdrawalCredential && decide (v.withdrawableEpoch ≤ epoch) && decide (0 < balance)

def isPartiallyWithdrawableValidator (balance : UInt64) : Bool :=
  let maxEffectiveBalance := v.getMaxEffectiveBalance
  v.hasExecutionWithdrawalCredential && v.effectiveBalance == maxEffectiveBalance &&
    decide (maxEffectiveBalance < balance)

theorem minActivation_le_getMaxEffectiveBalance :
    MIN_ACTIVATION_BALANCE ≤ v.getMaxEffectiveBalance := by
  unfold getMaxEffectiveBalance
  split <;> decide

end Validator

structure PendingDeposit where
  publicKey : PublicKey
  withdrawalCredentials : B256
  amount : UInt64
  signature : Nat
  slot : Nat
  deriving DecidableEq, Repr

structure PendingPartialWithdrawal where
  validatorIndex : Nat
  amount : UInt64
  withdrawableEpoch : Nat
  deriving DecidableEq, Repr

structure BeaconState where
  slot : Nat
  validators : List Validator
  balances : List UInt64
  previousEpochParticipation : List UInt8
  currentEpochParticipation : List UInt8
  inactivityScores : List UInt64
  finalizedCheckpoint : Checkpoint
  eth1DepositIndex : Nat
  depositRequestsStartIndex : Nat
  depositBalanceToConsume : UInt64
  exitBalanceToConsume : UInt64
  earliestExitEpoch : Nat
  consolidationBalanceToConsume : UInt64
  earliestConsolidationEpoch : Nat
  pendingDeposits : List PendingDeposit
  pendingPartialWithdrawals : List PendingPartialWithdrawal
  nextWithdrawalIndex : Nat
  nextWithdrawalValidatorIndex : Nat
  currentSyncCommittee : List PublicKey
  blockRoots : Fin SLOTS_PER_HISTORICAL_ROOT → B256 := fun _ => B256.ZERO
  proposerLookahead : Fin 64 → Nat := fun _ => 0
  deriving DecidableEq

namespace BeaconState

variable (s : BeaconState)

def getCurrentEpoch : Nat := computeEpochAtSlot s.slot

/-- `increase_balance`: the balance grows and wraps as `+=` does. -/
def increaseBalance (index : Nat) (delta : UInt64) : Except String BeaconState :=
  if index < s.balances.length then
    .ok { s with balances := s.balances.modify index (· + delta) }
  else .error "failed to increase balance"

/-- `decrease_balance`: `saturating_sub`. -/
def decreaseBalance (index : Nat) (delta : UInt64) : Except String BeaconState :=
  if index < s.balances.length then
    .ok { s with balances := s.balances.modify index fun balance =>
      if delta ≤ balance then balance - delta else 0 }
  else .error "failed to decrease balance"

section

variable {s} {t : BeaconState}

theorem increaseBalance_eq {index : Nat} {delta : UInt64}
    (h : s.increaseBalance index delta = .ok t) :
    index < s.balances.length ∧ t = { s with balances := s.balances.modify index (· + delta) } := by
  unfold increaseBalance at h
  split at h
  case isTrue hi =>
    cases h
    exact ⟨hi, rfl⟩
  case isFalse => cases h

theorem decreaseBalance_eq {index : Nat} {delta : UInt64}
    (h : s.decreaseBalance index delta = .ok t) :
    index < s.balances.length ∧ t = { s with balances := s.balances.modify index fun balance =>
      if delta ≤ balance then balance - delta else 0 } := by
  unfold decreaseBalance at h
  split at h
  case isTrue hi =>
    cases h
    exact ⟨hi, rfl⟩
  case isFalse => cases h

end

theorem decreaseBalance_of_le {index : Nat} {delta : UInt64} (hi : index < s.balances.length)
    (hle : delta.toNat ≤ (s.balances.getD index 0).toNat) :
    ∃ s', s.decreaseBalance index delta = .ok s' ∧ s' = { s with balances := s'.balances } ∧
      s'.balances.length = s.balances.length ∧
      ∀ v, (s'.balances.getD v 0).toNat =
        (s.balances.getD v 0).toNat - if v = index then delta.toNat else 0 := by
  refine ⟨_, if_pos hi, rfl, by simp, fun v => ?_⟩
  rw [List.getD_eq_getElem?_getD] at hle
  simp only [List.getD_eq_getElem?_getD, List.getElem?_modify]
  by_cases hv : v = index
  · subst hv
    rw [List.getElem?_eq_getElem hi] at hle ⊢
    simp only [if_true, Option.getD_some] at hle ⊢
    have hle' : delta ≤ s.balances[v] := UInt64.le_iff_toNat_le.mpr hle
    simp only [Option.map_eq_map, Option.map_some, Option.getD_some, if_pos hle']
    rw [UInt64.toNat_sub_of_le _ _ hle']
  · simp [Ne.symm hv, hv]

def getActiveValidatorIndices (epoch : Nat) : List Nat :=
  s.validators.zipIdx.filterMap fun (validator, i) =>
    if validator.isActiveValidator epoch then some i else none

/-- `get_total_active_balance`: the active indices are in range, so `validators[i]` never
panics; the sum wraps. -/
def getTotalActiveBalance : UInt64 :=
  max EFFECTIVE_BALANCE_INCREMENT
    ((s.getActiveValidatorIndices s.getCurrentEpoch).dedup.map fun index =>
      (s.validators.getD index ⟨0, 0, 0, false, 0, 0, 0, 0⟩).effectiveBalance).sum

def getBalanceChurnLimit : UInt64 :=
  let churn := max MIN_PER_EPOCH_CHURN_LIMIT_ELECTRA (s.getTotalActiveBalance / CHURN_LIMIT_QUOTIENT)
  churn - churn % EFFECTIVE_BALANCE_INCREMENT

def getActivationExitChurnLimit : UInt64 :=
  min MAX_PER_EPOCH_ACTIVATION_EXIT_CHURN_LIMIT s.getBalanceChurnLimit

def getConsolidationChurnLimit : UInt64 :=
  s.getBalanceChurnLimit - s.getActivationExitChurnLimit

/-- The balance churn is at least `MIN_PER_EPOCH_CHURN_LIMIT_ELECTRA`, a whole number of
increments. -/
theorem min_le_getBalanceChurnLimit :
    MIN_PER_EPOCH_CHURN_LIMIT_ELECTRA ≤ s.getBalanceChurnLimit := by
  unfold getBalanceChurnLimit
  have hchurn : 128000000000 ≤
      (max MIN_PER_EPOCH_CHURN_LIMIT_ELECTRA (s.getTotalActiveBalance / CHURN_LIMIT_QUOTIENT)).toNat := by
    rw [UInt64.toNat_max]
    exact le_max_left _ _
  generalize max MIN_PER_EPOCH_CHURN_LIMIT_ELECTRA (s.getTotalActiveBalance / CHURN_LIMIT_QUOTIENT)
    = churn at hchurn ⊢
  have hmod : (churn % EFFECTIVE_BALANCE_INCREMENT).toNat = churn.toNat % 1000000000 :=
    UInt64.toNat_mod _ _
  have hle : churn % EFFECTIVE_BALANCE_INCREMENT ≤ churn := by
    rw [UInt64.le_iff_toNat_le, hmod]
    exact Nat.mod_le _ _
  rw [UInt64.le_iff_toNat_le, UInt64.toNat_sub_of_le _ _ hle, hmod]
  show 128000000000 ≤ churn.toNat - churn.toNat % 1000000000
  omega

theorem getActivationExitChurnLimit_pos : 0 < s.getActivationExitChurnLimit := by
  have h := s.min_le_getBalanceChurnLimit
  unfold getActivationExitChurnLimit
  rw [UInt64.lt_iff_toNat_lt, UInt64.toNat_min]
  rw [UInt64.le_iff_toNat_le] at h
  have hmin : MIN_PER_EPOCH_CHURN_LIMIT_ELECTRA.toNat = 128000000000 := rfl
  have hmax : MAX_PER_EPOCH_ACTIVATION_EXIT_CHURN_LIMIT.toNat = 256000000000 := rfl
  simp only [UInt64.toNat_zero, hmax]
  omega

end BeaconState

end Ream.Beacon.Electra
