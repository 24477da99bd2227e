import Ream.Beacon.Registry
import Ream.Lib.AssocMap

/-! `process_sync_aggregate` and the rewards endpoint `compute_sync_committee_rewards`, which
read the same change list, `calculate_sync_committee_balance_change`. The BLS check is a
parameter; a change is an integer, exact because the participant reward is below `2 ^ 44`. -/

namespace Ream.Beacon.Electra

open Ream.Consensus (B256)

def BASE_REWARD_FACTOR : UInt64 := 64

def PROPOSER_WEIGHT : UInt64 := 8

def SYNC_COMMITTEE_SIZE : UInt64 := 512

def SYNC_REWARD_WEIGHT : UInt64 := 2

def WEIGHT_DENOMINATOR : UInt64 := 64

def UINT64_MAX : UInt64 := 18446744073709551615

def UINT64_MAX_SQRT : UInt64 := 4294967295

/-- The Newton loop of `integer_squareroot`: each pass lowers `x`, so `x` passes are enough for
the `while` loop to end. -/
def isqrtLoop (n : UInt64) : Nat → UInt64 → UInt64 → UInt64
  | 0, x, _ => x
  | fuel + 1, x, y => if y < x then isqrtLoop n fuel y ((y + n / y) / 2) else x

def integerSquareroot (n : UInt64) : UInt64 :=
  if n = UINT64_MAX then UINT64_MAX_SQRT
  else
    -- `x.div_ceil(2)`
    let y := if n % 2 > 0 then n / 2 + 1 else n / 2
    isqrtLoop n n.toNat n y

structure SyncAggregate where
  syncCommitteeBits : List Bool
  syncCommitteeSignature : Nat
  deriving DecidableEq, Repr

/-- `calculate_sync_committee_balance_change`: a seat and its participation bit, zipped. -/
def calculateSyncCommitteeBalanceChange (committeeIndices : List Nat)
    (syncCommitteeBits : List Bool) (participantReward : UInt64) : List (Nat × Int × Bool) :=
  (committeeIndices.zip syncCommitteeBits).map fun (validatorIndex, participationBit) =>
    if participationBit then (validatorIndex, (participantReward.toNat : Int), true)
    else (validatorIndex, -(participantReward.toNat : Int), false)

/-- The amount of a change, `change as u64` for a reward and `unsigned_abs` for a penalty. -/
def changeAmount (change : Int) : UInt64 := UInt64.ofNat change.natAbs

/-- `saturating_sub`. -/
def saturatingSub (balance delta : UInt64) : UInt64 := if delta ≤ balance then balance - delta else 0

theorem saturatingSub_le (balance delta : UInt64) : saturatingSub balance delta ≤ balance := by
  unfold saturatingSub
  split
  case isTrue hle =>
    rw [UInt64.le_iff_toNat_le, UInt64.toNat_sub_of_le _ _ hle]
    exact Nat.sub_le _ _
  case isFalse => exact UInt64.zero_le

theorem saturatingSub_zero (balance : UInt64) : saturatingSub balance 0 = balance := by
  rw [saturatingSub, if_pos UInt64.zero_le, UInt64.sub_zero]

namespace BeaconState

variable (s : BeaconState)

def getBaseRewardPerIncrement : UInt64 :=
  EFFECTIVE_BALANCE_INCREMENT * BASE_REWARD_FACTOR / integerSquareroot s.getTotalActiveBalance

def getProposerAndParticipantRewards : UInt64 × UInt64 :=
  let totalActiveBalance := s.getTotalActiveBalance
  let totalActiveIncrements := totalActiveBalance / EFFECTIVE_BALANCE_INCREMENT
  let totalBaseRewards := s.getBaseRewardPerIncrement * totalActiveIncrements
  let maxParticipantRewards :=
    totalBaseRewards * SYNC_REWARD_WEIGHT / WEIGHT_DENOMINATOR / SLOTS_PER_EPOCH.toUInt64
  let participantReward := maxParticipantRewards / SYNC_COMMITTEE_SIZE
  let proposerReward := participantReward * PROPOSER_WEIGHT / (WEIGHT_DENOMINATOR - PROPOSER_WEIGHT)
  (participantReward, proposerReward)

/-- The participant reward is below `2 ^ 44` whatever the balances: the divisions after the
wrapping product bring any `u64` that far down, so the `i64` casts of the changes are exact. -/
theorem participantReward_lt : s.getProposerAndParticipantRewards.1.toNat < 2 ^ 44 := by
  simp only [getProposerAndParticipantRewards, UInt64.toNat_div]
  generalize (s.getBaseRewardPerIncrement * (s.getTotalActiveBalance / EFFECTIVE_BALANCE_INCREMENT) *
    SYNC_REWARD_WEIGHT) = x
  have hx := x.toNat_lt
  have h64 : WEIGHT_DENOMINATOR.toNat = 64 := rfl
  have h32 : SLOTS_PER_EPOCH.toUInt64.toNat = 32 := rfl
  have h512 : SYNC_COMMITTEE_SIZE.toNat = 512 := rfl
  rw [h64, h32, h512]
  omega

/-- `get_sync_committee_indices`: the public keys looked up in the map the registry is collected
into, where a later validator with the same key replaces an earlier one. -/
def getSyncCommitteeIndices (syncCommittee : List PublicKey) : Except String (List Nat) :=
  let pubkeyToIndex := AssocMap.ofList (s.validators.zipIdx.map fun (v, i) => (v.publicKey, i))
  syncCommittee.mapM fun publicKey =>
    match pubkeyToIndex.get? publicKey with
    | some index => .ok index
    | none => .error "Pubkey not found in validator set."

/-- The keys whose participation bit is set. -/
def syncParticipants (syncAggregate : SyncAggregate) : List PublicKey :=
  (s.currentSyncCommittee.zip syncAggregate.syncCommitteeBits).filterMap fun (publicKey, bit) =>
    if bit then some publicKey else none

/-- One entry of the change list in the state transition: the member's reward or penalty, then
the proposer's share when the member took part. -/
def applySyncChange (proposerIndex : Nat) (proposerReward : UInt64) (s : BeaconState)
    (entry : Nat × Int × Bool) : Except String BeaconState := do
  let (validatorIndex, change, isParticipant) := entry
  let s ← if change > 0 then s.increaseBalance validatorIndex (changeAmount change)
    else s.decreaseBalance validatorIndex (changeAmount change)
  if isParticipant then s.increaseBalance proposerIndex proposerReward else pure s

/-- `get_block_root_at_slot`; `slot + SLOTS_PER_HISTORICAL_ROOT` is a `u64` sum. -/
def getBlockRootAtSlot (slot : Nat) : Except String B256 :=
  if slot < s.slot ∧ s.slot ≤ (slot + SLOTS_PER_HISTORICAL_ROOT) % 2 ^ 64 then
    .ok (s.blockRoots (historicalIndex slot))
  else .error "slot given was outside of block_roots range"

/-- `get_beacon_proposer_index(None)`: the entry of `proposer_lookahead` at the slot's offset
from its epoch's start. The fallback that computes the index from the seed serves offsets past
the 64 entries, which a slot's offset in its own epoch never is; it is an error here. -/
def getBeaconProposerIndex : Except String Nat :=
  let startSlot := computeStartSlotAtEpoch s.getCurrentEpoch
  if h : startSlot ≤ s.slot ∧ s.slot - startSlot < 64 then
    .ok (s.proposerLookahead ⟨s.slot - startSlot, h.2⟩)
  else .error "proposer index outside the lookahead"

/-- `process_sync_aggregate` after its signature check. -/
def applySyncAggregate (syncAggregate : SyncAggregate) : Except String BeaconState := do
  let committeeIndices ← s.getSyncCommitteeIndices s.currentSyncCommittee
  let (participantReward, proposerReward) := s.getProposerAndParticipantRewards
  let proposerIndex ← s.getBeaconProposerIndex
  let changes := calculateSyncCommitteeBalanceChange committeeIndices
    syncAggregate.syncCommitteeBits participantReward
  changes.foldlM (applySyncChange proposerIndex proposerReward) s

/-- `process_sync_aggregate`. `fastAggregateVerify` is `eth_fast_aggregate_verify` of the
participants' keys, the signing root of the block root at the previous slot under the sync
committee domain of that slot's epoch, and the signature. -/
def processSyncAggregate (fastAggregateVerify : List PublicKey → Nat → B256 → Nat → Except String Bool)
    (syncAggregate : SyncAggregate) : Except String BeaconState := do
  let participantPublicKeys := s.syncParticipants syncAggregate
  let previousSlot := max s.slot 1 - 1
  let blockRoot ← s.getBlockRootAtSlot previousSlot
  if !(← fastAggregateVerify participantPublicKeys (computeEpochAtSlot previousSlot) blockRoot
      syncAggregate.syncCommitteeSignature) then
    throw "Sync aggregate signature verification failed."
  s.applySyncAggregate syncAggregate

/-- At slot 0 the previous slot is 0, whose block root is out of range: the aggregate is refused
before its signature is checked. -/
theorem processSyncAggregate_slot_zero (h : s.slot = 0)
    (fastAggregateVerify : List PublicKey → Nat → B256 → Nat → Except String Bool)
    (syncAggregate : SyncAggregate) :
    s.processSyncAggregate fastAggregateVerify syncAggregate =
      .error "slot given was outside of block_roots range" := by
  have hroot : s.getBlockRootAtSlot (max s.slot 1 - 1) =
      .error "slot given was outside of block_roots range" := by
    rw [getBlockRootAtSlot, if_neg (by rw [h]; omega)]
  rw [processSyncAggregate, hroot]
  rfl

/-- Once the block root is read and the aggregate's signature verifies, `process_sync_aggregate`
is its balance updates. -/
theorem processSyncAggregate_of_verified
    {fastAggregateVerify : List PublicKey → Nat → B256 → Nat → Except String Bool}
    {syncAggregate : SyncAggregate} {blockRoot : B256}
    (hroot : s.getBlockRootAtSlot (max s.slot 1 - 1) = .ok blockRoot)
    (h : fastAggregateVerify (s.syncParticipants syncAggregate)
      (computeEpochAtSlot (max s.slot 1 - 1)) blockRoot syncAggregate.syncCommitteeSignature =
        .ok true) :
    s.processSyncAggregate fastAggregateVerify syncAggregate = s.applySyncAggregate syncAggregate := by
  rw [processSyncAggregate, hroot]
  simp only [bind, Except.bind, h]
  rfl

/-- A balance of the pre-state, or the endpoint's error. -/
def rewardsBalance (index : Nat) : Except String UInt64 :=
  match s.balances[index]? with
  | some balance => .ok balance
  | none => .error "Sync Committee Rewards Sync Error"

/-- One entry of the change list at the endpoint: the member's copied balance changes, and the
proposer's share is added to the running total. -/
def rewardsChange (proposerReward : UInt64) (acc : AssocMap Nat UInt64 × UInt64)
    (entry : Nat × Int × Bool) : Except String (AssocMap Nat UInt64 × UInt64) := do
  let (validatorIndex, change, isParticipant) := entry
  let (balances, totalProposerReward) := acc
  let participantBalance ← match balances.get? validatorIndex with
    | some balance => pure balance
    | none => throw "Sync Committee Rewards Sync Error"
  let balances := balances.insert validatorIndex
    (if change > 0 then participantBalance + changeAmount change
      else saturatingSub participantBalance (changeAmount change))
  pure (balances, if isParticipant then totalProposerReward + proposerReward else totalProposerReward)

/-- `compute_sync_committee_rewards`. The balance map is filled with the members and the proposer,
the changes are applied to it, the proposer's total is added last, and a reward is reported for
every entry that grew, as an `i64` difference. -/
def computeSyncCommitteeRewards (proposerIndex : Nat) (syncAggregate : SyncAggregate) :
    Except String (AssocMap Nat UInt64) := do
  let syncCommitteeIndices ← s.getSyncCommitteeIndices s.currentSyncCommittee
  let (participantReward, proposerReward) := s.getProposerAndParticipantRewards
  let balances ← syncCommitteeIndices.foldlM
    (fun balances validatorIndex => do
      pure (balances.insert validatorIndex (← s.rewardsBalance validatorIndex)))
    AssocMap.empty
  let balances := balances.insert proposerIndex (← s.rewardsBalance proposerIndex)
  let changes := calculateSyncCommitteeBalanceChange syncCommitteeIndices
    syncAggregate.syncCommitteeBits participantReward
  let (balances, totalProposerReward) ← changes.foldlM (rewardsChange proposerReward) (balances, 0)
  let proposerBalance ← match balances.get? proposerIndex with
    | some balance => pure balance
    | none => throw "Sync Committee Rewards Sync Error"
  let balances := balances.insert proposerIndex (proposerBalance + totalProposerReward)
  pure (AssocMap.ofList (balances.entries.filterMap fun (index, newBalance) => do
    let initialBalance ← s.balances[index]?
    let reward := newBalance.toInt64 - initialBalance.toInt64
    if reward > 0 then some (index, reward.toUInt64) else none))

end BeaconState

/-! ## A proposer who missed its own seat -/

/-- Two active validators of 32 ETH at slot 1; validator 1 has nothing left, proposes at slot 1,
and holds the second seat of the committee, validator 0 all the others. The participant reward
is 30 gwei and the proposer's share 4. -/
def lateProposerState : BeaconState where
  slot := 1
  validators :=
    [⟨0, 0, 32000000000, false, 0, 0, FAR_FUTURE_EPOCH, FAR_FUTURE_EPOCH⟩,
     ⟨1, 0, 32000000000, false, 0, 0, FAR_FUTURE_EPOCH, FAR_FUTURE_EPOCH⟩]
  balances := [32000000000, 0]
  previousEpochParticipation := [0, 0]
  currentEpochParticipation := [0, 0]
  inactivityScores := [0, 0]
  finalizedCheckpoint := ⟨0, 0⟩
  eth1DepositIndex := 0
  depositRequestsStartIndex := 0
  depositBalanceToConsume := 0
  exitBalanceToConsume := 0
  earliestExitEpoch := 0
  consolidationBalanceToConsume := 0
  earliestConsolidationEpoch := 0
  pendingDeposits := []
  pendingPartialWithdrawals := []
  nextWithdrawalIndex := 0
  nextWithdrawalValidatorIndex := 0
  currentSyncCommittee := [0, 1] ++ List.replicate 510 0
  proposerLookahead := fun i => if i.val % 2 = 1 then 1 else 0

/-- Only the first seat, validator 0's, took part. -/
def lateProposerAggregate : SyncAggregate := ⟨true :: List.replicate 511 false, 0⟩

/-- When the aggregate's signature verifies over the slot-0 block root, the state transition pays
validator 1, the proposer at slot 1, its 4 gwei share after seat 0 and takes the 30 gwei penalty
of seat 1 from those 4, leaving it at zero; the endpoint, given a block proposed by validator 1,
takes the penalty from the empty balance first, pays the share last, and reports a reward of 4
that the transition never paid. -/
theorem sync_rewards_misreport_late_proposer
    (fastAggregateVerify : List PublicKey → Nat → B256 → Nat → Except String Bool)
    (h : fastAggregateVerify (lateProposerState.syncParticipants lateProposerAggregate) 0
      B256.ZERO 0 = .ok true) :
    (lateProposerState.processSyncAggregate fastAggregateVerify lateProposerAggregate).map
        (·.balances) = .ok [31999984730, 0] ∧
      (lateProposerState.computeSyncCommitteeRewards 1 lateProposerAggregate).map (·.get? 1) =
        .ok (some 4) := by
  rw [BeaconState.processSyncAggregate_of_verified _ rfl h]
  decide +kernel

theorem sync_rewards_misreport_late_proposer_accepted :
    (fun _ _ _ _ => .ok true : List PublicKey → Nat → B256 → Nat → Except String Bool)
        (lateProposerState.syncParticipants lateProposerAggregate) 0 B256.ZERO 0 = .ok true ∧
      ((lateProposerState.processSyncAggregate (fun _ _ _ _ => .ok true) lateProposerAggregate).map
          (·.balances) = .ok [31999984730, 0] ∧
        (lateProposerState.computeSyncCommitteeRewards 1 lateProposerAggregate).map (·.get? 1) =
          .ok (some 4)) :=
  ⟨rfl, sync_rewards_misreport_late_proposer _ rfl⟩

end Ream.Beacon.Electra
