import Ream.Consensus.Types

/-!
# The beacon state and its read accessors

The slot, header, ring buffers, registry, participation and FFG part of the Electra
`BeaconState`. Rust's `v[i]` panic is an error here; the SSZ roots and SHA-256 are parameters
(`BeaconHash`).
-/

namespace Ream.Beacon

open Ssz Ream.Consensus

def SLOTS_PER_EPOCH : Nat := 32

def SLOTS_PER_HISTORICAL_ROOT : Nat := 8192

def EPOCHS_PER_HISTORICAL_VECTOR : Nat := 65536

def GENESIS_EPOCH : Nat := 0

def JUSTIFICATION_BITS_LENGTH : Nat := 4

def TIMELY_TARGET_FLAG_INDEX : UInt8 := 1

def EFFECTIVE_BALANCE_INCREMENT : UInt64 := 1000000000

def MIN_SEED_LOOKAHEAD : Nat := 1

def FAR_FUTURE_EPOCH : Nat := 18446744073709551615

/-- `compute_epoch_at_slot`. -/
def computeEpochAtSlot (slot : Nat) : Nat := slot / SLOTS_PER_EPOCH

/-- `compute_start_slot_at_epoch`, whose `u64` product wraps. -/
def computeStartSlotAtEpoch (epoch : Nat) : Nat := epoch * SLOTS_PER_EPOCH % 2 ^ 64

structure Checkpoint where
  epoch : Nat
  root : B256
  deriving DecidableEq, Repr

/-- The fields of a `Validator` that activity, slashing and balances read. -/
structure Validator where
  effectiveBalance : UInt64
  slashed : Bool
  activationEpoch : Nat
  exitEpoch : Nat
  deriving DecidableEq, Repr

/-- `Validator::is_active_validator`. -/
def Validator.isActiveValidator (v : Validator) (epoch : Nat) : Bool :=
  v.activationEpoch ≤ epoch && epoch < v.exitEpoch

structure BeaconBlockHeader where
  slot : Nat
  proposerIndex : Nat
  parentRoot : B256
  stateRoot : B256
  bodyRoot : B256
  deriving DecidableEq, Repr

structure BeaconState where
  slot : Nat
  latestBlockHeader : BeaconBlockHeader
  blockRoots : Fin SLOTS_PER_HISTORICAL_ROOT → B256
  stateRoots : Fin SLOTS_PER_HISTORICAL_ROOT → B256
  validators : List Validator
  randaoMixes : Fin EPOCHS_PER_HISTORICAL_VECTOR → B256
  previousEpochParticipation : List UInt8
  currentEpochParticipation : List UInt8
  justificationBits : BitVector JUSTIFICATION_BITS_LENGTH
  previousJustifiedCheckpoint : Checkpoint
  currentJustifiedCheckpoint : Checkpoint
  finalizedCheckpoint : Checkpoint

/-- SHA-256 (`hash`, `hash_fixed`) and the tree-hash roots of a state and a header. -/
structure BeaconHash where
  hash : List UInt8 → B256
  stateRoot : BeaconState → B256
  headerRoot : BeaconBlockHeader → B256

/-- Every hash and root zero: for runs whose outcome reads none of them. -/
def zeroHash : BeaconHash := ⟨fun _ => B256.ZERO, fun _ => B256.ZERO, fun _ => B256.ZERO⟩

theorem noJustificationBits_length :
    [false, false, false, false].length = JUSTIFICATION_BITS_LENGTH :=
  rfl

theorem toNat_sum (l : List UInt64) : l.sum.toNat = (l.map UInt64.toNat).sum % 2 ^ 64 := by
  induction l with
  | nil => rfl
  | cons a l ih =>
    rw [List.sum_cons, UInt64.toNat_add, ih, List.map_cons, List.sum_cons, Nat.add_mod_mod]

/-- Rust's `v[i]`. -/
def vecIndex {α : Type} (v : List α) (i : Nat) : Except String α :=
  match v[i]? with
  | some a => .ok a
  | none => .error s!"index out of bounds: the len is {v.length} but the index is {i}"

/-- Rust's `v[i] = x`. -/
def vecSet {α : Type} (v : List α) (i : Nat) (x : α) : Except String (List α) :=
  if i < v.length then .ok (v.set i x)
  else .error s!"index out of bounds: the len is {v.length} but the index is {i}"

theorem vecIndex_of_lt {α : Type} {v : List α} {i : Nat} (d : α) (h : i < v.length) :
    vecIndex v i = .ok (v.getD i d) := by
  rw [vecIndex, List.getElem?_eq_getElem h, List.getD_eq_getElem _ _ h]

theorem vecSet_of_lt {α : Type} {v : List α} {i : Nat} (x : α) (h : i < v.length) :
    vecSet v i x = .ok (v.set i x) :=
  if_pos h

theorem vecIndex_eq_ok {α : Type} {v : List α} {i : Nat} {a : α} :
    vecIndex v i = .ok a ↔ v[i]? = some a := by
  unfold vecIndex
  cases v[i]? <;> simp

theorem vecSet_eq_ok {α : Type} {v w : List α} {i : Nat} {x : α} :
    vecSet v i x = .ok w ↔ i < v.length ∧ w = v.set i x := by
  unfold vecSet
  split <;> simp_all [eq_comm]

/-- The ring-buffer position of a slot in `block_roots` and `state_roots`. -/
def historicalIndex (slot : Nat) : Fin SLOTS_PER_HISTORICAL_ROOT :=
  ⟨slot % SLOTS_PER_HISTORICAL_ROOT, Nat.mod_lt _ (by decide)⟩

namespace BeaconState

variable (s : BeaconState)

def getCurrentEpoch : Nat := computeEpochAtSlot s.slot

def getPreviousEpoch : Nat :=
  let currentEpoch := s.getCurrentEpoch
  if currentEpoch = GENESIS_EPOCH then GENESIS_EPOCH else currentEpoch - 1

/-- `get_block_root_at_slot`; `slot + SLOTS_PER_HISTORICAL_ROOT` is a `u64` sum. -/
def getBlockRootAtSlot (slot : Nat) : Except String B256 :=
  if slot < s.slot ∧ s.slot ≤ (slot + SLOTS_PER_HISTORICAL_ROOT) % 2 ^ 64 then
    .ok (s.blockRoots (historicalIndex slot))
  else .error "slot given was outside of block_roots range"

def getBlockRoot (epoch : Nat) : Except String B256 :=
  s.getBlockRootAtSlot (computeStartSlotAtEpoch epoch)

def getRandaoMix (epoch : Nat) : B256 :=
  s.randaoMixes ⟨epoch % EPOCHS_PER_HISTORICAL_VECTOR, Nat.mod_lt _ (by decide)⟩

/-- The positions of the validators active at `epoch`, in registry order. -/
def getActiveValidatorIndices (epoch : Nat) : List Nat :=
  s.validators.zipIdx.filterMap fun (validator, i) =>
    if validator.isActiveValidator epoch then some i else none

/-- `get_total_balance` over the elements of a `HashSet`: at least
`EFFECTIVE_BALANCE_INCREMENT`, the sum wrapping as `u64` does. -/
def getTotalBalance (indices : List Nat) : Except String UInt64 := do
  let balances ← indices.mapM fun index => do
    let validator ← vecIndex s.validators index
    pure validator.effectiveBalance
  pure (max EFFECTIVE_BALANCE_INCREMENT balances.sum)

def getTotalActiveBalance : Except String UInt64 :=
  s.getTotalBalance (s.getActiveValidatorIndices s.getCurrentEpoch).dedup

/-- `BeaconState::has_flag`. -/
def hasFlag (flags flagIndex : UInt8) : Bool :=
  let flag := 1 <<< flagIndex
  flags &&& flag == flag

/-- The active validators with `flagIndex` set in the participation of `epoch`, without the
slashed ones; the `HashSet` the source collects is its list of distinct elements. -/
def getUnslashedParticipatingIndices (flagIndex : UInt8) (epoch : Nat) :
    Except String (List Nat) :=
  if epoch = s.getPreviousEpoch ∨ epoch = s.getCurrentEpoch then do
    let epochParticipation :=
      if epoch = s.getCurrentEpoch then s.currentEpochParticipation
      else s.previousEpochParticipation
    let participatingIndices ← (s.getActiveValidatorIndices epoch).filterM fun i => do
      let flags ← vecIndex epochParticipation i
      pure (hasFlag flags flagIndex)
    let filteredIndices ← participatingIndices.filterM fun index => do
      let validator ← vecIndex s.validators index
      pure !validator.slashed
    pure filteredIndices.dedup
  else .error "Epoch must be either the previous or current epoch"

end BeaconState

end Ream.Beacon
