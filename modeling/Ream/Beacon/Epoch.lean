import Ream.Beacon.State

/-!
# Slots, epochs and the FFG bookkeeping

`process_slot`, `process_slots`, `process_justification_and_finalization` and
`weigh_justification_and_finalization` of `BeaconState`. `KeepsFfg` stands for every other step
of `process_epoch` and `process_block`: none writes the slot, the bits or the checkpoints.
-/

namespace Ream.Beacon

open Ssz Ream.Consensus

/-- The slot, the justification bits and the three checkpoints. -/
structure Ffg where
  slot : Nat
  justificationBits : BitVector JUSTIFICATION_BITS_LENGTH
  previousJustifiedCheckpoint : Checkpoint
  currentJustifiedCheckpoint : Checkpoint
  finalizedCheckpoint : Checkpoint

def BeaconState.ffg (s : BeaconState) : Ffg :=
  ⟨s.slot, s.justificationBits, s.previousJustifiedCheckpoint, s.currentJustifiedCheckpoint,
    s.finalizedCheckpoint⟩

/-- A fallible state transition that writes none of the fields of `Ffg`. -/
structure KeepsFfg where
  run : BeaconState → Except String BeaconState
  ffg_eq : ∀ s s', run s = .ok s' → s'.ffg = s.ffg

/-! ## `weigh_justification_and_finalization` -/

/-- The loop over `(1..JUSTIFICATION_BITS_LENGTH).rev()`, in which bit `i - 1` moves to bit
`i` from the highest position down, then the clearing of bit 0. -/
def shiftJustificationBits (bits : BitVector JUSTIFICATION_BITS_LENGTH) :
    Except String (BitVector JUSTIFICATION_BITS_LENGTH) := do
  let bits ← (List.range' 1 (JUSTIFICATION_BITS_LENGTH - 1)).reverse.foldlM (fun bits i => do
    let bit ← (bits.get (i - 1)).mapError fun err =>
      s!"Failed to get justification bit {err.debug}"
    (bits.set i bit).mapError fun err => s!"Failed to set justification bit {err.debug}")
    bits
  (bits.set 0 false).mapError fun err => s!"Failed to set justification bit 0: {err.debug}"

/-- One of the two `if`s that justify: when the target balance is a supermajority, the
checkpoint at the start of `epoch` becomes the current justified one and justification bit
`bit` is set. -/
def justifyIf (supermajority : Bool) (s : BeaconState) (epoch bit : Nat) :
    Except String BeaconState :=
  if supermajority then do
    let root ← s.getBlockRoot epoch
    let bits ← (s.justificationBits.set bit true).mapError fun err =>
      s!"Failed to set justification bit {bit}: {err.debug}"
    pure { s with currentJustifiedCheckpoint := ⟨epoch, root⟩, justificationBits := bits }
  else pure s

/-- The condition of one finality rule: the bits `lo ≤ i < hi` are all set and `source` lies
`distance` epochs before `currentEpoch`. -/
def finalityRule (bits : List Bool) (lo hi : Nat) (source : Checkpoint)
    (distance currentEpoch : Nat) : Bool :=
  (bits.extract lo hi).all id && source.epoch + distance == currentEpoch

def finalizeIf (rule : Bool) (source : Checkpoint) (s : BeaconState) : BeaconState :=
  if rule then { s with finalizedCheckpoint := source } else s

/-- The four finality rules in the source's order, each read against the checkpoints from
before the call; a later rule that fires overrides an earlier one. -/
def processFinalizations (bits : List Bool) (oldPrevious oldCurrent : Checkpoint)
    (currentEpoch : Nat) (s : BeaconState) : BeaconState :=
  let s := finalizeIf (finalityRule bits 1 4 oldPrevious 3 currentEpoch) oldPrevious s
  let s := finalizeIf (finalityRule bits 1 3 oldPrevious 2 currentEpoch) oldPrevious s
  let s := finalizeIf (finalityRule bits 0 3 oldCurrent 2 currentEpoch) oldCurrent s
  finalizeIf (finalityRule bits 0 2 oldCurrent 1 currentEpoch) oldCurrent s

def weighJustificationAndFinalization (s : BeaconState)
    (totalActiveBalance previousEpochTargetBalance currentEpochTargetBalance : UInt64) :
    Except String BeaconState := do
  let previousEpoch := s.getPreviousEpoch
  let currentEpoch := s.getCurrentEpoch
  let oldPreviousJustifiedCheckpoint := s.previousJustifiedCheckpoint
  let oldCurrentJustifiedCheckpoint := s.currentJustifiedCheckpoint
  let s := { s with previousJustifiedCheckpoint := s.currentJustifiedCheckpoint }
  let bits ← shiftJustificationBits s.justificationBits
  let s := { s with justificationBits := bits }
  let s ← justifyIf (previousEpochTargetBalance * 3 ≥ totalActiveBalance * 2) s previousEpoch 1
  let s ← justifyIf (currentEpochTargetBalance * 3 ≥ totalActiveBalance * 2) s currentEpoch 0
  pure (processFinalizations s.justificationBits.bits oldPreviousJustifiedCheckpoint
    oldCurrentJustifiedCheckpoint currentEpoch s)

/-- The first two epochs are skipped; after them the target balances of the previous and the
current epoch are weighed against the total active balance. -/
def processJustificationAndFinalization (s : BeaconState) : Except String BeaconState :=
  if s.getCurrentEpoch ≤ GENESIS_EPOCH + 1 then .ok s
  else do
    let previousIndices ←
      s.getUnslashedParticipatingIndices TIMELY_TARGET_FLAG_INDEX s.getPreviousEpoch
    let currentIndices ←
      s.getUnslashedParticipatingIndices TIMELY_TARGET_FLAG_INDEX s.getCurrentEpoch
    let totalActiveBalance ← s.getTotalActiveBalance
    let previousTargetBalance ← s.getTotalBalance previousIndices
    let currentTargetBalance ← s.getTotalBalance currentIndices
    weighJustificationAndFinalization s totalActiveBalance previousTargetBalance
      currentTargetBalance

/-! ## Slots -/

/-- Cache the state root, fill the header's state root if it is still zero, and cache the
header's root as the block root of the slot. -/
def processSlot (H : BeaconHash) (s : BeaconState) : BeaconState :=
  let previousStateRoot := H.stateRoot s
  let s := { s with
    stateRoots := Function.update s.stateRoots (historicalIndex s.slot) previousStateRoot }
  let s := if s.latestBlockHeader.stateRoot = B256.ZERO then
      { s with latestBlockHeader := { s.latestBlockHeader with stateRoot := previousStateRoot } }
    else s
  let previousBlockRoot := H.headerRoot s.latestBlockHeader
  { s with
    blockRoots := Function.update s.blockRoots (historicalIndex s.slot) previousBlockRoot }

/-- `process_epoch`: the FFG step, then the remaining steps. -/
def processEpoch (rest : KeepsFfg) (s : BeaconState) : Except String BeaconState := do
  let s ← processJustificationAndFinalization s
  rest.run s

/-- One pass of the `while` loop of `process_slots`. -/
def processSlotsStep (H : BeaconHash) (rest : KeepsFfg) (s : BeaconState) :
    Except String BeaconState := do
  let s := processSlot H s
  let s ← if (s.slot + 1) % SLOTS_PER_EPOCH = 0 then processEpoch rest s else pure s
  pure { s with slot := s.slot + 1 }

/-- `k` passes of the loop. A pass raises the slot by one, so the loop of `process_slots`
makes `slot - self.slot` of them. -/
def processSlotsLoop (H : BeaconHash) (rest : KeepsFfg) :
    Nat → BeaconState → Except String BeaconState
  | 0, s => .ok s
  | k + 1, s => do
    let s ← processSlotsStep H rest s
    processSlotsLoop H rest k s

def processSlots (H : BeaconHash) (rest : KeepsFfg) (s : BeaconState) (slot : Nat) :
    Except String BeaconState :=
  if s.slot < slot then processSlotsLoop H rest (slot - s.slot) s
  else .error "Condition failed: `self.slot < slot`"

/-- `state_transition`: the slots up to the block's, then the signature check, the block
and the state-root check, which `block` stands for. -/
def stateTransition (H : BeaconHash) (rest block : KeepsFfg) (s : BeaconState)
    (blockSlot : Nat) : Except String BeaconState := do
  let s ← processSlots H rest s blockSlot
  block.run s

end Ream.Beacon
