import Ream.Consensus.Attestations

/-!
# The Lean state transition

`process_slots`, `process_block_header`, `process_block` and `state_transition` of `state.rs`.
An `anyhow` context is prefixed to the error it wraps; `is_proposer` with no validators compares
`slot % 0 = slot`, where the code panics.
-/

namespace Ream.Consensus

open Ssz

variable (T : TreeHash)

/-- One pass of the `process_slots` loop: cache the state root in a header that has none,
then advance the slot. -/
def processSlot (s : LeanState) : LeanState :=
  let s := if s.latestBlockHeader.stateRoot = B256.ZERO then
      { s with latestBlockHeader := { s.latestBlockHeader with stateRoot := T.stateRoot s } }
    else s
  { s with slot := s.slot + 1 }

/-- The `process_slots` loop, run `k` times. -/
def processSlotsLoop : LeanState → Nat → LeanState
  | s, 0 => s
  | s, k + 1 => processSlotsLoop (processSlot T s) k

/-- `LeanState::process_slots`. -/
def processSlots (s : LeanState) (targetSlot : Nat) : Except String LeanState :=
  if s.slot < targetSlot then .ok (processSlotsLoop T s (targetSlot - s.slot))
  else .error s!"Target slot must be in the future, expected {s.slot} < {targetSlot}"

/-- Push `k` zero roots, one per skipped slot. -/
def pushZeros : VariableList B256 MAX_HISTORICAL_BLOCK_HASHES → Nat →
    Except String (VariableList B256 MAX_HISTORICAL_BLOCK_HASHES)
  | hashes, 0 => .ok hashes
  | hashes, k + 1 =>
    match hashes.push B256.ZERO with
    | .error err => .error s!"Failed to prefill historical_block_hashes: {err.debug}"
    | .ok hashes' => pushZeros hashes' k

/-- The `if self.justified_slots.len() < length` block: pad the list with unset bits. -/
def growJustifiedSlots (justifiedSlots : BitList MAX_HISTORICAL_BLOCK_HASHES) (length : Nat) :
    Except String (BitList MAX_HISTORICAL_BLOCK_HASHES) :=
  if justifiedSlots.len < length then do
    let newBitlist ← (BitList.withCapacity length).mapError fun err =>
      s!"Failed to extend BitList: {err.debug}"
    pure (newBitlist.union justifiedSlots)
  else pure justifiedSlots

/-- The first-block branch: set the bit of the latest header's slot, if it has one. -/
def setGenesisBit (s : LeanState) (justifiedSlots : BitList MAX_HISTORICAL_BLOCK_HASHES) :
    Except String (BitList MAX_HISTORICAL_BLOCK_HASHES) :=
  if s.latestBlockHeader.slot = 0 then
    match justifiedIndexAfter s.latestBlockHeader.slot s.latestFinalized.slot with
    | some parentIds =>
      (justifiedSlots.set parentIds true).mapError fun err =>
        s!"Failed to set genesis bit: {err.debug}"
    | none => pure justifiedSlots
  else pure justifiedSlots

/-- The `justified_slots` update of `process_block_header`: grow the list to cover every
slot before the block, and the (never taken) genesis bit. -/
def extendJustifiedSlots (s : LeanState) (blockSlot : Nat) :
    Except String (BitList MAX_HISTORICAL_BLOCK_HASHES) :=
  match justifiedIndexAfter (blockSlot - 1) s.latestFinalized.slot with
  | none => .ok s.justifiedSlots
  | some targetIndex => do
    let justifiedSlots ← growJustifiedSlots s.justifiedSlots (targetIndex + 1)
    setGenesisBit s justifiedSlots

/-- `LeanState::process_block_header`. -/
def processBlockHeader (s : LeanState) (block : Block) : Except String LeanState :=
  if block.slot ≠ s.slot then .error "Block slot number does not match state slot number"
  else if ¬ block.slot > s.latestBlockHeader.slot then
    .error "Block slot number is not greater than latest block header slot number"
  else if !isProposer block.proposerIndex s.slot s.validators.len then
    .error "Block proposer index does not match the expected proposer index"
  else if block.parentRoot ≠ s.latestBlockHeader.treeHashRoot T then
    .error "Block parent root does not match latest block header root"
  else do
    -- the first block after genesis names the genesis root justified and finalized
    let s := if s.latestBlockHeader.slot = 0 then
        { s with latestJustified := { s.latestJustified with root := block.parentRoot },
                 latestFinalized := { s.latestFinalized with root := block.parentRoot } }
      else s
    let historicalBlockHashes ← (s.historicalBlockHashes.push block.parentRoot).mapError
      fun err => s!"Failed to add block.parent_root to historical_block_hashes: {err.debug}"
    let historicalBlockHashes ← pushZeros historicalBlockHashes
      (block.slot - s.latestBlockHeader.slot - 1)
    let justifiedSlots ← extendJustifiedSlots s block.slot
    pure { s with
      historicalBlockHashes := historicalBlockHashes
      justifiedSlots := justifiedSlots
      latestBlockHeader :=
        { slot := block.slot, proposerIndex := block.proposerIndex,
          parentRoot := block.parentRoot, stateRoot := B256.ZERO,
          bodyRoot := T.bodyRoot block.body } }

/-- `LeanState::process_block`. -/
def processBlock (s : LeanState) (block : Block) : Except String LeanState := do
  let s ← processBlockHeader T s block
  processAttestations T s block.body.attestations.data

/-- `LeanState::state_transition`. -/
def stateTransition (s : LeanState) (block : Block) (validSignatures : Bool) :
    Except String LeanState := do
  if !validSignatures then .error "Signatures are not valid"
  else
    let s ← (processSlots T s block.slot).mapError fun err =>
      s!"failed to process intermediate slots: {err}"
    let s ← (processBlock T s block).mapError fun err => s!"failed to process block: {err}"
    if block.stateRoot ≠ T.stateRoot s then .error "Invalid block state root"
    else pure s

end Ream.Consensus
