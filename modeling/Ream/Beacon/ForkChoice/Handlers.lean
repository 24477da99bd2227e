import Ream.Beacon.ForkChoice.Store

/-!
# The handlers of the beacon fork-choice store

`get_forkchoice_store`, `on_tick`, `on_block`, `on_attestation` and `on_attester_slashing` as
`StoreM` programs that keep their writes when they fail. Block roots, data availability, the
committee lookup and the BLS check are parameters.
-/

namespace Ream.Beacon.ForkChoice

open Ream.Consensus (B256)
open EStateM

/-- What fork choice calls and does not compute itself. -/
structure Env where
  hash : BeaconHash
  /-- The steps of `process_epoch` after the FFG step. -/
  epochRest : KeepsFfg
  /-- `process_block` with the signature and state-root checks of `state_transition`. -/
  processBlock : BeaconBlock → KeepsFfg
  /-- `tree_hash_root` of a block. -/
  blockRoot : BeaconBlock → B256
  isDataAvailable : B256 → Except String Bool
  getIndexedAttestation : BeaconState → Attestation → Except String IndexedAttestation
  isValidIndexedAttestation : BeaconState → IndexedAttestation → Except String Bool

/-- `ensure!` with the message anyhow gives it. -/
def ensure (cond : Prop) [Decidable cond] (message : String) : Except String Unit :=
  if cond then .ok () else .error message

theorem ensure_eq_ok {cond : Prop} [Decidable cond] {message : String} :
    ensure cond message = .ok () ↔ cond := by
  unfold ensure
  split <;> simp_all

/-- `is_slashable_attestation_data`: a double vote or a surround vote. -/
def isSlashableAttestationData (data1 data2 : AttestationData) : Bool :=
  (data1 ≠ data2 && data1.target.epoch == data2.target.epoch) ||
    (data1.source.epoch < data2.source.epoch && data2.target.epoch < data1.target.epoch)

def computeSlotsSinceEpochStart (slot : Nat) : Nat :=
  slot - computeStartSlotAtEpoch (computeEpochAtSlot slot)

namespace Store

variable (s : Store)

/-- `update_checkpoints`: each checkpoint is replaced by one of a later epoch. -/
def updateCheckpoints (justifiedCheckpoint finalizedCheckpoint : Checkpoint) : Store :=
  let s := if justifiedCheckpoint.epoch > s.justifiedCheckpoint.epoch then
      { s with justifiedCheckpoint := justifiedCheckpoint }
    else s
  if finalizedCheckpoint.epoch > s.finalizedCheckpoint.epoch then
    { s with finalizedCheckpoint := finalizedCheckpoint }
  else s

theorem updateCheckpoints_eq (justifiedCheckpoint finalizedCheckpoint : Checkpoint) :
    s.updateCheckpoints justifiedCheckpoint finalizedCheckpoint =
      { s with
        justifiedCheckpoint := if justifiedCheckpoint.epoch > s.justifiedCheckpoint.epoch then
          justifiedCheckpoint else s.justifiedCheckpoint
        finalizedCheckpoint := if finalizedCheckpoint.epoch > s.finalizedCheckpoint.epoch then
          finalizedCheckpoint else s.finalizedCheckpoint } := by
  unfold updateCheckpoints
  dsimp only
  split_ifs <;> rfl

def updateUnrealizedCheckpoints (unrealizedJustifiedCheckpoint unrealizedFinalizedCheckpoint :
    Checkpoint) : Store :=
  let s := if unrealizedJustifiedCheckpoint.epoch > s.unrealizedJustifiedCheckpoint.epoch then
      { s with unrealizedJustifiedCheckpoint := unrealizedJustifiedCheckpoint }
    else s
  if unrealizedFinalizedCheckpoint.epoch > s.unrealizedFinalizedCheckpoint.epoch then
    { s with unrealizedFinalizedCheckpoint := unrealizedFinalizedCheckpoint }
  else s

theorem updateUnrealizedCheckpoints_eq (justified finalized : Checkpoint) :
    s.updateUnrealizedCheckpoints justified finalized =
      { s with
        unrealizedJustifiedCheckpoint :=
          if justified.epoch > s.unrealizedJustifiedCheckpoint.epoch then justified
          else s.unrealizedJustifiedCheckpoint
        unrealizedFinalizedCheckpoint :=
          if finalized.epoch > s.unrealizedFinalizedCheckpoint.epoch then finalized
          else s.unrealizedFinalizedCheckpoint } := by
  unfold updateUnrealizedCheckpoints
  dsimp only
  split_ifs <;> rfl

/-- `BeaconBlockTable::insert`: the block under its root, and the root among its parent's
children in the parent-root multimap, which holds each root once. -/
def insertBlock (blockRoot : B256) (block : BeaconBlock) : Store :=
  { s with
    parentRootIndex := s.parentRootIndex.insert block.parentRoot
      ((s.parentRootIndex.getD block.parentRoot []).insert blockRoot)
    blocks := s.blocks.insert blockRoot block }

/-- One pass of the loop of `update_latest_messages`: the message replaces the validator's
latest one when it has none or one of an earlier epoch. -/
def recordLatestMessage (message : LatestMessage) (index : Nat) : Store :=
  match s.latestMessages.get? index with
  | none => { s with latestMessages := s.latestMessages.insert index message }
  | some latest =>
    if message.epoch > latest.epoch then
      { s with latestMessages := s.latestMessages.insert index message }
    else s

/-- `update_latest_messages`: the attestation becomes a latest message of each attesting
validator not known to equivocate. -/
def updateLatestMessages (attestingIndices : List Nat) (attestation : Attestation) : Store :=
  let target := attestation.data.target
  let beaconBlockRoot := attestation.data.beaconBlockRoot
  let equivocating := s.equivocatingIndices.getD []
  let nonEquivocatingAttestingIndices := attestingIndices.filter fun index => index ∉ equivocating
  nonEquivocatingAttestingIndices.foldl
    (fun s index => s.recordLatestMessage ⟨target.epoch, beaconBlockRoot⟩ index) s

/-- `on_tick_per_slot`: the clock moves to `time`; a new slot drops the proposer boost, and
the first slot of an epoch pulls up the unrealized checkpoints. -/
def onTickPerSlot (time : Nat) : Store :=
  let previousSlot := s.getCurrentSlot
  let s := { s with time := time }
  let currentSlot := s.getCurrentSlot
  let s := if currentSlot > previousSlot then { s with proposerBoostRoot := B256.ZERO } else s
  if currentSlot > previousSlot ∧ computeSlotsSinceEpochStart currentSlot = 0 then
    s.updateCheckpoints s.unrealizedJustifiedCheckpoint s.unrealizedFinalizedCheckpoint
  else s

/-- `k` passes of the `while` loop of `on_tick`, each moving the clock to the start of the
next slot. -/
def onTickLoop : Nat → Store → Store
  | 0, s => s
  | k + 1, s =>
    let previousTime := s.genesisTime + (s.getCurrentSlot + 1) * SECONDS_PER_SLOT
    onTickLoop k (s.onTickPerSlot previousTime)

/-- `on_tick`: a pass moves the clock to the next slot, so the loop makes
`tick_slot - current_slot` of them before the last call at `time`. -/
def onTick (time : Nat) : Store :=
  let tickSlot := (time - s.genesisTime) / SECONDS_PER_SLOT
  (onTickLoop (tickSlot - s.getCurrentSlot) s).onTickPerSlot time

def validateTargetEpochAgainstCurrentTime (attestation : Attestation) : Except String Unit :=
  let target := attestation.data.target
  let currentEpoch := s.getCurrentStoreEpoch
  let previousEpoch := if currentEpoch > GENESIS_EPOCH then currentEpoch - 1 else GENESIS_EPOCH
  ensure (target.epoch ∈ [currentEpoch, previousEpoch])
    "Condition failed: [current_epoch, previous_epoch].contains(&target.epoch)"

/-- `validate_on_attestation`, which reads the store only. -/
def validateOnAttestation (attestation : Attestation) (isFromBlock : Bool) :
    Except String Unit := do
  let target := attestation.data.target
  if !isFromBlock then s.validateTargetEpochAgainstCurrentTime attestation
  ensure (target.epoch = computeEpochAtSlot attestation.data.slot)
    "Condition failed: target.epoch == compute_epoch_at_slot(attestation.data.slot)"
  ensure (s.blocks.get? target.root).isSome
    "Condition failed: self.db.block_provider().get(target.root)?.is_some()"
  ensure (s.blocks.get? attestation.data.beaconBlockRoot).isSome
    "Condition failed: self.db.block_provider().get(attestation.data.beacon_block_root)?.is_some()"
  let block ← lookup s.blocks attestation.data.beaconBlockRoot "block not found"
  ensure (block.slot ≤ attestation.data.slot)
    "Condition failed: block slot <= attestation.data.slot"
  let checkpointBlock ← s.getCheckpointBlock attestation.data.beaconBlockRoot target.epoch
  ensure (target.root = checkpointBlock)
    "Condition failed: target.root == self.get_checkpoint_block(attestation.data.beacon_block_root, target.epoch)?"
  ensure (s.getCurrentSlot ≥ attestation.data.slot + 1)
    "Condition failed: self.get_current_slot()? >= attestation.data.slot + 1"

end Store

variable (env : Env)

/-- `state_transition` from the parent's state: the slots up to the block's, then the block. -/
def Env.stateTransition (state : BeaconState) (block : BeaconBlock) :
    Except String BeaconState :=
  Ream.Beacon.stateTransition env.hash env.epochRest (env.processBlock block) state block.slot

/-- `compute_pulled_up_tip`: the block's post-state pulled up to the next epoch boundary gives
its unrealized justification and the unrealized checkpoints, and, for a block of an earlier
epoch, the realized ones. -/
def computePulledUpTip (blockRoot : B256) : StoreM Unit := do
  let s ← get
  let state ← MonadExcept.ofExcept (lookup s.states blockRoot "beacon state not found")
  let state ← MonadExcept.ofExcept (processJustificationAndFinalization state)
  modify fun s => { s with
    unrealizedJustifications :=
      s.unrealizedJustifications.insert blockRoot state.currentJustifiedCheckpoint }
  modify fun s =>
    s.updateUnrealizedCheckpoints state.currentJustifiedCheckpoint state.finalizedCheckpoint
  let s ← get
  let block ← MonadExcept.ofExcept (lookup s.blocks blockRoot "block not found")
  let blockEpoch := computeEpochAtSlot block.slot
  let currentEpoch := s.getCurrentStoreEpoch
  if blockEpoch < currentEpoch then
    modify fun s => s.updateCheckpoints state.currentJustifiedCheckpoint state.finalizedCheckpoint

/-- The checks of `on_block` before its first write, ending in the post-state. -/
def Store.prepareBlock (s : Store) (block : BeaconBlock) (verifyBlobAvailability : Bool) :
    Except String BeaconState := do
  let parentRoot := block.parentRoot
  let blockRoot := env.blockRoot block
  let parentHex := parentRoot.debug.drop 2
  ensure (s.states.get? parentRoot).isSome
    s!"Missing parent block state for parent_root: {parentHex}"
  let currentSlot := s.getCurrentSlot
  let blockSlot := block.slot
  ensure (currentSlot ≥ blockSlot)
    s!"Block slot is ahead of current slot: block.slot = {blockSlot}, store.get_current_slot() = {currentSlot}"
  let finalizedSlot := computeStartSlotAtEpoch s.finalizedCheckpoint.epoch
  ensure (blockSlot > finalizedSlot)
    s!"Block slot must be greater than finalized slot: block.slot = {blockSlot}, finalized_slot = {finalizedSlot}"
  let finalizedCheckpointBlock ← s.getCheckpointBlock parentRoot s.finalizedCheckpoint.epoch
  ensure (s.finalizedCheckpoint.root = finalizedCheckpointBlock)
    "Condition failed: store.db.finalized_checkpoint_provider().get()?.root == finalized_checkpoint_block"
  if verifyBlobAvailability then do
    let available ← env.isDataAvailable blockRoot
    let rootHex := blockRoot.debug.drop 2
    ensure available s!"Data not available for block root: {rootHex}"
  let parentState ← lookup s.states parentRoot "beacon state not found"
  env.stateTransition parentState block

/-- The writes of an accepted block, none of which can fail: the block with its parent-index
entry, its post-state, its timeliness, the proposer boost when it is timely and the first of
its slot, and the checkpoints of its post-state. -/
def Store.storeBlock (s : Store) (blockRoot : B256) (block : BeaconBlock) (state : BeaconState) :
    Store :=
  let s := s.insertBlock blockRoot block
  let s := { s with states := s.states.insert blockRoot state }
  let timeIntoSlot := (s.time - s.genesisTime) % SECONDS_PER_SLOT
  let isBeforeAttestingInterval := decide (timeIntoSlot < SECONDS_PER_SLOT / INTERVALS_PER_SLOT)
  let isTimely := decide (s.getCurrentSlot = block.slot) && isBeforeAttestingInterval
  let s := { s with blockTimeliness := s.blockTimeliness.insert blockRoot isTimely }
  let isFirstBlock := decide (s.proposerBoostRoot = B256.ZERO)
  let s := if isTimely && isFirstBlock then { s with proposerBoostRoot := blockRoot } else s
  s.updateCheckpoints state.currentJustifiedCheckpoint state.finalizedCheckpoint

/-- `on_block`. -/
def onBlock (block : BeaconBlock) (verifyBlobAvailability : Bool) : StoreM Unit := do
  let s ← get
  let blockRoot := env.blockRoot block
  let state ← MonadExcept.ofExcept (s.prepareBlock env block verifyBlobAvailability)
  modify fun s => s.storeBlock blockRoot block state
  computePulledUpTip blockRoot

/-- `store_target_checkpoint_state`: the target's block state, advanced to the epoch's first
slot, unless the checkpoint already has a state or its block has none. -/
def storeTargetCheckpointState (target : Checkpoint) : StoreM Unit := do
  let s ← get
  if (s.checkpointStates.get? target).isSome then pure ()
  else
    match s.states.get? target.root with
    | none => pure ()
    | some baseState => do
      let targetSlot := computeStartSlotAtEpoch target.epoch
      let baseState ← if baseState.slot < targetSlot then
          MonadExcept.ofExcept (processSlots env.hash env.epochRest baseState targetSlot)
        else pure baseState
      modify fun s => { s with checkpointStates := s.checkpointStates.insert target baseState }

/-- `on_attestation`. -/
def onAttestation (attestation : Attestation) (isFromBlock : Bool) : StoreM Unit := do
  let s ← get
  MonadExcept.ofExcept (s.validateOnAttestation attestation isFromBlock)
  storeTargetCheckpointState env attestation.data.target
  let s ← get
  let targetState ← MonadExcept.ofExcept
    (lookup s.checkpointStates attestation.data.target "checkpoint_states not found")
  let indexedAttestation ← MonadExcept.ofExcept
    (env.getIndexedAttestation targetState attestation)
  let valid ← MonadExcept.ofExcept (env.isValidIndexedAttestation targetState indexedAttestation)
  MonadExcept.ofExcept (ensure (valid = true)
    "Condition failed: target_state.is_valid_indexed_attestation(&indexed_attestation)?")
  modify fun s => s.updateLatestMessages indexedAttestation.attestingIndices attestation

/-- `on_attester_slashing`: the validators in both attestations join the equivocating
indices, which start empty when the field was never written. -/
def onAttesterSlashing (attesterSlashing : AttesterSlashing) : StoreM Unit := do
  let attestation1 := attesterSlashing.attestation1
  let attestation2 := attesterSlashing.attestation2
  MonadExcept.ofExcept (ensure (isSlashableAttestationData attestation1.data attestation2.data)
    "Condition failed: is_slashable_attestation_data(&attestation_1.data, &attestation_2.data)")
  let s ← get
  let state ← MonadExcept.ofExcept
    (lookup s.states s.justifiedCheckpoint.root "beacon state not found")
  let valid1 ← MonadExcept.ofExcept (env.isValidIndexedAttestation state attestation1)
  MonadExcept.ofExcept (ensure (valid1 = true)
    "Condition failed: state.is_valid_indexed_attestation(&attestation_1)?")
  let valid2 ← MonadExcept.ofExcept (env.isValidIndexedAttestation state attestation2)
  MonadExcept.ofExcept (ensure (valid2 = true)
    "Condition failed: state.is_valid_indexed_attestation(&attestation_2)?")
  let both := attestation1.attestingIndices.filter (· ∈ attestation2.attestingIndices)
  modify fun s => { s with
    equivocatingIndices := some (both.foldl (fun equivocating index => equivocating.insert index)
      (s.equivocatingIndices.getD [])) }

/-- `get_forkchoice_store` on the database `db`: the anchor block and state under the anchor
root, both checkpoints and both unrealized checkpoints at the anchor, and the clock at the
anchor's slot. -/
def getForkchoiceStore (db : Store) (anchorState : BeaconState) (genesisTime : Nat)
    (anchorBlock : BeaconBlock) : Except String Store := do
  ensure (anchorBlock.stateRoot = env.hash.stateRoot anchorState)
    "Condition failed: anchor_block.state_root == anchor_state.tree_hash_root()"
  let anchorRoot := env.blockRoot anchorBlock
  let anchorEpoch := anchorState.getCurrentEpoch
  let justifiedCheckpoint : Checkpoint := ⟨anchorEpoch, anchorRoot⟩
  let finalizedCheckpoint : Checkpoint := ⟨anchorEpoch, anchorRoot⟩
  let db := { db with
    time := genesisTime + SECONDS_PER_SLOT * anchorState.slot
    genesisTime := genesisTime
    justifiedCheckpoint := justifiedCheckpoint
    finalizedCheckpoint := finalizedCheckpoint
    unrealizedJustifiedCheckpoint := justifiedCheckpoint
    unrealizedFinalizedCheckpoint := finalizedCheckpoint
    proposerBoostRoot := B256.ZERO }
  let db := db.insertBlock anchorRoot anchorBlock
  pure { db with
    states := db.states.insert anchorRoot anchorState
    checkpointStates := db.checkpointStates.insert justifiedCheckpoint anchorState
    unrealizedJustifications := db.unrealizedJustifications.insert anchorRoot justifiedCheckpoint }

/-- The calls a node makes on its store. -/
inductive Call where
  | onTick (time : Nat)
  | onBlock (block : BeaconBlock) (verifyBlobAvailability : Bool)
  | onAttestation (attestation : Attestation) (isFromBlock : Bool)
  | onAttesterSlashing (attesterSlashing : AttesterSlashing)

def Call.run : Call → StoreM Unit
  | .onTick time => modify fun s => s.onTick time
  | .onBlock block verifyBlobAvailability => ForkChoice.onBlock env block verifyBlobAvailability
  | .onAttestation attestation isFromBlock =>
    ForkChoice.onAttestation env attestation isFromBlock
  | .onAttesterSlashing attesterSlashing => ForkChoice.onAttesterSlashing env attesterSlashing

/-- A sequence of calls, each on the store the one before left, whether it succeeded or not. -/
def runCalls : List Call → Store → Store
  | [], s => s
  | call :: calls, s => runCalls calls ((call.run env).run s).state

end Ream.Beacon.ForkChoice
