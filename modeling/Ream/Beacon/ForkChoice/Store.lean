import Ream.Beacon.Epoch
import Ream.Lib.AssocMap
import Ream.Lib.Loop
import Ream.Lib.StoreM

/-!
# The beacon fork-choice store

The tables of `fork_choice/beacon/src/store.rs` as finite maps; an unwritten equivocating-indices
field is `none`. The unbounded recursions of `get_ancestor`, `filter_block_tree` and `get_head`
get one step more than the store has blocks, and running out is an error.
-/

namespace Ream.Beacon.ForkChoice

open Ream.Consensus (B256)

def GENESIS_SLOT : Nat := 0

/-- `seconds_per_slot` of the mainnet network spec. -/
def SECONDS_PER_SLOT : Nat := 12

def INTERVALS_PER_SLOT : Nat := 3

def PROPOSER_SCORE_BOOST : UInt64 := 40

structure LatestMessage where
  epoch : Nat
  root : B256
  deriving DecidableEq, Repr

structure AttestationData where
  slot : Nat
  index : Nat
  beaconBlockRoot : B256
  source : Checkpoint
  target : Checkpoint
  deriving DecidableEq, Repr

/-- An `Attestation` without its signature. -/
structure Attestation where
  aggregationBits : List Bool
  data : AttestationData
  committeeBits : List Bool
  deriving DecidableEq, Repr

/-- An `IndexedAttestation` without its signature. -/
structure IndexedAttestation where
  attestingIndices : List Nat
  data : AttestationData
  deriving DecidableEq, Repr

structure AttesterSlashing where
  attestation1 : IndexedAttestation
  attestation2 : IndexedAttestation
  deriving DecidableEq, Repr

/-- A block as fork choice reads it. -/
abbrev BeaconBlock := BeaconBlockHeader

structure BlockWithEpochInfo where
  block : BeaconBlock
  justifiedEpoch : Nat
  finalizedEpoch : Nat
  deriving DecidableEq, Repr

/-- The tables of `BeaconDB` that fork choice reads and writes. -/
structure Store where
  time : Nat
  genesisTime : Nat
  justifiedCheckpoint : Checkpoint
  finalizedCheckpoint : Checkpoint
  unrealizedJustifiedCheckpoint : Checkpoint
  unrealizedFinalizedCheckpoint : Checkpoint
  proposerBoostRoot : B256
  blocks : AssocMap B256 BeaconBlock
  /-- The parent-root multimap: the roots of the blocks stored with each parent. -/
  parentRootIndex : AssocMap B256 (List B256)
  states : AssocMap B256 BeaconState
  blockTimeliness : AssocMap B256 Bool
  checkpointStates : AssocMap Checkpoint BeaconState
  unrealizedJustifications : AssocMap B256 Checkpoint
  latestMessages : AssocMap Nat LatestMessage
  /-- `none` until the field is first written. -/
  equivocatingIndices : Option (List Nat)

/-- Store methods: they mutate the tables and may stop with an error. -/
abbrev StoreM := EStateM String Store

/-- A table lookup that fails with `err` on a missing key. -/
def lookup {α β : Type} [DecidableEq α] (m : AssocMap α β) (k : α) (err : String) :
    Except String β :=
  match m.get? k with
  | some v => .ok v
  | none => .error err

theorem lookup_eq_ok {α β : Type} [DecidableEq α] {m : AssocMap α β} {k : α} {err : String}
    {v : β} : lookup m k err = .ok v ↔ m.get? k = some v := by
  unfold lookup
  split <;> simp_all

/-- `get_total_active_balance` of `helpers.rs`: at least `EFFECTIVE_BALANCE_INCREMENT`. The
indices are those of the registry, so the `expect` never fires. -/
def totalActiveBalance (state : BeaconState) : UInt64 :=
  let balances := (state.getActiveValidatorIndices state.getCurrentEpoch).filterMap fun index =>
    state.validators[index]?.map (·.effectiveBalance)
  max EFFECTIVE_BALANCE_INCREMENT balances.sum

/-- The active validators of the state's epoch that are not slashed. -/
def unslashedAndActiveIndices (state : BeaconState) : Except String (List Nat) :=
  (state.getActiveValidatorIndices state.getCurrentEpoch).filterM fun i => do
    let validator ← vecIndex state.validators i
    pure !validator.slashed

/-! ## The walk of `get_ancestor` as a relation -/

/-- `AncestorAt blocks slot root a`: the walk from `root` down the parent links of `blocks`
stops at `a`, the first block at or below `slot`. -/
inductive AncestorAt (blocks : AssocMap B256 BeaconBlock) (slot : Nat) : B256 → B256 → Prop
  | here {root : B256} {block : BeaconBlock} :
      blocks.get? root = some block → block.slot ≤ slot → AncestorAt blocks slot root root
  | up {root a : B256} {block : BeaconBlock} :
      blocks.get? root = some block → slot < block.slot →
        AncestorAt blocks slot block.parentRoot a → AncestorAt blocks slot root a

namespace AncestorAt

variable {blocks blocks' : AssocMap B256 BeaconBlock} {slot : Nat}

theorem congr (h : ∀ k, blocks'.get? k = blocks.get? k) {root a : B256}
    (ha : AncestorAt blocks slot root a) : AncestorAt blocks' slot root a := by
  induction ha with
  | here hget hle => exact .here ((h _).trans hget) hle
  | up hget hlt _ ih => exact .up ((h _).trans hget) hlt ih

/-- Every block the walk visits is in the table, so a root the table lacks can be stored
without changing the walk. -/
theorem insert_of_get?_none {r : B256} (hr : blocks.get? r = none) (b : BeaconBlock)
    {root a : B256} (ha : AncestorAt blocks slot root a) :
    AncestorAt (blocks.insert r b) slot root a := by
  have kept : ∀ {k : B256} {block : BeaconBlock}, blocks.get? k = some block →
      (blocks.insert r b).get? k = some block := by
    intro k block hget
    have hne : k ≠ r := by
      rintro rfl
      rw [hget] at hr
      cases hr
    rw [AssocMap.get?_insert, if_neg hne, hget]
  induction ha with
  | here hget hle => exact .here (kept hget) hle
  | up hget hlt _ ih => exact .up (kept hget) hlt ih

end AncestorAt

/-- `get_ancestor` over the block table, with `fuel` lookups left. -/
def ancestorWalk (blocks : AssocMap B256 BeaconBlock) : Nat → B256 → Nat → Except String B256
  | 0, _, _ => .error "get_ancestor did not end"
  | fuel + 1, root, slot => do
    let block ← lookup blocks root "Failed to find beacon_block_provider()"
    if block.slot > slot then ancestorWalk blocks fuel block.parentRoot slot else pure root

theorem ancestorWalk_sound {blocks : AssocMap B256 BeaconBlock} :
    ∀ {fuel : Nat} {root : B256} {slot : Nat} {a : B256},
      ancestorWalk blocks fuel root slot = .ok a → AncestorAt blocks slot root a
  | 0, _, _, _, h => by cases h
  | fuel + 1, root, slot, a, h => by
    simp only [ancestorWalk, Except.bind_eq_ok, lookup_eq_ok] at h
    obtain ⟨block, hget, hwalk⟩ := h
    split at hwalk
    case isTrue hlt => exact .up hget hlt (ancestorWalk_sound hwalk)
    case isFalse hle =>
      obtain rfl := Except.pure_eq_ok.mp hwalk
      exact .here hget (Nat.le_of_not_lt hle)

namespace Store

variable (s : Store)

def getSlotsSinceGenesis : Nat := (s.time - s.genesisTime) / SECONDS_PER_SLOT

def getCurrentSlot : Nat := GENESIS_SLOT + s.getSlotsSinceGenesis

def getCurrentStoreEpoch : Nat := computeEpochAtSlot s.getCurrentSlot

def getAncestor (root : B256) (slot : Nat) : Except String B256 :=
  ancestorWalk s.blocks (s.blocks.size + 1) root slot

/-- The checkpoint block for `epoch` in the chain of `root`. -/
def getCheckpointBlock (root : B256) (epoch : Nat) : Except String B256 :=
  s.getAncestor root (computeStartSlotAtEpoch epoch)

/-- The voting source of a block as head: its unrealized justification when it is from an
earlier epoch, its post-state's current justified checkpoint otherwise. -/
def getVotingSource (blockRoot : B256) : Except String Checkpoint := do
  let block ← lookup s.blocks blockRoot "block not found"
  let currentEpoch := s.getCurrentStoreEpoch
  let blockEpoch := computeEpochAtSlot block.slot
  if currentEpoch > blockEpoch then
    lookup s.unrealizedJustifications blockRoot "unrealized_justifications not found"
  else do
    let headState ← lookup s.states blockRoot "state not found"
    pure headState.currentJustifiedCheckpoint

/-- The viability test of a leaf of `filter_block_tree`. -/
def leafViable (votingSource : Checkpoint) (finalizedCheckpointBlock : B256) : Bool :=
  let currentEpoch := s.getCurrentStoreEpoch
  let justifiedCheckpointEpoch := s.justifiedCheckpoint.epoch
  let correctJustified := justifiedCheckpointEpoch == GENESIS_EPOCH ||
    (votingSource.epoch == justifiedCheckpointEpoch || votingSource.epoch + 2 ≥ currentEpoch)
  let finalizedCheckpoint := s.finalizedCheckpoint
  let correctFinalized := finalizedCheckpoint.epoch == GENESIS_EPOCH ||
    finalizedCheckpoint.root == finalizedCheckpointBlock
  correctJustified && correctFinalized

/-- `filter_block_tree` with `fuel` levels left: whether a leaf below `blockRoot` is viable,
and the map of viable blocks as the call leaves it. The children are filtered in turn, and
the first error stops the call, as `collect` into a `Result` does. -/
def filterBlockTree : Nat → B256 → AssocMap B256 BlockWithEpochInfo →
    Except String (Bool × AssocMap B256 BlockWithEpochInfo)
  | 0, _, _ => .error "filter_block_tree did not end"
  | fuel + 1, blockRoot, blocks => do
    let block ← lookup s.blocks blockRoot "failed to get block"
    let children := s.parentRootIndex.getD blockRoot []
    if !children.isEmpty then do
      let (filterResults, blocks) ← children.foldlM (fun (results, blocks) child => do
          let (result, blocks) ← filterBlockTree fuel child blocks
          pure (results ++ [result], blocks))
        ([], blocks)
      if filterResults.any id then do
        let votingSource ← s.getVotingSource blockRoot
        let finalizedEpoch := s.finalizedCheckpoint.epoch
        pure (true, blocks.insert blockRoot ⟨block, votingSource.epoch, finalizedEpoch⟩)
      else pure (false, blocks)
    else do
      let votingSource ← s.getVotingSource blockRoot
      let finalizedCheckpointBlock ← s.getCheckpointBlock blockRoot s.finalizedCheckpoint.epoch
      if s.leafViable votingSource finalizedCheckpointBlock then
        pure (true, blocks.insert blockRoot
          ⟨block, votingSource.epoch, s.finalizedCheckpoint.epoch⟩)
      else pure (false, blocks)

def getFilteredBlockTree : Except String (AssocMap B256 BlockWithEpochInfo) := do
  let base := s.justifiedCheckpoint.root
  let (_, blocks) ← s.filterBlockTree (s.blocks.size + 1) base AssocMap.empty
  pure blocks

def getProposerScore : Except String UInt64 := do
  let justifiedCheckpointState ← lookup s.checkpointStates s.justifiedCheckpoint
    "Failed to find checkpoint in checkpoint states"
  let committeeWeight := totalActiveBalance justifiedCheckpointState / SLOTS_PER_EPOCH.toUInt64
  pure (committeeWeight * PROPOSER_SCORE_BOOST / 100)

/-- One pass of the loop of `get_weight` over the unslashed active validators: the
validator's effective balance joins the score when its latest message descends from `root`.
The equivocating indices are read only for a validator with a latest message. -/
def scoreVote (state : BeaconState) (root : B256) (score : UInt64) (index : Nat) :
    Except String UInt64 :=
  match s.latestMessages.get? index with
  | none => pure score
  | some message =>
    match s.equivocatingIndices with
    | none => .error "Field not initilized"
    | some equivocating =>
      if index ∈ equivocating then pure score
      else do
        let block ← lookup s.blocks root " block not found"
        let ancestor ← s.getAncestor message.root block.slot
        if ancestor = root then do
          let validator ← vecIndex state.validators index
          pure (score + validator.effectiveBalance)
        else pure score

def getWeight (root : B256) : Except String UInt64 := do
  let state ← lookup s.checkpointStates s.justifiedCheckpoint "checkpoint_states not found"
  let indices ← unslashedAndActiveIndices state
  let attestationScore ← indices.foldlM (s.scoreVote state root) 0
  if s.proposerBoostRoot = B256.ZERO then pure attestationScore
  else do
    let block ← lookup s.blocks root "block not found"
    let ancestor ← s.getAncestor s.proposerBoostRoot block.slot
    let proposerScore ← if ancestor = root then s.getProposerScore else pure 0
    pure (attestationScore + proposerScore)

/-- The order `sort_by` puts the weighted children in: by weight, ties by root. -/
def weightLe (a b : B256 × UInt64) : Bool :=
  decide (a.2 < b.2 ∨ (a.2 = b.2 ∧ a.1 ≤ b.1))

/-- The roots of the filtered tree whose block has `head` as parent, in the map's order. -/
def childrenIn (blocks : AssocMap B256 BlockWithEpochInfo) (head : B256) : List B256 :=
  (blocks.entries.filter fun entry => entry.2.block.parentRoot = head).map Prod.fst

/-- The loop of `get_head` with `fuel` passes left. -/
def headLoop (blocks : AssocMap B256 BlockWithEpochInfo) : Nat → B256 → Except String B256
  | 0, _ => .error "get_head did not end"
  | fuel + 1, head => do
    let children := childrenIn blocks head
    if children.isEmpty then pure head
    else do
      let weightedChildren ← children.mapM fun child => do
        let weight ← s.getWeight child
        pure (child, weight)
      match (weightedChildren.mergeSort weightLe).getLast? with
      | none => .error "Children should always be present"
      | some (bestChild, _) => headLoop blocks fuel bestChild

def getHead : Except String B256 := do
  let blocks ← s.getFilteredBlockTree
  let head := s.justifiedCheckpoint.root
  s.headLoop blocks (blocks.size + 1) head

end Store

end Ream.Beacon.ForkChoice
