import Ream.ForkChoice.Store

/-!
# LMD GHOST and `update_head`

`compute_lmd_ghost_head` weighs each block by the latest votes at or below it and descends to the
heaviest child, ties to the larger root; `update_head` then walks down to the finalized slot. Each
`while` loop has as fuel one step more than its table has entries.
-/

namespace Ream.ForkChoice

open Ssz Ream.Consensus

/-- `extract_attestations_from_aggregated_payloads`: the keys whose data is known, sorted by
`(slot, data_root)` from the largest down, and the first data of each validator. -/
def Store.extractAttestationsFromAggregatedPayloads (s : Store)
    (signatureKeys : List SignatureKey) : AssocMap Nat AttestationData :=
  let resolved := signatureKeys.filterMap fun key =>
    (s.attestationDataByRoot.get? key.dataRoot).map fun data =>
      (key.validatorId, key.dataRoot, data)
  let sorted := resolved.insertionSort fun a b =>
    decide (b.2.2.slot < a.2.2.slot ∨ (b.2.2.slot = a.2.2.slot ∧ b.2.1 ≤ a.2.1))
  sorted.foldl (fun attestations (validatorId, _, data) =>
      if (attestations.get? validatorId).isSome then attestations
      else attestations.insert validatorId data)
    AssocMap.empty

/-- The weight walk of one vote: every indexed block above the start slot on the way down
from `root` gains one. -/
def addWeights (indexMap : AssocMap B256 ChildIndexEntry) (startSlot : Nat) :
    Nat → B256 → AssocMap B256 Nat → AssocMap B256 Nat
  | 0, _, weights => weights
  | fuel + 1, currentRoot, weights =>
    match indexMap.get? currentRoot with
    | none => weights
    | some entry =>
      if entry.slot ≤ startSlot then weights
      else addWeights indexMap startSlot fuel entry.parentRoot
        (weights.insert currentRoot (weights.getD currentRoot 0 + 1))

/-- `children_map`: each indexed block under its parent, except under the zero root and,
with a positive `min_score`, the blocks weighing less. -/
def childrenMap (indexMap : AssocMap B256 ChildIndexEntry) (weights : AssocMap B256 Nat)
    (minScore : Nat) : AssocMap B256 (List B256) :=
  indexMap.entries.foldl (fun children (blockRoot, entry) =>
      if entry.parentRoot = B256.ZERO then children
      else if minScore > 0 ∧ weights.getD blockRoot 0 < minScore then children
      else children.insert entry.parentRoot (children.getD entry.parentRoot [] ++ [blockRoot]))
    AssocMap.empty

/-- `max_by_key` over `(vote_weight, hash)`: the last child with the largest key, and its
slot. -/
def bestChild (indexMap : AssocMap B256 ChildIndexEntry) (weights : AssocMap B256 Nat) :
    List B256 → Option (B256 × Nat)
  | [] => none
  | child :: rest =>
    let slotOf := fun root => ((indexMap.get? root).map ChildIndexEntry.slot).getD 0
    let key := fun root => (weights.getD root 0, root)
    some <| rest.foldl (fun best c =>
        if (key best.1).1 < (key c).1 ∨ ((key best.1).1 = (key c).1 ∧ best.1 ≤ c) then
          (c, slotOf c)
        else best)
      (child, slotOf child)

/-- The descent: from `head`, to the best child while there is one. -/
def descend (indexMap : AssocMap B256 ChildIndexEntry) (weights : AssocMap B256 Nat)
    (children : AssocMap B256 (List B256)) : Nat → B256 → Nat → Except String (B256 × Nat)
  | 0, head, headSlot => .ok (head, headSlot)
  | fuel + 1, head, headSlot =>
    match children.get? head with
    | none => .ok (head, headSlot)
    | some cs =>
      match bestChild indexMap weights cs with
      | none => .error s!"No children found for current root: {head}"
      | some (child, childSlot) => descend indexMap weights children fuel child childSlot

/-- The block the vote count starts from: the provided root when the index knows it, the
oldest block otherwise. -/
def Store.ghostRoot (s : Store) (providedRoot : B256) : Except String B256 :=
  if providedRoot = B256.ZERO ∨ (s.childrenIndex.get? providedRoot).isNone then
    match s.oldestRoot with
    | some root => .ok root
    | none => .error "No blocks found to calculate fork choice"
  else .ok providedRoot

/-- `compute_lmd_ghost_head`, over the attestation data of the latest votes. -/
def Store.computeLmdGhostHead (s : Store) (attestations : List AttestationData)
    (providedRoot : B256) (minScore : Nat) : Except String (B256 × Nat) := do
  let indexMap := s.childrenIndex
  let root ← s.ghostRoot providedRoot
  let startSlot ← match indexMap.get? root with
    | some entry => pure entry.slot
    | none =>
      match s.blocks.get? root with
      | some block => pure block.block.slot
      | none => .error s!"Failed to get block for root {root}"
  let weights := attestations.foldl
    (fun weights data => addWeights indexMap startSlot (indexMap.size + 1) data.head.root weights)
    AssocMap.empty
  descend indexMap weights (childrenMap indexMap weights minScore) (indexMap.size + 1) root
    startSlot

/-- The finalized walk of `update_head`: down the parent links while the block sits above
the target slot. -/
def Store.walkToSlot (s : Store) (targetSlot : Nat) : Nat → B256 → B256
  | 0, root => root
  | fuel + 1, root =>
    match s.lookupSlot root with
    | none => root
    | some (parentRoot, slot) =>
      if slot ≤ targetSlot then root else s.walkToSlot targetSlot fuel parentRoot

/-- The votes `update_head` counts: each validator's latest known data whose head is above
the finalized slot. -/
def Store.headVotes (s : Store) : List AttestationData :=
  let finalizedSlot := s.latestFinalized.slot
  let relevantKeys := s.latestKnownAggregatedPayloads.keys.filter fun key =>
    match s.attestationDataByRoot.get? key.dataRoot with
    | some data => decide (data.head.slot > finalizedSlot)
    | none => false
  (s.extractAttestationsFromAggregatedPayloads relevantKeys).entries.map Prod.snd

/-- The finalized slot of the new head's state. -/
def Store.headFinalizedSlot (s : Store) (newHead : B256) : Except String Nat :=
  match s.states.get? newHead with
  | some state => .ok state.latestFinalized.slot
  | none => .error "State not found"

/-- The finalized checkpoint `update_head` stores: the block the walk from the new head lands
on, when it sits at the target slot, and the stored checkpoint otherwise. -/
def Store.finalizedAfter (s : Store) (newHead : B256) (targetFinalizedSlot : Nat) : Checkpoint :=
  let finalizedRoot :=
    s.walkToSlot targetFinalizedSlot (s.childrenIndex.size + s.blocks.size + 1) newHead
  if (s.lookupSlot finalizedRoot).map Prod.snd = some targetFinalizedSlot then
    ⟨finalizedRoot, targetFinalizedSlot⟩
  else s.latestFinalized

/-- What `update_head` computes from the tables: the new head, its slot and the finalized
checkpoint to store. -/
def Store.headAndFinalized (s : Store) : Except String (B256 × Nat × Checkpoint) := do
  let (newHead, newHeadSlot) ← s.computeLmdGhostHead s.headVotes s.latestJustified.root 0
  let targetFinalizedSlot ← s.headFinalizedSlot newHead
  pure (newHead, newHeadSlot, s.finalizedAfter newHead targetFinalizedSlot)

/-- `Store::update_head`: publish the head's slot, write the head and the finalized
checkpoint. -/
def updateHead : StoreM Unit := do
  let s ← get
  let (newHead, newHeadSlot, finalFinalizedCheckpoint) ←
    MonadExcept.ofExcept s.headAndFinalized
  set { s with
    head := newHead
    headSlot := newHeadSlot
    latestFinalized := finalFinalizedCheckpoint }

end Ream.ForkChoice
