import Ream.Consensus.Representation

/-! Chain linkage: after `state_transition` on a block, the next `process_slots` fills the
header's state root with the post-state's, so the header and the block hash alike, as long as no
state root is the zero sentinel. -/

namespace Ream.Consensus

open Ssz

/-- The `anchor_root` block of `Store::get_forkchoice_store`: the latest header, with its
state root filled in when it is missing, hashed. -/
def anchorRoot (T : TreeHash) (anchorState : LeanState) : B256 :=
  let header := anchorState.latestBlockHeader
  let header := if header.stateRoot = B256.ZERO then
      { header with stateRoot := T.stateRoot anchorState }
    else header
  header.treeHashRoot T

/-- What a successful transition on `b` writes: `b`'s header with no state root, the slot
of `b`, the history after the intermediate slots extended by `b`'s parent and zeros; and
`b` carries the post-state's root. -/
theorem stateTransition_header {T : TreeHash} {s s' : LeanState} {b : Block}
    (h : stateTransition T s b true = .ok s') :
    s'.latestBlockHeader = { BlockHeader.ofBlock T b with stateRoot := B256.ZERO } ∧
    s'.slot = b.slot ∧ b.stateRoot = T.stateRoot s' ∧
    ∃ s1, processSlots T s b.slot = .ok s1 ∧
      s'.historicalBlockHashes.data = s1.historicalBlockHashes.data ++
        b.parentRoot :: List.replicate (b.slot - s1.latestBlockHeader.slot - 1) B256.ZERO := by
  obtain ⟨-, s1, hs1, hblock, hroot⟩ := stateTransition_ok T h
  obtain ⟨h1, hheader, hatts⟩ := processBlock_ok T hblock
  have he := processBlockHeader_ok T hheader
  obtain ⟨hslot, hhdr, hhist, -⟩ := processAttestations_frame hatts
  refine ⟨by rw [hhdr, he.header]; rfl, ?_, hroot, s1, hs1, by rw [hhist, he.history]⟩
  rw [hslot, he.frame, he.slot_eq]

/-- The header after the next `process_slots` hashes as the block, when the block's state root
is not the sentinel. -/
theorem header_root_after_slots {T : TreeHash} {s' s'' : LeanState} {b : Block} {t : Nat}
    (hhdr : s'.latestBlockHeader = { BlockHeader.ofBlock T b with stateRoot := B256.ZERO })
    (hroot : b.stateRoot = T.stateRoot s') (ht : processSlots T s' t = .ok s'')
    (hne : b.stateRoot ≠ B256.ZERO) :
    s''.latestBlockHeader.treeHashRoot T = b.treeHashRoot T := by
  obtain ⟨hlt, rfl⟩ := processSlots_ok T ht
  have h0 : s'.latestBlockHeader.stateRoot = B256.ZERO := by rw [hhdr]
  obtain ⟨k, hk⟩ : ∃ k, t - s'.slot = k + 1 := ⟨t - s'.slot - 1, by omega⟩
  have hfill : (processSlotsLoop T s' (t - s'.slot)).latestBlockHeader.stateRoot =
      b.stateRoot := by
    rw [hroot, hk]
    exact processSlotsLoop_stateRoot_fill T s' k h0 (hroot ▸ hne)
  rw [processSlotsLoop_eq]
  show ({ s'.latestBlockHeader with stateRoot := _ } : BlockHeader).treeHashRoot T = _
  rw [hfill, hhdr]
  exact treeHashRoot_ofBlock T b

/-- Chain linkage of successful transitions from reachable states, for a tree hash under which
no state hashes to the zero sentinel. -/
theorem chain_linkage {T : TreeHash} (hT : ∀ state, T.stateRoot state ≠ B256.ZERO) {s : LeanState}
    {justified : Set Nat} (hr : Reachable T s justified) {b : Block} {s' : LeanState}
    (h : stateTransition T s b true = .ok s') :
    s'.latestBlockHeader = { BlockHeader.ofBlock T b with stateRoot := B256.ZERO } ∧
    anchorRoot T s' = b.treeHashRoot T ∧
    (∀ t s'', processSlots T s' t = .ok s'' →
      s''.latestBlockHeader.treeHashRoot T = b.treeHashRoot T ∧
      ∀ b2 : Block, (b2.parentRoot = s''.latestBlockHeader.treeHashRoot T ↔
        b2.parentRoot = b.treeHashRoot T)) ∧
    s'.historicalBlockHashes.data[s.latestBlockHeader.slot]? = some b.parentRoot ∧
    ∀ i, s.latestBlockHeader.slot < i → i < b.slot →
      s'.historicalBlockHashes.data[i]? = some B256.ZERO := by
  obtain ⟨hhdr, -, hroot, s1, hs1, hhist⟩ := stateTransition_header h
  obtain ⟨-, rfl⟩ := processSlots_ok T hs1
  rw [processSlotsLoop_eq] at hhist
  simp only at hhist
  have hlen : s.historicalBlockHashes.data.length = s.latestBlockHeader.slot :=
    hr.represents.history_length
  refine ⟨hhdr, ?_, fun t s'' ht => ?_, ?_, fun i hlo hhi => ?_⟩
  · have h0 : s'.latestBlockHeader.stateRoot = B256.ZERO := by rw [hhdr]
    rw [anchorRoot]
    simp only [h0, if_true]
    rw [← hroot, hhdr]
    exact treeHashRoot_ofBlock T b
  · have hlink := header_root_after_slots hhdr hroot ht (hroot ▸ hT s')
    exact ⟨hlink, fun b2 => by rw [hlink]⟩
  · rw [hhist, List.getElem?_append_right (by omega), hlen, Nat.sub_self]
    rfl
  · rw [hhist, List.getElem?_append_right (by omega), hlen]
    obtain ⟨j, hj⟩ : ∃ j, i - s.latestBlockHeader.slot = j + 1 :=
      ⟨i - s.latestBlockHeader.slot - 1, by omega⟩
    rw [hj, List.getElem?_cons_succ, List.getElem?_replicate, if_pos (by omega)]

/-- The block at slot 1 over the genesis header of `countHash`, carrying its post-state's
root. -/
theorem countBlock1_chain_linkage :
    (∀ state, countHash.stateRoot state ≠ B256.ZERO) ∧
    ∃ s s', Reachable countHash s ∅ ∧ stateTransition countHash s countBlock1 true = .ok s' ∧
    (s'.latestBlockHeader = { BlockHeader.ofBlock countHash countBlock1 with stateRoot := B256.ZERO } ∧
    anchorRoot countHash s' = countBlock1.treeHashRoot countHash ∧
    (∀ t s'', processSlots countHash s' t = .ok s'' →
      s''.latestBlockHeader.treeHashRoot countHash = countBlock1.treeHashRoot countHash ∧
      ∀ b2 : Block, (b2.parentRoot = s''.latestBlockHeader.treeHashRoot countHash ↔
        b2.parentRoot = countBlock1.treeHashRoot countHash)) ∧
    s'.historicalBlockHashes.data[s.latestBlockHeader.slot]? = some countBlock1.parentRoot ∧
    ∀ i, s.latestBlockHeader.slot < i → i < countBlock1.slot →
      s'.historicalBlockHashes.data[i]? = some B256.ZERO) :=
  have hr : Reachable countHash _ ∅ := @Reachable.genesis countHash 0 (some twoValidators) _ rfl
  ⟨countHash_stateRoot_ne_zero, _, _, hr, rfl,
    chain_linkage countHash_stateRoot_ne_zero hr rfl⟩

end Ream.Consensus
