import Ream.Beacon.ForkChoice.Monotone

/-!
# `get_head` before the first attester slashing

Nothing writes the equivocating indices before an attester slashing, and `get_weight` reads them
with `?`: once a validator has voted, every `get_weight` fails with `FieldNotInitilized`, and
`get_head` fails as soon as the justified block has a child.
-/

namespace Ream.Beacon.ForkChoice

open Ream.Consensus (B256)
open EStateM

/-! ## Weights and the head with the field unwritten -/

theorem foldlM_scoreVote_of_none {s : Store} (hnone : s.equivocatingIndices = none)
    (state : BeaconState) (root : B256) :
    ∀ (indices : List Nat) (score : UInt64), (∃ i ∈ indices, (s.latestMessages.get? i).isSome) →
      indices.foldlM (s.scoreVote state root) score = .error "Field not initilized"
  | [], _, ⟨_, hi, _⟩ => absurd hi List.not_mem_nil
  | index :: indices, score, ⟨i, hi, hvote⟩ => by
    rw [List.foldlM_cons]
    cases hlatest : s.latestMessages.get? index with
    | some message =>
      have hpass : s.scoreVote state root score index = .error "Field not initilized" := by
        simp only [Store.scoreVote, hlatest, hnone]
      rw [hpass]
      rfl
    | none =>
      have hpass : s.scoreVote state root score index = pure score := by
        simp only [Store.scoreVote, hlatest]
      rw [hpass, pure_bind]
      rcases List.mem_cons.mp hi with rfl | hi
      · rw [hlatest] at hvote
        cases hvote
      · exact foldlM_scoreVote_of_none hnone state root indices score ⟨i, hi, hvote⟩

theorem getWeight_of_equivocatingIndices_none {s : Store} (hnone : s.equivocatingIndices = none)
    {state : BeaconState} (hstate : s.checkpointStates.get? s.justifiedCheckpoint = some state)
    {indices : List Nat} (hindices : unslashedAndActiveIndices state = .ok indices)
    (hvote : ∃ i ∈ indices, (s.latestMessages.get? i).isSome) (root : B256) :
    s.getWeight root = .error "Field not initilized" := by
  have hlookup : lookup s.checkpointStates s.justifiedCheckpoint "checkpoint_states not found" =
      .ok state := lookup_eq_ok.mpr hstate
  simp only [Store.getWeight, hlookup, hindices, Except.ok_bind,
    foldlM_scoreVote_of_none hnone state root indices 0 hvote]
  rfl

theorem headLoop_of_getWeight_error {s : Store} {blocks : AssocMap B256 BlockWithEpochInfo}
    {head : B256} (hchildren : Store.childrenIn blocks head ≠ []) {e : String}
    (hweight : ∀ root, s.getWeight root = .error e) (fuel : Nat) :
    s.headLoop blocks (fuel + 1) head = .error e := by
  obtain ⟨child, rest, hcons⟩ := List.exists_cons_of_ne_nil hchildren
  simp only [Store.headLoop, hcons, List.isEmpty_cons, Bool.false_eq_true, ↓reduceIte,
    List.mapM_cons, hweight]
  rfl

theorem getHead_of_equivocatingIndices_none {s : Store} (hnone : s.equivocatingIndices = none)
    {tree : AssocMap B256 BlockWithEpochInfo} (htree : s.getFilteredBlockTree = .ok tree)
    (hchild : Store.childrenIn tree s.justifiedCheckpoint.root ≠ [])
    {state : BeaconState} (hstate : s.checkpointStates.get? s.justifiedCheckpoint = some state)
    {indices : List Nat} (hindices : unslashedAndActiveIndices state = .ok indices)
    (hvote : ∃ i ∈ indices, (s.latestMessages.get? i).isSome) :
    s.getHead = .error "Field not initilized" := by
  simp only [Store.getHead, htree, Except.ok_bind]
  exact headLoop_of_getWeight_error hchild
    (getWeight_of_equivocatingIndices_none hnone hstate hindices hvote) _

/-! ## The field stays unwritten until an attester slashing -/

def Call.isAttesterSlashing : Call → Bool
  | .onAttesterSlashing _ => true
  | _ => false

theorem updateLatestMessages_equivocatingIndices (s : Store) (indices : List Nat)
    (attestation : Attestation) :
    (s.updateLatestMessages indices attestation).equivocatingIndices = s.equivocatingIndices := by
  unfold Store.updateLatestMessages
  dsimp only
  generalize indices.filter _ = indices
  induction indices generalizing s with
  | nil => rfl
  | cons index indices ih =>
    rw [List.foldl_cons, ih, recordLatestMessage_equivocatingIndices]

theorem onTickPerSlot_equivocatingIndices (s : Store) (time : Nat) :
    (s.onTickPerSlot time).equivocatingIndices = s.equivocatingIndices := by
  unfold Store.onTickPerSlot
  dsimp only
  split
  · rw [Store.updateCheckpoints_eq]
    split <;> rfl
  · split <;> rfl

theorem onTickLoop_equivocatingIndices :
    ∀ (k : Nat) (s : Store), (Store.onTickLoop k s).equivocatingIndices = s.equivocatingIndices
  | 0, _ => rfl
  | k + 1, s => (onTickLoop_equivocatingIndices k _).trans (onTickPerSlot_equivocatingIndices s _)

theorem equivocatingIndices_keptByWrites :
    KeptByWrites fun s s' => s'.equivocatingIndices = s.equivocatingIndices where
  refl _ := rfl
  trans _ _ _ hab hbc := hbc.trans hab
  tick s time := (onTickPerSlot_equivocatingIndices _ time).trans
    (onTickLoop_equivocatingIndices _ s)
  storeBlock s root block state := by
    unfold Store.storeBlock
    dsimp only
    rw [Store.updateCheckpoints_eq]
    split <;> rfl
  justifications _ _ _ := rfl
  unrealized s _ _ := by rw [Store.updateUnrealizedCheckpoints_eq]
  realized s _ _ := by rw [Store.updateCheckpoints_eq]
  checkpointStates _ _ _ := rfl
  latest := updateLatestMessages_equivocatingIndices

variable (env : Env)

theorem runCalls_equivocatingIndices :
    ∀ (calls : List Call) (s : Store), (∀ call ∈ calls, call.isAttesterSlashing = false) →
      (runCalls env calls s).equivocatingIndices = s.equivocatingIndices
  | [], _, _ => rfl
  | call :: calls, s, hcalls => by
    have hcall : ((call.run env).run s).state.equivocatingIndices = s.equivocatingIndices := by
      cases call with
      | onTick time => exact equivocatingIndices_keptByWrites.tick s time
      | onBlock block verifyBlobAvailability =>
        exact onBlock_keeps env equivocatingIndices_keptByWrites block verifyBlobAvailability s
      | onAttestation attestation isFromBlock =>
        exact onAttestation_keeps env equivocatingIndices_keptByWrites attestation isFromBlock s
      | onAttesterSlashing attesterSlashing =>
        cases hcalls _ List.mem_cons_self
    exact (runCalls_equivocatingIndices calls _
      fun c hc => hcalls c (List.mem_cons_of_mem call hc)).trans hcall

theorem getForkchoiceStore_equivocatingIndices {db s : Store} {anchorState : BeaconState}
    {genesisTime : Nat} {anchorBlock : BeaconBlock}
    (h : getForkchoiceStore env db anchorState genesisTime anchorBlock = .ok s) :
    s.equivocatingIndices = db.equivocatingIndices := by
  simp only [getForkchoiceStore, Except.bind_eq_ok] at h
  obtain ⟨⟨⟩, -, h⟩ := h
  cases h
  rfl

/-- From a new database, until an attester slashing, `get_head` fails once a validator of the
justified checkpoint state has a latest message and the justified block a child in the
filtered tree. -/
theorem get_head_fails_before_attester_slashing {db s₀ : Store} {anchorState : BeaconState}
    {genesisTime : Nat} {anchorBlock : BeaconBlock} (hdb : db.equivocatingIndices = none)
    (hstore : getForkchoiceStore env db anchorState genesisTime anchorBlock = .ok s₀)
    {calls : List Call} (hcalls : ∀ call ∈ calls, call.isAttesterSlashing = false)
    {tree : AssocMap B256 BlockWithEpochInfo}
    (htree : (runCalls env calls s₀).getFilteredBlockTree = .ok tree)
    (hchild : Store.childrenIn tree (runCalls env calls s₀).justifiedCheckpoint.root ≠ [])
    {state : BeaconState}
    (hstate : (runCalls env calls s₀).checkpointStates.get?
      (runCalls env calls s₀).justifiedCheckpoint = some state)
    {indices : List Nat} (hindices : unslashedAndActiveIndices state = .ok indices)
    (hvote : ∃ i ∈ indices, ((runCalls env calls s₀).latestMessages.get? i).isSome) :
    (runCalls env calls s₀).getHead = .error "Field not initilized" := by
  have hnone : (runCalls env calls s₀).equivocatingIndices = none := by
    rw [runCalls_equivocatingIndices env calls s₀ hcalls,
      getForkchoiceStore_equivocatingIndices env hstore, hdb]
  exact getHead_of_equivocatingIndices_none hnone htree hchild hstate hindices hvote

/-- The vote of the only validator for the first block, in slot 1. -/
def firstVote : Attestation := ⟨[true], ⟨1, 0, 2, ⟨0, 1⟩, ⟨0, 1⟩⟩, [true]⟩

/-- Ticking to slot 2, receiving the first block and its vote. -/
def firstSlotCalls : List Call :=
  [.onTick 24, .onBlock firstBlock false, .onAttestation firstVote false]

/-- After the genesis store sees the first block and the vote for it, whose parent links lead
down in slot, `get_head` fails, where the head is the first block. -/
theorem firstVote_head_fails :
    ((runCalls singleValidatorEnv firstSlotCalls genesisStore).blocks.entries.all fun entry =>
        ((runCalls singleValidatorEnv firstSlotCalls genesisStore).blocks.get?
          entry.2.parentRoot).all fun parent => decide (parent.slot < entry.2.slot)) = true ∧
      (runCalls singleValidatorEnv firstSlotCalls genesisStore).getHead =
        .error "Field not initilized" :=
  ⟨by decide, @get_head_fails_before_attester_slashing singleValidatorEnv emptyStore genesisStore
    genesisState 0 genesisBlock rfl rfl firstSlotCalls (by decide) _ rfl (by decide) _ rfl _ rfl
    (by decide)⟩

end Ream.Beacon.ForkChoice
