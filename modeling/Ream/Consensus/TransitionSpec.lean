import Ream.Consensus.Transition
import Ream.Lib.Loop

/-!
# What each part of the state transition writes

One lemma per function of `Transition`, and the decomposition of `process_block` and
`state_transition` into them.
-/

namespace Ream.Consensus

open Ssz

variable (T : TreeHash)

/-! ## Empty slots -/

theorem processSlotsLoop_eq : ∀ (s : LeanState) (k : Nat),
    processSlotsLoop T s k = { s with
      slot := s.slot + k
      latestBlockHeader := { s.latestBlockHeader with
        stateRoot := (processSlotsLoop T s k).latestBlockHeader.stateRoot } }
  | s, 0 => rfl
  | s, k + 1 => by
    rw [processSlotsLoop, processSlotsLoop_eq (processSlot T s) k]
    unfold processSlot
    split <;> simp only [Nat.add_assoc, Nat.add_comm 1 k]

theorem processSlotsLoop_stateRoot_of_ne : ∀ (s : LeanState) (k : Nat),
    s.latestBlockHeader.stateRoot ≠ B256.ZERO →
      (processSlotsLoop T s k).latestBlockHeader.stateRoot = s.latestBlockHeader.stateRoot
  | s, 0, _ => rfl
  | s, k + 1, h => by
    rw [processSlotsLoop]
    have hstep : (processSlot T s).latestBlockHeader.stateRoot = s.latestBlockHeader.stateRoot := by
      unfold processSlot
      rw [if_neg h]
    rw [processSlotsLoop_stateRoot_of_ne (processSlot T s) k (by rw [hstep]; exact h), hstep]

/-- The first pass fills a missing state root with the root of the state it sees; a
non-zero root then stays for the remaining passes. -/
theorem processSlotsLoop_stateRoot_fill (s : LeanState) (k : Nat)
    (h0 : s.latestBlockHeader.stateRoot = B256.ZERO) (hroot : T.stateRoot s ≠ B256.ZERO) :
    (processSlotsLoop T s (k + 1)).latestBlockHeader.stateRoot = T.stateRoot s := by
  have hstep : (processSlot T s).latestBlockHeader.stateRoot = T.stateRoot s := by
    unfold processSlot
    rw [if_pos h0]
  rw [processSlotsLoop, processSlotsLoop_stateRoot_of_ne T _ k (by rw [hstep]; exact hroot), hstep]

theorem processSlots_ok {s s' : LeanState} {targetSlot : Nat}
    (h : processSlots T s targetSlot = .ok s') :
    s.slot < targetSlot ∧ s' = processSlotsLoop T s (targetSlot - s.slot) := by
  unfold processSlots at h
  split at h
  · rename_i hlt
    exact ⟨hlt, (Except.ok_inj.mp h).symm⟩
  · cases h

theorem processSlotsLoop_add : ∀ (s : LeanState) (k m : Nat),
    processSlotsLoop T s (k + m) = processSlotsLoop T (processSlotsLoop T s k) m
  | s, 0, m => by rw [Nat.zero_add]; rfl
  | s, k + 1, m => by
    rw [Nat.add_right_comm, processSlotsLoop, processSlotsLoop, processSlotsLoop_add]

theorem processSlotsLoop_slot (s : LeanState) (k : Nat) :
    (processSlotsLoop T s k).slot = s.slot + k := by
  rw [processSlotsLoop_eq]

/-- After at least one pass the header's state root is the pre-state's, filled from the pre-state
when it was missing. -/
theorem processSlotsLoop_stateRoot (s : LeanState) (k : Nat) (hroot : T.stateRoot s ≠ B256.ZERO) :
    (processSlotsLoop T s (k + 1)).latestBlockHeader.stateRoot =
      if s.latestBlockHeader.stateRoot = B256.ZERO then T.stateRoot s
      else s.latestBlockHeader.stateRoot := by
  by_cases h0 : s.latestBlockHeader.stateRoot = B256.ZERO
  · rw [if_pos h0, processSlotsLoop_stateRoot_fill T s k h0 hroot]
  · rw [if_neg h0, processSlotsLoop_stateRoot_of_ne T s (k + 1) h0]

/-- `process_slots` in one step: towards a later slot it sets the slot and fills a missing header
state root from the pre-state; a run to `a` and then to `b` is the run to `b`; a slot that is not
later is refused with the source's message. -/
theorem processSlots_closed_form (s : LeanState) :
    (∀ t, s.slot < t → T.stateRoot s ≠ B256.ZERO →
      processSlots T s t = .ok { s with
        slot := t
        latestBlockHeader := if s.latestBlockHeader.stateRoot = B256.ZERO then
            { s.latestBlockHeader with stateRoot := T.stateRoot s }
          else s.latestBlockHeader }) ∧
    (∀ a b, s.slot < a → a < b →
      (processSlots T s a >>= fun s' => processSlots T s' b) = processSlots T s b) ∧
    (∀ t, t ≤ s.slot →
      processSlots T s t = .error s!"Target slot must be in the future, expected {s.slot} < {t}") := by
  refine ⟨fun t ht hroot => ?_, fun a b ha hab => ?_, fun t ht => ?_⟩
  · obtain ⟨k, hk⟩ : ∃ k, t - s.slot = k + 1 := ⟨t - s.slot - 1, by omega⟩
    rw [processSlots, if_pos ht, hk, processSlotsLoop_eq, processSlotsLoop_stateRoot T s k hroot,
      show s.slot + (k + 1) = t by omega]
    by_cases h0 : s.latestBlockHeader.stateRoot = B256.ZERO
    · rw [if_pos h0, if_pos h0]
    · rw [if_neg h0, if_neg h0]
  · have hslot : (processSlotsLoop T s (a - s.slot)).slot = a := by
      rw [processSlotsLoop_slot]
      omega
    have hsplit : b - s.slot = (a - s.slot) + (b - a) := by omega
    rw [processSlots, if_pos ha, processSlots, if_pos (ha.trans hab), hsplit, processSlotsLoop_add]
    show processSlots T (processSlotsLoop T s (a - s.slot)) b = _
    rw [processSlots, hslot, if_pos hab]
  · rw [processSlots, if_neg (Nat.not_lt.mpr ht)]

/-- A hash whose state root is never zero. -/
def slotOneHash : TreeHash :=
  ⟨fun _ => B256.ZERO, fun _ => B256.ZERO, fun _ => B256.ZERO, fun _ => B256.ZERO, fun _ => 1⟩

/-- Genesis has no header state root: three slots later the header carries the genesis root. -/
theorem processSlots_genesis_closed_form :
    ∃ s, generateGenesis slotOneHash 0 none = some s ∧
      processSlots slotOneHash s 3 = .ok { s with
        slot := 3
        latestBlockHeader := { s.latestBlockHeader with stateRoot := 1 } } :=
  ⟨_, rfl, by
    rw [(processSlots_closed_form slotOneHash _).1 3 (by decide) (by decide)]
    rfl⟩

/-! ## The block header -/

theorem pushZeros_ok : ∀ {hashes hashes' : VariableList B256 MAX_HISTORICAL_BLOCK_HASHES}
    {k : Nat}, pushZeros hashes k = .ok hashes' →
      hashes'.data = hashes.data ++ List.replicate k B256.ZERO
  | hashes, hashes', 0, h => by
    simp only [pushZeros, Except.ok_inj] at h
    subst h
    simp
  | hashes, hashes', k + 1, h => by
    unfold pushZeros at h
    split at h
    · cases h
    · rename_i hashes1 hpush
      rw [pushZeros_ok h, VariableList.push_ok hpush, List.replicate_succ]
      simp

theorem growJustifiedSlots_ok {js js' : BitList MAX_HISTORICAL_BLOCK_HASHES} {length : Nat}
    (h : growJustifiedSlots js length = .ok js') :
    js'.len = max js.len length ∧ ∀ i, js'.getD i = js.getD i := by
  unfold growJustifiedSlots at h
  split at h
  · rename_i hshort
    rw [Except.bind_eq_ok] at h
    obtain ⟨fresh, hfresh, h⟩ := h
    rw [Except.mapError_eq_ok] at hfresh
    rw [Except.pure_eq_ok] at h
    subst h
    refine ⟨?_, fun i => ?_⟩
    · rw [BitList.len_union, BitList.len_withCapacity hfresh]
      omega
    · rw [BitList.getD_union, BitList.getD_withCapacity hfresh, Bool.false_or]
  · rename_i hlong
    rw [Except.pure_eq_ok] at h
    subst h
    exact ⟨by omega, fun _ => rfl⟩

/-- At the first block the latest header is the genesis one, at the finalized slot, so it
has no bit to set. -/
theorem setGenesisBit_eq (s : LeanState) (js : BitList MAX_HISTORICAL_BLOCK_HASHES) :
    setGenesisBit s js = .ok js := by
  unfold setGenesisBit
  split
  · rename_i h0
    rw [h0, justifiedIndexAfter_of_le (Nat.zero_le _)]
    rfl
  · rfl

/-- Growing `justified_slots` adds unset bits up to the slot before the block, and no
genesis bit. -/
theorem extendJustifiedSlots_ok {s : LeanState} {blockSlot : Nat}
    {js : BitList MAX_HISTORICAL_BLOCK_HASHES} (h : extendJustifiedSlots s blockSlot = .ok js) :
    js.len = max s.justifiedSlots.len (blockSlot - 1 - s.latestFinalized.slot) ∧
      ∀ i, js.getD i = s.justifiedSlots.getD i := by
  unfold extendJustifiedSlots at h
  split at h
  · rename_i hnone
    cases h
    have := justifiedIndexAfter_eq_none.mp hnone
    exact ⟨by omega, fun _ => rfl⟩
  · rename_i targetIndex hsome
    obtain ⟨hlt, rfl⟩ := justifiedIndexAfter_eq_some.mp hsome
    rw [Except.bind_eq_ok] at h
    obtain ⟨js1, hjs1, h⟩ := h
    rw [setGenesisBit_eq, Except.ok_inj] at h
    subst h
    obtain ⟨hlen, hget⟩ := growJustifiedSlots_ok hjs1
    exact ⟨by omega, hget⟩

/-- What a successful `process_block_header` checked and wrote. -/
structure HeaderEffect (s : LeanState) (block : Block) (s' : LeanState) : Prop where
  slot_eq : block.slot = s.slot
  after_latest : s.latestBlockHeader.slot < block.slot
  proposer : isProposer block.proposerIndex s.slot s.validators.len = true
  parent : block.parentRoot = s.latestBlockHeader.treeHashRoot T
  frame : s' = { s with
    latestJustified := s'.latestJustified
    latestFinalized := s'.latestFinalized
    historicalBlockHashes := s'.historicalBlockHashes
    justifiedSlots := s'.justifiedSlots
    latestBlockHeader := s'.latestBlockHeader }
  justified : s'.latestJustified = if s.latestBlockHeader.slot = 0 then
    { s.latestJustified with root := block.parentRoot } else s.latestJustified
  finalized : s'.latestFinalized = if s.latestBlockHeader.slot = 0 then
    { s.latestFinalized with root := block.parentRoot } else s.latestFinalized
  history : s'.historicalBlockHashes.data = s.historicalBlockHashes.data ++
    block.parentRoot :: List.replicate (block.slot - s.latestBlockHeader.slot - 1) B256.ZERO
  justifiedSlots_len : s'.justifiedSlots.len =
    max s.justifiedSlots.len (block.slot - 1 - s.latestFinalized.slot)
  justifiedSlots_getD : ∀ i, s'.justifiedSlots.getD i = s.justifiedSlots.getD i
  header : s'.latestBlockHeader =
    { slot := block.slot, proposerIndex := block.proposerIndex, parentRoot := block.parentRoot,
      stateRoot := B256.ZERO, bodyRoot := T.bodyRoot block.body }

theorem genesisCase_slots (s : LeanState) (root : B256) :
    (if s.latestBlockHeader.slot = 0 then
      { s with latestJustified := { s.latestJustified with root := root },
               latestFinalized := { s.latestFinalized with root := root } } else s) =
    { s with
      latestJustified := if s.latestBlockHeader.slot = 0 then
        { s.latestJustified with root := root } else s.latestJustified
      latestFinalized := if s.latestBlockHeader.slot = 0 then
        { s.latestFinalized with root := root } else s.latestFinalized } := by
  split <;> rfl

theorem processBlockHeader_ok {s s' : LeanState} {block : Block}
    (h : processBlockHeader T s block = .ok s') : HeaderEffect T s block s' := by
  unfold processBlockHeader at h
  simp only [Except.ite_error_eq_ok, Bool.not_eq_true', Bool.not_eq_false, not_not] at h
  obtain ⟨hslot, hafter, hprop, hparent, h⟩ := h
  rw [genesisCase_slots] at h
  simp only [Except.bind_eq_ok, Except.mapError_eq_ok, Except.pure_eq_ok] at h
  obtain ⟨hist1, hpush, hist2, hzeros, js, hjs, rfl⟩ := h
  have hjs' := extendJustifiedSlots_ok hjs
  simp only [apply_ite Checkpoint.slot, ite_self] at hjs'
  refine ⟨hslot, by omega, by simpa using hprop, hparent, rfl, rfl, rfl, ?_, hjs'.1, hjs'.2, rfl⟩
  rw [pushZeros_ok hzeros, VariableList.push_ok hpush]
  simp

/-! ## Blocks and transitions -/

theorem processBlock_ok {s s' : LeanState} {block : Block} (h : processBlock T s block = .ok s') :
    ∃ h', processBlockHeader T s block = .ok h' ∧
      processAttestations T h' block.body.attestations.data = .ok s' := by
  unfold processBlock at h
  rw [Except.bind_eq_ok] at h
  exact h

theorem stateTransition_ok {s s' : LeanState} {block : Block} {validSignatures : Bool}
    (h : stateTransition T s block validSignatures = .ok s') :
    validSignatures = true ∧ ∃ s1, processSlots T s block.slot = .ok s1 ∧
      processBlock T s1 block = .ok s' ∧ block.stateRoot = T.stateRoot s' := by
  unfold stateTransition at h
  cases validSignatures with
  | false => cases h
  | true =>
    simp only [Bool.not_true, Bool.false_eq_true, if_false, Except.bind_eq_ok,
      Except.mapError_eq_ok, Except.ite_error_eq_ok, not_not, Except.pure_eq_ok] at h
    obtain ⟨s1, hs1, s2, hs2, hroot, rfl⟩ := h
    exact ⟨rfl, s1, hs1, hs2, hroot⟩

end Ream.Consensus
