import Ream.ForkChoice.Production
import Ream.ForkChoice.Atomicity

/-!
# The round builder's justification test

`select_round_based` tests a checkpoint by the bit at its own slot, where the state transition
reads the bit at `slot - finalized - 1` (`LeanState.slotJustified`); the two positions differ by
one even before anything is finalized.
-/

namespace Ream.ForkChoice

open Ssz Ream.Consensus

/-- The round's test of a checkpoint, as `source_is_justified` and `target_is_justified`
compute it. -/
def RoundState.checkpointJustified (round : RoundState) (headState : LeanState)
    (c : Checkpoint) : Bool :=
  decide (c.slot ≤ round.currentFinalizedSlot) || bitAt round.currentJustifiedSlots c.slot ||
    bitAt headState.justifiedSlots c.slot || decide (c = round.currentJustified)

theorem RoundState.checkpointJustified_of_headState_bit {round : RoundState}
    {headState : LeanState} {c : Checkpoint} (h : bitAt headState.justifiedSlots c.slot = true) :
    round.checkpointJustified headState c = true := by
  simp [RoundState.checkpointJustified, h]

variable (T : TreeHash)

theorem Store.roundCandidate_eq (s : Store) (ctx : BuildContext) (extended : List B256)
    (round : RoundState) (sa : SignedAttestation) :
    s.roundCandidate T ctx extended round sa =
      ((s.blocks.get? sa.message.head.root).isSome &&
        attestationDataMatchesChain extended sa.message &&
        round.checkpointJustified ctx.headState sa.message.source &&
        !(!decide (sa.message.source.slot = 0 ∧ sa.message.target.slot = 0) &&
          round.checkpointJustified ctx.headState sa.message.target) &&
        !(!decide (sa.message.source.slot = 0 ∧ sa.message.target.slot = 0) &&
          !isJustifiableAfter sa.message.target.slot round.currentFinalizedSlot) &&
        !(round.attestations.data.contains ⟨sa.validatorId, sa.message⟩) &&
        (s.latestKnownAggregatedPayloads.get? ⟨sa.validatorId, T.dataRoot sa.message⟩).isSome) :=
  rfl

/-- A vote whose target the round takes for justified is dropped, unless it is the genesis
self vote. -/
theorem Store.roundCandidate_of_target_justified {s : Store} {ctx : BuildContext}
    {extended : List B256} {round : RoundState} {sa : SignedAttestation}
    (hgenesis : ¬ (sa.message.source.slot = 0 ∧ sa.message.target.slot = 0))
    (htarget : round.checkpointJustified ctx.headState sa.message.target = true) :
    s.roundCandidate T ctx extended round sa = false := by
  rw [Store.roundCandidate_eq]
  simp [hgenesis, htarget]

/-- Every round reads the head state's list too: on a head state whose bit at a vote's target
slot is set, the vote is dropped in every round, unless it is the genesis self vote. -/
theorem Store.roundCandidate_of_headState_bit {s : Store} {ctx : BuildContext}
    {extended : List B256} {round : RoundState} {sa : SignedAttestation} {headState : LeanState}
    {data : AttestationData} (hctx : ctx.headState = headState) (hsa : sa.message = data)
    (hgenesis : ¬ (data.source.slot = 0 ∧ data.target.slot = 0))
    (hbit : bitAt headState.justifiedSlots data.target.slot = true) :
    s.roundCandidate T ctx extended round sa = false := by
  rw [← hctx, ← hsa] at hbit
  rw [← hsa] at hgenesis
  exact Store.roundCandidate_of_target_justified T hgenesis
    (RoundState.checkpointJustified_of_headState_bit hbit)

theorem isProjectedSlotJustified_eq (s : LeanState) (slot : Nat) :
    isProjectedSlotJustified s.justifiedSlots s.latestFinalized.slot slot = s.slotJustified slot := by
  unfold isProjectedSlotJustified LeanState.slotJustified
  cases hindex : justifiedIndexAfter slot s.latestFinalized.slot with
  | none => simpa using justifiedIndexAfter_eq_none.mp hindex
  | some index =>
    by_cases hlt : index < s.justifiedSlots.len
    · simp [hlt]
    · simp [hlt, BitList.getD_of_len_le (Nat.le_of_not_lt hlt)]

/-! ## A vote the round drops and the state transition counts -/

/-- An empty block at slot 2 on `slotOneBlock`. -/
def emptySlotTwoBlock : Block :=
  { slot := 2, proposerIndex := 0, parentRoot := slotOneBlock.treeHashRoot polyHash,
    stateRoot := polyRoot 3, body := ⟨VariableList.empty⟩ }

/-- The validator's vote from genesis to the empty block at slot 2. -/
def skippingVote : AggregatedAttestation :=
  ⟨⟨[true], single_participant_le_limit⟩,
    { slot := 2, head := ⟨emptySlotTwoBlock.treeHashRoot polyHash, 2⟩,
      target := ⟨emptySlotTwoBlock.treeHashRoot polyHash, 2⟩, source := ⟨genesisRoot, 0⟩ }⟩

/-- The block at slot 3 carrying that vote: it justifies slot 2 and leaves slot 1 as it was. -/
def skippingBlock : Block :=
  { slot := 3, proposerIndex := 0, parentRoot := emptySlotTwoBlock.treeHashRoot polyHash,
    stateRoot := polyRoot 4, body := ⟨⟨[skippingVote], by decide⟩⟩ }

/-- The later vote from genesis to slot 1. -/
def lateVoteData : AttestationData :=
  { slot := 3, head := ⟨slotOneBlock.treeHashRoot polyHash, 1⟩,
    target := ⟨slotOneBlock.treeHashRoot polyHash, 1⟩, source := ⟨genesisRoot, 0⟩ }

/-- The block at slot 4 carrying the later vote. -/
def lateVoteBlock : Block :=
  { slot := 4, proposerIndex := 0, parentRoot := skippingBlock.treeHashRoot polyHash,
    stateRoot := polyRoot 5, body := ⟨⟨[⟨⟨[true], single_participant_le_limit⟩, lateVoteData⟩], by decide⟩⟩ }

/-- The round test and the state transition's test disagree on a reachable head state with
nothing finalized after genesis. The head has justified slot 2 from genesis and not slot 1;
the state transition reads slot 1 as not justified, but every round of the builder on that
head reads the bit of slot 2 for it and drops the vote from genesis to slot 1, which the
state transition counts in the next block, justifying slot 1. -/
theorem round_test_misreads_justified_slots :
    ∃ headState justified, Reachable polyHash headState justified ∧
      headState.latestFinalized.slot = 0 ∧
      isSlotJustified headState lateVoteData.target.slot = .ok false ∧
      (∀ (round : RoundState),
        round.checkpointJustified headState lateVoteData.target = true) ∧
      (∀ (s : Store) (ctx : BuildContext) (extended : List B256) (round : RoundState)
          (sa : SignedAttestation), ctx.headState = headState → sa.message = lateVoteData →
        s.roundCandidate polyHash ctx extended round sa = false) ∧
      ∃ advanced post, processSlots polyHash headState lateVoteBlock.slot = .ok advanced ∧
        processBlock polyHash advanced lateVoteBlock = .ok post ∧
        post.slotJustified lateVoteData.target.slot = true := by
  have h0 : Reachable polyHash polyGenesis ∅ :=
    @Reachable.genesis polyHash 0 (some oneValidator) _ rfl
  have h1 := @Reachable.block polyHash _ _ _ slotOneBlock
    (@Reachable.slots polyHash _ _ _ 1 h0 rfl) rfl
  have h2 := @Reachable.block polyHash _ _ _ emptySlotTwoBlock
    (@Reachable.slots polyHash _ _ _ 2 h1 rfl) rfl
  have h3 := @Reachable.block polyHash _ _ _ skippingBlock
    (@Reachable.slots polyHash _ _ _ 3 h2 rfl) rfl
  have hgenesis : ¬ (lateVoteData.source.slot = 0 ∧ lateVoteData.target.slot = 0) := by decide
  exact ⟨_, _, h3, rfl, rfl, fun _ => RoundState.checkpointJustified_of_headState_bit rfl,
    fun _ _ _ _ _ hctx hsa => Store.roundCandidate_of_headState_bit polyHash hctx hsa hgenesis rfl,
    _, _, rfl, rfl, rfl⟩

end Ream.ForkChoice
