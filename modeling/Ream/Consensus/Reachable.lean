import Ream.Consensus.VoteSoundness
import Ream.Consensus.TransitionSpec

/-!
# States reachable from genesis

`generate_genesis` followed by successful `process_slots` and `process_block` calls. The relation
carries a ghost set of the slots some earlier loop step marked justified (`BlockJustifies`).
-/

namespace Ream.Consensus

open Ssz

/-- Step `k` of the attestation loop of a call on `s` marks slot `t`. -/
def MarkedAt (s : LeanState) (atts : List AggregatedAttestation) (k t : Nat) : Prop :=
  ∃ σ σ', loopPrefix s atts k = .ok σ ∧ loopPrefix s atts (k + 1) = .ok σ' ∧
    σ'.state.marked t = true ∧ σ.state.marked t = false

/-- The slots that some step of the attestation loop of a call on `s` marks. -/
def JustifiedIn (s : LeanState) (atts : List AggregatedAttestation) (t : Nat) : Prop :=
  ∃ k, MarkedAt s atts k t

/-- The slots a block's attestations mark, after its header. -/
def BlockJustifies (T : TreeHash) (s : LeanState) (block : Block) (t : Nat) : Prop :=
  ∃ h, processBlockHeader T s block = .ok h ∧ JustifiedIn h block.body.attestations.data t

/-- Reachable states, with the slots justified on the way. -/
inductive Reachable (T : TreeHash) : LeanState → Set Nat → Prop where
  | genesis {genesisTime : Nat} {validators : Option (List Validator)} {s : LeanState} :
      generateGenesis T genesisTime validators = some s → Reachable T s ∅
  | slots {s s' : LeanState} {justified : Set Nat} {targetSlot : Nat} :
      Reachable T s justified → processSlots T s targetSlot = .ok s' → Reachable T s' justified
  | block {s s' : LeanState} {justified : Set Nat} {block : Block} :
      Reachable T s justified → processBlock T s block = .ok s' →
        Reachable T s' (justified ∪ {t | BlockJustifies T s block t})

theorem Reachable.stateTransition {T : TreeHash} {s s' : LeanState} {justified : Set Nat}
    {block : Block} {validSignatures : Bool} (hr : Reachable T s justified)
    (h : Ream.Consensus.stateTransition T s block validSignatures = .ok s') :
    ∃ s1, processSlots T s block.slot = .ok s1 ∧
      Reachable T s' (justified ∪ {t | BlockJustifies T s1 block t}) := by
  obtain ⟨-, s1, hs1, hblock, -⟩ := stateTransition_ok T h
  exact ⟨s1, hs1, (hr.slots hs1).block hblock⟩

end Ream.Consensus
