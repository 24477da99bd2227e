import Ream.ForkChoice.Production
import Ream.ForkChoice.Atomicity

/-!
# What a built block satisfies, and what it does not

`buildBlock_ok`: a built block is accepted by the parent state's transition, carries the
post-state's root and has at most `MAX_ATTESTATIONS_DATA` distinct data roots; one attestation
data may still appear twice.
-/

namespace Ream.ForkChoice

open Ssz Ream.Consensus

variable (T : TreeHash)

/-! ## Aggregates and their payloads -/

/-- Every aggregate `select_aggregated_proofs` emits carries the participants of the
payload it is paired with. -/
def PairsMatch (results : List (AggregatedAttestation × PayloadProof)) : Prop :=
  ∀ p ∈ results, p.1.aggregationBits = p.2.participants

theorem PairsMatch.append {results : List (AggregatedAttestation × PayloadProof)}
    (h : PairsMatch results) (proof : PayloadProof) (data : AttestationData) :
    PairsMatch (results ++ [(⟨proof.participants, data⟩, proof)]) := by
  intro p hp
  rcases List.mem_append.mp hp with hp | hp
  · exact h p hp
  · rw [List.mem_singleton] at hp
    subst hp
    rfl

theorem coverLoop_pairsMatch (payloads : AssocMap SignatureKey (List PayloadProof))
    (data : AttestationData) (dataRoot : B256) :
    ∀ (fuel : Nat) (uncovered : List Nat) (results : List (AggregatedAttestation × PayloadProof)),
      PairsMatch results → PairsMatch (coverLoop payloads data dataRoot fuel uncovered results)
  | 0, _, _, h => h
  | _ + 1, [], _, h => h
  | fuel + 1, targetId :: rest, results, h => by
    unfold coverLoop
    split
    · exact coverLoop_pairsMatch payloads data dataRoot fuel rest results h
    · split
      · exact coverLoop_pairsMatch payloads data dataRoot fuel _ _ (h.append _ data)
      · exact coverLoop_pairsMatch payloads data dataRoot fuel rest results h

theorem selectAggregatedProofs_parallel (s : Store) (attestations : List AggregatedAttestations) :
    (s.selectAggregatedProofs T attestations).1.map (·.aggregationBits) =
      (s.selectAggregatedProofs T attestations).2.map (·.participants) := by
  unfold Store.selectAggregatedProofs
  dsimp only
  rw [List.unzip_fst, List.unzip_snd, List.map_map, List.map_map]
  refine List.map_congr_left (Loop.foldl_prefix_invariant _ (fun _ results => PairsMatch results)
    ?_ _ (p := []) fun _ h => absurd h List.not_mem_nil)
  rintro - ⟨data, validatorIds⟩ results h
  exact coverLoop_pairsMatch _ _ _ _ _ _ h

/-! ## Sealing -/

theorem processBlock_stateRoot (s : LeanState) (block : Block) (stateRoot : B256) :
    processBlock T s { block with stateRoot } = processBlock T s block :=
  rfl

/-- The distinct data roots of a block that `process_attestations` accepts are at most
`MAX_ATTESTATIONS_DATA`. -/
theorem processAttestations_distinct {s s' : LeanState} {attestations : List AggregatedAttestation}
    (h : processAttestations T s attestations = .ok s') :
    (attestations.map fun a => T.dataRoot a.message).dedup.length ≤ MAX_ATTESTATIONS_DATA := by
  rw [processAttestations, Except.ite_error_eq_ok] at h
  exact not_not.mp h.1

/-- What a sealed block satisfies. -/
structure Sealed (headState : LeanState) (slot proposerIndex : Nat) (parentRoot : B256)
    (block : Block) (proofs : List PayloadProof) (postState : LeanState) : Prop where
  slot_eq : block.slot = slot
  proposer_eq : block.proposerIndex = proposerIndex
  parent_eq : block.parentRoot = parentRoot
  parallel : block.body.attestations.data.map (·.aggregationBits) = proofs.map (·.participants)
  transition : ∃ slotsState, processSlots T headState slot = .ok slotsState ∧
    processBlock T slotsState block = .ok postState
  stateRoot : block.stateRoot = T.stateRoot postState
  distinct : (dataRoots T block.body.attestations.data).dedup.length ≤ MAX_ATTESTATIONS_DATA

theorem sealBlock_ok {s : Store} {headState : LeanState} {attestations : List AggregatedAttestations}
    {slot proposerIndex : Nat} {parentRoot : B256} {block : Block} {proofs : List PayloadProof}
    {postState : LeanState}
    (h : s.sealBlock T headState attestations slot proposerIndex parentRoot =
      .ok (block, proofs, postState)) :
    Sealed T headState slot proposerIndex parentRoot block proofs postState := by
  unfold Store.sealBlock at h
  have hparallel := selectAggregatedProofs_parallel T s attestations
  generalize s.selectAggregatedProofs T attestations = selected at h hparallel
  obtain ⟨aggregated, aggregatedProofs⟩ := selected
  simp only [Except.bind_eq_ok, Except.mapError_eq_ok, Except.pure_eq_ok] at h
  obtain ⟨list, hlist, slotsState, hslots, post, hblock, hresult⟩ := h
  simp only [Prod.mk.injEq] at hresult
  obtain ⟨rfl, rfl, rfl⟩ := hresult
  have hdata : list.data = aggregated := by
    unfold VariableList.new at hlist
    split at hlist
    · cases hlist
      rfl
    · cases hlist
  obtain ⟨h', hheader, hatts⟩ := processBlock_ok T hblock
  refine ⟨rfl, rfl, rfl, ?_, ⟨slotsState, hslots, ?_⟩, rfl, ?_⟩
  · simpa [hdata] using hparallel
  · exact (processBlock_stateRoot T slotsState _ (T.stateRoot post)).trans hblock
  · exact processAttestations_distinct T hatts

theorem buildBlock_ok {s : Store} {strategy : BlockProductionStrategy} {slot proposerIndex : Nat}
    {parentRoot : B256} {attestations : Option (VariableList AggregatedAttestations 4096)}
    {block : Block} {proofs : List PayloadProof} {postState : LeanState}
    (h : s.buildBlock T strategy slot proposerIndex parentRoot attestations =
      .ok (block, proofs, postState)) :
    ∃ headState, s.states.get? parentRoot = some headState ∧
      Sealed T headState slot proposerIndex parentRoot block proofs postState := by
  unfold Store.buildBlock at h
  simp only [Except.bind_eq_ok] at h
  obtain ⟨ctx, hctx, selected, -, h⟩ := h
  refine ⟨ctx.headState, ?_, sealBlock_ok T h⟩
  unfold Store.loadBuildContext at hctx
  split at hctx
  · rename_i headState hstate
    cases hctx
    exact hstate
  · cases hctx

/-! ## A block the store builds and refuses -/

/-- Two validators. -/
def twoValidators : List Validator := [⟨[], [], 0⟩, ⟨[], [], 1⟩]

/-- `generate_genesis` with two validators, under `polyHash`. -/
def pairGenesis : LeanState := { polyGenesis with validators := ⟨twoValidators, by decide⟩ }

def pairAnchor : SignedBlock :=
  ⟨{ slot := 0, proposerIndex := 0, parentRoot := B256.ZERO,
     stateRoot := polyHash.stateRoot pairGenesis, body := ⟨VariableList.empty⟩ }, []⟩

def pairRoot : B256 := anchorRoot polyHash pairGenesis

/-- The genesis self-vote. -/
def selfVote : AttestationData :=
  { slot := 0, head := ⟨pairRoot, 0⟩, target := ⟨pairRoot, 0⟩, source := ⟨pairRoot, 0⟩ }

/-- The store once both validators' self-votes and one aggregate of each alone are known. -/
def Store.withSeparateAggregates (s : Store) : Store :=
  { s with
    latestKnownAttestations := (AssocMap.empty.insert 0 ⟨0, selfVote⟩).insert 1 ⟨1, selfVote⟩
    latestKnownAggregatedPayloads :=
      (AssocMap.empty.insert ⟨0, polyHash.dataRoot selfVote⟩ [⟨⟨[true], single_participant_le_limit⟩, []⟩]).insert
        ⟨1, polyHash.dataRoot selfVote⟩ [⟨⟨[false, true], by decide⟩, []⟩] }

/-- From the two-validator genesis store with each self-vote aggregated alone, both
strategies build the slot-1 block with the self-vote data twice, and `on_block` on that
store refuses it for duplicate data. -/
theorem producedBlock_repeats_data :
    ∃ s0, generateGenesis polyHash 0 (some twoValidators) = some pairGenesis ∧
      getForkchoiceStore polyHash 4 Store.empty pairAnchor pairGenesis (some 100) = .ok s0 ∧
      ∀ strategy, ∃ block proofs postState s',
        s0.withSeparateAggregates.buildBlock polyHash strategy 1 1 pairRoot none =
          .ok (block, proofs, postState) ∧
        block.body.attestations.data.map (·.message) = [selfVote, selfVote] ∧
        (onBlock polyHash acceptProof ⟨block, []⟩ false).run s0.withSeparateAggregates =
          .error duplicateDataError s' := by
  refine ⟨_, rfl, rfl, fun strategy => ?_⟩
  cases strategy with
  | RoundBased => exact ⟨_, _, _, _, rfl, rfl, rfl⟩
  | Tiered => exact ⟨_, _, _, _, rfl, rfl, rfl⟩

end Ream.ForkChoice
