import Ream.Consensus.Reachable

/-!
# Checkpoints only move forward, and finalized trails justified

For every reachable state and next block the justified and finalized slots do not decrease, the
finalized slot trails the justified one, and every set bit of `justified_slots` is at or below
the justified slot (`CheckpointOrder`).
-/

namespace Ream.Consensus

open Ssz

/-! ## The loop -/

/-- A loop step either leaves the state alone or is a justification that passed the
filters. -/
theorem processAttestation_state {ρ : AssocMap B256 Nat} {σ σ' : AttestationLoop}
    {a : AggregatedAttestation} (h : processAttestation ρ σ a = .ok σ') :
    σ'.state = σ.state ∨
      (FilterPass σ.state a ∧ ∃ J : AssocMap B256 Tally, JustifyEffect ρ ⟨σ.state, J⟩ σ' a) := by
  rcases processAttestation_cases h with ⟨_, rfl⟩ | ⟨hpass, fresh, tally, _, _, hstep⟩
  · exact .inl rfl
  · rcases hstep with ⟨_, rfl⟩ | ⟨_, hjustify⟩
    · exact .inl rfl
    · exact .inr ⟨hpass, _, justify_effect hpass.slot_order hjustify⟩

/-- A property of loop states that the start has and every step keeps holds of every prefix
run. -/
theorem loopPrefix_induction {s : LeanState} {atts : List AggregatedAttestation}
    (P : AttestationLoop → Prop) (start : ∀ σ, attestationLoopStart s = .ok σ → P σ)
    (step : ∀ σ a σ', P σ → processAttestation s.rootToSlot σ a = .ok σ' → P σ')
    {k : Nat} {σ : AttestationLoop} (h : loopPrefix s atts k = .ok σ) : P σ := by
  rw [loopPrefix, Except.bind_eq_ok] at h
  obtain ⟨σ0, h0, hk⟩ := h
  exact Loop.foldlM_invariant P step (start σ0 h0) hk

theorem loopPrefix_induction_on {s : LeanState} {atts : List AggregatedAttestation}
    (P : Nat → AttestationLoop → Prop) (start : ∀ σ, attestationLoopStart s = .ok σ → P 0 σ)
    (step : ∀ k a σ σ', atts[k]? = some a → P k σ →
      processAttestation s.rootToSlot σ a = .ok σ' → P (k + 1) σ')
    {k : Nat} {σ : AttestationLoop} (h : loopPrefix s atts k = .ok σ) :
    P (min k atts.length) σ := by
  rw [loopPrefix, Except.bind_eq_ok] at h
  obtain ⟨σ0, h0, hk⟩ := h
  exact Loop.foldlM_take_invariant P (start σ0 h0)
    (fun j hj σj σj' hP hs => step j _ σj σj' (List.getElem?_eq_getElem hj) hP hs) k σ hk

theorem MarkedAt.marks {s : LeanState} {atts : List AggregatedAttestation} {k t : Nat}
    {σ σ' : AttestationLoop} (hm : MarkedAt s atts k t) (hk : loopPrefix s atts k = .ok σ)
    (hk' : loopPrefix s atts (k + 1) = .ok σ') :
    σ'.state.marked t = true ∧ σ.state.marked t = false := by
  obtain ⟨σa, σb, ha, hb, hmark, hunmark⟩ := hm
  rw [ha, Except.ok_inj] at hk
  rw [hb, Except.ok_inj] at hk'
  subst hk hk'
  exact ⟨hmark, hunmark⟩

theorem MarkedAt.lt_length {s : LeanState} {atts : List AggregatedAttestation} {k t : Nat}
    (hm : MarkedAt s atts k t) : k < atts.length := by
  obtain ⟨σ, σ', hk, hk', hmark, hunmark⟩ := hm
  by_contra hge
  have hsame : loopPrefix s atts (k + 1) = loopPrefix s atts k := by
    rw [loopPrefix, loopPrefix, List.take_of_length_le (by omega),
      List.take_of_length_le (by omega)]
  rw [hsame, hk, Except.ok_inj] at hk'
  subst hk'
  rw [hmark] at hunmark
  cases hunmark

/-- The loop writes only `latest_justified`, `latest_finalized` and `justified_slots`. -/
def LoopFrame (s : LeanState) (σ : AttestationLoop) : Prop :=
  σ.state = { s with
    latestJustified := σ.state.latestJustified
    latestFinalized := σ.state.latestFinalized
    justifiedSlots := σ.state.justifiedSlots }

theorem loopPrefix_frame {s : LeanState} {atts : List AggregatedAttestation} {k : Nat}
    {σ : AttestationLoop} (h : loopPrefix s atts k = .ok σ) : LoopFrame s σ := by
  refine loopPrefix_induction (LoopFrame s) (fun σ0 h0 => ?_) (fun σ a σ' hσ hstep => ?_) h
  · unfold LoopFrame
    rw [(attestationLoopStart_ok h0).state]
  · rcases processAttestation_state hstep with hsame | ⟨_, J, heff⟩
    · unfold LoopFrame at hσ ⊢
      rw [hsame]
      exact hσ
    · exact heff.frame.trans (by rw [hσ])

theorem processAttestations_ok {T : TreeHash} {s s' : LeanState}
    {atts : List AggregatedAttestation} (h : processAttestations T s atts = .ok s') :
    ∃ σ, loopPrefix s atts atts.length = .ok σ ∧
      flattenJustifications σ.state σ.justifications = .ok s' := by
  rw [processAttestations, Except.ite_error_eq_ok] at h
  obtain ⟨-, h⟩ := h
  rw [Except.bind_eq_ok] at h
  obtain ⟨σ0, h0, h⟩ := h
  rw [Except.bind_eq_ok] at h
  obtain ⟨σ, hloop, hflat⟩ := h
  exact ⟨σ, by rw [loopPrefix, h0, List.take_length]; exact hloop, hflat⟩

/-- `process_attestations` writes neither the slot, the header, the history nor the
validators. -/
theorem processAttestations_frame {T : TreeHash} {s s' : LeanState}
    {atts : List AggregatedAttestation} (h : processAttestations T s atts = .ok s') :
    s'.slot = s.slot ∧ s'.latestBlockHeader = s.latestBlockHeader ∧
      s'.historicalBlockHashes = s.historicalBlockHashes ∧ s'.validators = s.validators := by
  obtain ⟨σ, hloop, hflat⟩ := processAttestations_ok h
  have hframe : σ.state = _ := loopPrefix_frame hloop
  have hs' := (flattenJustifications_ok hflat).1
  refine ⟨?_, ?_, ?_, ?_⟩ <;> rw [hs', hframe]

/-! ## Checkpoint order -/

/-- `latest_finalized` at or below `latest_justified`, and every marked slot at or below
`latest_justified`. -/
structure CheckpointOrder (s : LeanState) : Prop where
  finalized_le_justified : s.latestFinalized.slot ≤ s.latestJustified.slot
  marked_le_justified : ∀ t, s.marked t = true → t ≤ s.latestJustified.slot

theorem CheckpointOrder.congr {s s' : LeanState} (h : CheckpointOrder s)
    (hJ : s'.latestJustified.slot = s.latestJustified.slot)
    (hF : s'.latestFinalized.slot = s.latestFinalized.slot)
    (hjs : ∀ i, s'.justifiedSlots.getD i = s.justifiedSlots.getD i) :
    CheckpointOrder s' := by
  refine ⟨by rw [hJ, hF]; exact h.finalized_le_justified, fun t ht => ?_⟩
  rw [marked_congr hF hjs] at ht
  rw [hJ]
  exact h.marked_le_justified t ht

theorem marked_offset (s : LeanState) (i : Nat) :
    s.marked (s.latestFinalized.slot + 1 + i) = s.justifiedSlots.getD i := by
  have hlt : s.latestFinalized.slot < s.latestFinalized.slot + 1 + i := by omega
  rw [LeanState.marked, show s.latestFinalized.slot + 1 + i - s.latestFinalized.slot - 1 = i by
    omega]
  simp [hlt]

theorem JustifyEffect.justified_slot {ρ : AssocMap B256 Nat} {σ σ' : AttestationLoop}
    {a : AggregatedAttestation} (heff : JustifyEffect ρ σ σ' a) :
    σ.state.latestJustified.slot ≤ σ'.state.latestJustified.slot ∧
      a.target.slot ≤ σ'.state.latestJustified.slot := by
  rw [heff.justified]
  split
  · rename_i hgt
    exact ⟨Nat.le_of_lt hgt, le_refl _⟩
  · rename_i hle
    exact ⟨le_refl _, Nat.le_of_not_lt hle⟩

theorem JustifyEffect.finalized_slot {ρ : AssocMap B256 Nat} {σ σ' : AttestationLoop}
    {a : AggregatedAttestation} (heff : JustifyEffect ρ σ σ' a) :
    σ.state.latestFinalized.slot ≤ σ'.state.latestFinalized.slot ∧
      (σ'.state.latestFinalized = σ.state.latestFinalized ∨
        σ'.state.latestFinalized = a.source ∧
          isTargetNextValidJustifiableSlot σ.state.latestFinalized.slot a = true) := by
  rw [heff.finalized]
  split
  · rename_i hnext
    exact ⟨Nat.le_of_lt (isTargetNextValidJustifiableSlot_source hnext), .inr ⟨rfl, hnext⟩⟩
  · exact ⟨le_refl _, .inl rfl⟩

theorem JustifyEffect.checkpointOrder {ρ : AssocMap B256 Nat} {σ σ' : AttestationLoop}
    {a : AggregatedAttestation} (heff : JustifyEffect ρ σ σ' a)
    (hord : a.source.slot < a.target.slot) (h : CheckpointOrder σ.state) :
    CheckpointOrder σ'.state ∧
      σ.state.latestJustified.slot ≤ σ'.state.latestJustified.slot ∧
      σ.state.latestFinalized.slot ≤ σ'.state.latestFinalized.slot := by
  obtain ⟨hJ, htarget⟩ := heff.justified_slot
  obtain ⟨hF, hmove⟩ := heff.finalized_slot
  refine ⟨⟨?_, fun t ht => ?_⟩, hJ, hF⟩
  · rcases hmove with hsame | ⟨hsrc, -⟩
    · rw [hsame]
      exact h.finalized_le_justified.trans hJ
    · rw [hsrc]
      omega
  · rw [heff.marked t, Bool.and_eq_true, Bool.or_eq_true, decide_eq_true_eq] at ht
    rcases ht.2 with hold | htgt
    · exact (h.marked_le_justified t hold).trans hJ
    · rw [of_decide_eq_true htgt]
      exact htarget

theorem isTargetNextValidJustifiableSlot_between {f : Nat} {a : AggregatedAttestation}
    (h : isTargetNextValidJustifiableSlot f a = true) (slot : Nat)
    (hlo : a.source.slot < slot) (hhi : slot < a.target.slot) :
    isJustifiableAfter slot f = false := by
  rw [isTargetNextValidJustifiableSlot, Bool.and_eq_true, Bool.not_eq_true',
    List.any_eq_false] at h
  have hmem : slot ∈ List.range' (a.source.slot + 1) (a.target.slot - (a.source.slot + 1)) := by
    rw [List.mem_range'_1]
    omega
  simpa using h.2 slot hmem

/-- Where a justification moves `latest_finalized`: to the source, justified before, of a
target it has just marked, with nothing justifiable after the old finalized slot in
between. -/
theorem JustifyEffect.finalization {ρ : AssocMap B256 Nat} {σ σ' : AttestationLoop}
    {a : AggregatedAttestation} (heff : JustifyEffect ρ σ σ' a) (hpass : FilterPass σ.state a)
    (hmoved : σ'.state.latestFinalized ≠ σ.state.latestFinalized) :
    σ'.state.latestFinalized = a.source ∧ σ.state.slotJustified a.source.slot = true ∧
      σ'.state.marked a.target.slot = true ∧ a.source.slot < a.target.slot ∧
      ∀ slot, a.source.slot < slot → slot < a.target.slot →
        isJustifiableAfter slot σ.state.latestFinalized.slot = false := by
  obtain ⟨-, hmove⟩ := heff.finalized_slot
  rcases hmove with hsame | ⟨hsrc, hnext⟩
  · exact absurd hsame hmoved
  · refine ⟨hsrc, hpass.source_justified, ?_, hpass.slot_order,
      isTargetNextValidJustifiableSlot_between hnext⟩
    rw [heff.marked, hsrc]
    simp [hpass.slot_order]

/-- Over a prefix run, the order holds and neither checkpoint has moved back from the
call's state. -/
theorem loopPrefix_checkpointOrder {s : LeanState} {atts : List AggregatedAttestation}
    {k : Nat} {σ : AttestationLoop} (hs : CheckpointOrder s) (h : loopPrefix s atts k = .ok σ) :
    CheckpointOrder σ.state ∧ s.latestJustified.slot ≤ σ.state.latestJustified.slot ∧
      s.latestFinalized.slot ≤ σ.state.latestFinalized.slot := by
  refine loopPrefix_induction (fun σ => CheckpointOrder σ.state ∧
      s.latestJustified.slot ≤ σ.state.latestJustified.slot ∧
      s.latestFinalized.slot ≤ σ.state.latestFinalized.slot)
    (fun σ0 h0 => ?_) (fun σ a σ' hσ hstep => ?_) h
  · rw [(attestationLoopStart_ok h0).state]
    exact ⟨hs, le_refl _, le_refl _⟩
  · obtain ⟨horder, hJ, hF⟩ := hσ
    rcases processAttestation_state hstep with hsame | ⟨hpass, J, heff⟩
    · rw [hsame]
      exact ⟨horder, hJ, hF⟩
    · obtain ⟨horder', hJ', hF'⟩ := heff.checkpointOrder hpass.slot_order horder
      exact ⟨horder', hJ.trans hJ', hF.trans hF'⟩

/-! ## The rest of the transition -/

theorem HeaderEffect.checkpoints {T : TreeHash} {s h : LeanState} {block : Block}
    (he : HeaderEffect T s block h) :
    h.latestJustified.slot = s.latestJustified.slot ∧
      h.latestFinalized.slot = s.latestFinalized.slot ∧ ∀ t, h.marked t = s.marked t := by
  have hJ : h.latestJustified.slot = s.latestJustified.slot := by
    rw [he.justified]
    split <;> rfl
  have hF : h.latestFinalized.slot = s.latestFinalized.slot := by
    rw [he.finalized]
    split <;> rfl
  exact ⟨hJ, hF, marked_congr hF he.justifiedSlots_getD⟩

theorem HeaderEffect.checkpointOrder {T : TreeHash} {s h : LeanState} {block : Block}
    (he : HeaderEffect T s block h) (hs : CheckpointOrder s) : CheckpointOrder h := by
  obtain ⟨hJ, hF, -⟩ := he.checkpoints
  exact hs.congr hJ hF he.justifiedSlots_getD

theorem processAttestations_checkpointOrder {T : TreeHash} {s s' : LeanState}
    {atts : List AggregatedAttestation} (hs : CheckpointOrder s)
    (h : processAttestations T s atts = .ok s') :
    CheckpointOrder s' ∧ s.latestJustified.slot ≤ s'.latestJustified.slot ∧
      s.latestFinalized.slot ≤ s'.latestFinalized.slot := by
  obtain ⟨σ, hloop, hflat⟩ := processAttestations_ok h
  have hs' := (flattenJustifications_ok hflat).1
  obtain ⟨horder, hJ, hF⟩ := loopPrefix_checkpointOrder hs hloop
  rw [hs']
  exact ⟨horder.congr rfl rfl fun _ => rfl, hJ, hF⟩

theorem processBlock_checkpointOrder {T : TreeHash} {s s' : LeanState} {block : Block}
    (hs : CheckpointOrder s) (h : processBlock T s block = .ok s') :
    CheckpointOrder s' ∧ s.latestJustified.slot ≤ s'.latestJustified.slot ∧
      s.latestFinalized.slot ≤ s'.latestFinalized.slot := by
  obtain ⟨h1, hheader, hatts⟩ := processBlock_ok T h
  have he := processBlockHeader_ok T hheader
  obtain ⟨hJ, hF, -⟩ := he.checkpoints
  obtain ⟨horder, hJ', hF'⟩ := processAttestations_checkpointOrder (he.checkpointOrder hs) hatts
  exact ⟨horder, by omega, by omega⟩

theorem processSlots_checkpointOrder {T : TreeHash} {s s' : LeanState} {targetSlot : Nat}
    (hs : CheckpointOrder s) (h : processSlots T s targetSlot = .ok s') : CheckpointOrder s' := by
  obtain ⟨-, rfl⟩ := processSlots_ok T h
  rw [processSlotsLoop_eq]
  exact hs.congr rfl rfl fun _ => rfl

theorem generateGenesis_checkpointOrder {T : TreeHash} {genesisTime : Nat}
    {validators : Option (List Validator)} {s : LeanState}
    (h : generateGenesis T genesisTime validators = some s) : CheckpointOrder s := by
  rw [generateGenesis] at h
  split at h
  · cases h
  · rw [Option.some_inj] at h
    subst h
    exact ⟨le_refl _, fun t ht => by simp [LeanState.marked, BitList.getD] at ht⟩

theorem Reachable.checkpointOrder {T : TreeHash} {s : LeanState} {justified : Set Nat}
    (hr : Reachable T s justified) : CheckpointOrder s := by
  induction hr with
  | genesis h => exact generateGenesis_checkpointOrder h
  | slots _ h ih => exact processSlots_checkpointOrder ih h
  | block _ h ih => exact (processBlock_checkpointOrder ih h).1

/-- Checkpoint monotonicity and order for the block processed after any reachable state,
and where each loop step of its attestations may move `latest_finalized`. -/
theorem checkpoints_monotone_and_ordered {T : TreeHash} {s : LeanState} {justified : Set Nat}
    (hr : Reachable T s justified) {block : Block} {s' : LeanState}
    (h : processBlock T s block = .ok s') :
    (s.latestJustified.slot ≤ s'.latestJustified.slot ∧
      s.latestFinalized.slot ≤ s'.latestFinalized.slot) ∧
    s'.latestFinalized.slot ≤ s'.latestJustified.slot ∧
    (∀ i, s'.justifiedSlots.getD i = true →
      s'.latestFinalized.slot + 1 + i ≤ s'.latestJustified.slot) ∧
    (∀ hdr k a σ σ', processBlockHeader T s block = .ok hdr →
      block.body.attestations.data[k]? = some a →
      loopPrefix hdr block.body.attestations.data k = .ok σ →
      loopPrefix hdr block.body.attestations.data (k + 1) = .ok σ' →
      σ'.state.latestFinalized ≠ σ.state.latestFinalized →
      σ'.state.latestFinalized = a.source ∧ σ.state.slotJustified a.source.slot = true ∧
        σ'.state.marked a.target.slot = true ∧ a.source.slot < a.target.slot ∧
        ∀ slot, a.source.slot < slot → slot < a.target.slot →
          isJustifiableAfter slot σ.state.latestFinalized.slot = false) := by
  obtain ⟨horder, hJ, hF⟩ := processBlock_checkpointOrder hr.checkpointOrder h
  refine ⟨⟨hJ, hF⟩, horder.finalized_le_justified, fun i hi => ?_,
    fun hdr k a σ σ' _ ha hrun hrun' hmoved => ?_⟩
  · rw [← marked_offset] at hi
    exact horder.marked_le_justified _ hi
  · have hstep : processAttestation hdr.rootToSlot σ a = .ok σ' := by
      rw [← loopPrefix_succ ha hrun, hrun']
    rcases processAttestation_state hstep with hsame | ⟨hpass, J, heff⟩
    · exact absurd (by rw [hsame]) hmoved
    · exact heff.finalization hpass hmoved

/-- A hash that sends every container to the zero root. -/
def zeroHash : TreeHash :=
  { merkleize := fun _ => 0, u64Root := fun _ => 0, bodyRoot := fun _ => 0,
    dataRoot := fun _ => 0, stateRoot := fun _ => 0 }

def oneValidator : List Validator := [⟨[], [], 0⟩]

theorem oneValidator_length_le : oneValidator.length ≤ VALIDATOR_REGISTRY_LIMIT := by decide

/-- The block at slot 1 over the genesis header, with no attestations. -/
def firstBlock : Block :=
  { slot := 1, proposerIndex := 0, parentRoot := 0, stateRoot := 0,
    body := ⟨VariableList.empty⟩ }

/-- A hash that keeps small test values apart: a container's root is a polynomial in its
field roots, a body's root counts its attestations, and a state's root is its slot below 1009
plus one, so never the zero sentinel. -/
def countHash : TreeHash :=
  { merkleize := fun roots => roots.foldl (fun acc x => acc * 1009 + x + 1) 0
    u64Root := Fin.ofNat _
    bodyRoot := fun body => Fin.ofNat _ body.attestations.data.length
    dataRoot := fun data =>
      Fin.ofNat _ (data.slot + 16 * data.target.slot + 256 * data.source.slot + 4096 * data.head.slot)
    stateRoot := fun state => Fin.ofNat _ (state.slot % 1009 + 1) }

theorem countHash_stateRoot_ne_zero (state : LeanState) : countHash.stateRoot state ≠ B256.ZERO := by
  intro h
  have hval := congrArg Fin.val h
  simp only [countHash, B256.ZERO, Fin.val_ofNat, Fin.val_zero] at hval
  omega

def twoValidators : List Validator := [⟨[], [], 0⟩, ⟨[], [], 1⟩]

theorem twoValidators_length_le : twoValidators.length ≤ VALIDATOR_REGISTRY_LIMIT :=
  Nat.le_of_ble_eq_true rfl

theorem pair_le_registry_limit {α : Type} (a b : α) : [a, b].length ≤ VALIDATOR_REGISTRY_LIMIT :=
  Nat.le_of_ble_eq_true rfl

/-- A vote of the flagged validators from `source` to `target`, with `target` as its head. -/
def countVote (bits : List Bool) (hbits : bits.length ≤ VALIDATOR_REGISTRY_LIMIT)
    (source target : Checkpoint) : AggregatedAttestation :=
  ⟨⟨bits, hbits⟩, { slot := target.slot, head := target, target := target, source := source }⟩

/-- The genesis header under `countHash`, with its state root filled by the first empty slot. -/
def countGenesisRoot : B256 := BlockHeader.treeHashRoot countHash ⟨0, 0, 0, 1, 0⟩

/-- The empty block at slot 1, proposed by validator 1 of two, carrying its post-state's root. -/
def countBlock1 : Block :=
  { slot := 1, proposerIndex := 1, parentRoot := countGenesisRoot, stateRoot := 2,
    body := ⟨VariableList.empty⟩ }

/-- The block at slot 2 in which both validators justify slot 1 from genesis. -/
def countBlock2 : Block :=
  { slot := 2, proposerIndex := 0, parentRoot := countBlock1.treeHashRoot countHash, stateRoot := 3,
    body := ⟨⟨[countVote [true, true] (pair_le_registry_limit _ _) ⟨countGenesisRoot, 0⟩
      ⟨countBlock1.treeHashRoot countHash, 1⟩], single_participant_le_limit⟩⟩ }

/-- The block at slot 3 in which both validators justify slot 2 from slot 1, which finalizes
slot 1. -/
def countBlock3 : Block :=
  { slot := 3, proposerIndex := 1, parentRoot := countBlock2.treeHashRoot countHash, stateRoot := 4,
    body := ⟨⟨[countVote [true, true] (pair_le_registry_limit _ _)
      ⟨countBlock1.treeHashRoot countHash, 1⟩ ⟨countBlock2.treeHashRoot countHash, 2⟩],
      single_participant_le_limit⟩⟩ }

/-- From genesis with two validators, through a block that justifies slot 1, the block that
justifies slot 2 and finalizes slot 1. -/
theorem countBlock3_checkpoints :
    ∃ s s' justified, Reachable countHash s justified ∧
    processBlock countHash s countBlock3 = .ok s' ∧
    s.latestFinalized.slot = 0 ∧ s'.latestFinalized.slot = 1 ∧ s'.latestJustified.slot = 2 ∧
    ((s.latestJustified.slot ≤ s'.latestJustified.slot ∧
      s.latestFinalized.slot ≤ s'.latestFinalized.slot) ∧
    s'.latestFinalized.slot ≤ s'.latestJustified.slot ∧
    (∀ i, s'.justifiedSlots.getD i = true →
      s'.latestFinalized.slot + 1 + i ≤ s'.latestJustified.slot) ∧
    (∀ hdr k a σ σ', processBlockHeader countHash s countBlock3 = .ok hdr →
      countBlock3.body.attestations.data[k]? = some a →
      loopPrefix hdr countBlock3.body.attestations.data k = .ok σ →
      loopPrefix hdr countBlock3.body.attestations.data (k + 1) = .ok σ' →
      σ'.state.latestFinalized ≠ σ.state.latestFinalized →
      σ'.state.latestFinalized = a.source ∧ σ.state.slotJustified a.source.slot = true ∧
        σ'.state.marked a.target.slot = true ∧ a.source.slot < a.target.slot ∧
        ∀ slot, a.source.slot < slot → slot < a.target.slot →
          isJustifiableAfter slot σ.state.latestFinalized.slot = false)) :=
  have h1 : Reachable countHash _ ∅ := @Reachable.slots countHash _ _ _ 1
    (@Reachable.genesis countHash 0 (some twoValidators) _ rfl) rfl
  have h2 := @Reachable.slots countHash _ _ _ 2 (@Reachable.block countHash _ _ _ countBlock1 h1 rfl) rfl
  have hr := @Reachable.slots countHash _ _ _ 3 (@Reachable.block countHash _ _ _ countBlock2 h2 rfl) rfl
  ⟨_, _, _, hr, rfl, rfl, by decide +kernel, by decide +kernel,
    checkpoints_monotone_and_ordered hr rfl⟩

/-- A state whose finalized checkpoint is at the last `u64` slot, one slot after its genesis
header, with one validator. -/
def finalizedAtMaxState : LeanState where
  config := ⟨0⟩
  slot := 1
  latestBlockHeader := ⟨0, 0, 0, 0, 0⟩
  latestJustified := ⟨0, 18446744073709551615⟩
  latestFinalized := ⟨0, 18446744073709551615⟩
  historicalBlockHashes := VariableList.empty
  justifiedSlots := ⟨[], Nat.zero_le _⟩
  validators := ⟨oneValidator, oneValidator_length_le⟩
  justificationsRoots := VariableList.empty
  justificationsValidators := ⟨[], Nat.zero_le _⟩

/-- `firstBlock` passes every check of `process_block_header` and the guards of
`process_attestations` on `finalizedAtMaxState`, so the code reaches
`self.latest_finalized.slot + 1`, which is `2 ^ 64`, past `u64::MAX`. -/
theorem finalized_successor_overflows :
    ((processBlockHeader zeroHash finalizedAtMaxState firstBlock).map fun hdr =>
        ((attestationLoopStart hdr).isOk, hdr.latestFinalized.slot + 1)) = .ok (true, 2 ^ 64) ∧
      (processBlock zeroHash finalizedAtMaxState firstBlock).isOk = true := by
  decide

end Ream.Consensus
