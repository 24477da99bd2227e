import Ream.ForkChoice.Operations

/-!
# What a failed `on_block` leaves behind

`on_block` runs its checks, then writes the block, its post-state and the justified checkpoint,
and only then checks for duplicate data and runs `update_head`. An error after the writes leaves
them in the store (`onBlock_run_error`).
-/

namespace Ream.ForkChoice

open Ssz Ream.Consensus EStateM

variable (T : TreeHash) (verifyBlockProof : BlockProofVerifier)

/-! ## The runs of `update_head` and `on_block` -/

theorem updateHead_run (s : Store) :
    updateHead.run s = match s.headAndFinalized with
      | .ok (newHead, newHeadSlot, finalized) =>
        .ok () { s with head := newHead, headSlot := newHeadSlot, latestFinalized := finalized }
      | .error e => .error e s := by
  unfold updateHead
  simp only [run_bind, run_get]
  cases s.headAndFinalized with
  | ok r => rfl
  | error e => rfl

theorem updateHead_run_error {s s' : Store} {e : String} (h : updateHead.run s = .error e s') :
    s' = s ∧ s.headAndFinalized = .error e := by
  rw [updateHead_run] at h
  cases hr : s.headAndFinalized with
  | ok r =>
    rw [hr] at h
    cases h
  | error e' =>
    rw [hr] at h
    cases h
    exact ⟨rfl, rfl⟩

theorem onBlock_run (s : Store) (signedBlock : SignedBlock) (verifySignatures : Bool) :
    (onBlock T verifyBlockProof signedBlock verifySignatures).run s =
      if (s.blocks.get? (signedBlock.block.treeHashRoot T)).isSome then .ok () s
      else match s.prepareBlock T verifyBlockProof signedBlock verifySignatures with
        | .error e => .error e s
        | .ok postState =>
          let stored := s.storeBlock T (signedBlock.block.treeHashRoot T) signedBlock postState
          match checkDistinctAttestationData T signedBlock.block.body.attestations.data with
          | .error e => .error e stored
          | .ok _ =>
            updateHead.run
              (stored.recordBlockAttestations T signedBlock.block.body.attestations.data) := by
  unfold onBlock
  simp only [run_bind, run_get]
  split
  · rfl
  · cases s.prepareBlock T verifyBlockProof signedBlock verifySignatures with
    | error e => rfl
    | ok postState =>
      cases checkDistinctAttestationData T signedBlock.block.body.attestations.data with
      | error e => rfl
      | ok seen => rfl

theorem onBlock_run_known {s : Store} {signedBlock : SignedBlock} {known : SignedBlock}
    (h : s.blocks.get? (signedBlock.block.treeHashRoot T) = some known) (verifySignatures : Bool) :
    (onBlock T verifyBlockProof signedBlock verifySignatures).run s = .ok () s := by
  rw [onBlock_run, if_pos (by rw [h]; rfl)]

/-! ## The writes -/

@[simp] theorem storeBlock_blocks (s : Store) (blockRoot : B256) (signedBlock : SignedBlock)
    (postState : LeanState) :
    (s.storeBlock T blockRoot signedBlock postState).blocks = s.blocks.insert blockRoot signedBlock :=
  rfl

@[simp] theorem storeBlock_states (s : Store) (blockRoot : B256) (signedBlock : SignedBlock)
    (postState : LeanState) :
    (s.storeBlock T blockRoot signedBlock postState).states = s.states.insert blockRoot postState :=
  rfl

@[simp] theorem storeBlock_childrenIndex (s : Store) (blockRoot : B256)
    (signedBlock : SignedBlock) (postState : LeanState) :
    (s.storeBlock T blockRoot signedBlock postState).childrenIndex =
      s.childrenIndex.insert (signedBlock.block.treeHashRoot T)
        ⟨signedBlock.block.slot, signedBlock.block.parentRoot⟩ :=
  rfl

@[simp] theorem storeBlock_latestJustified (s : Store) (blockRoot : B256)
    (signedBlock : SignedBlock) (postState : LeanState) :
    (s.storeBlock T blockRoot signedBlock postState).latestJustified = s.justifiedAfter postState :=
  rfl

theorem recordPayload_eq (s : Store) (dataRoot : B256) (payload : PayloadProof)
    (validatorId : Nat) :
    s.recordPayload dataRoot payload validatorId =
      { s with latestKnownAggregatedPayloads :=
        (s.recordPayload dataRoot payload validatorId).latestKnownAggregatedPayloads } :=
  rfl

theorem foldl_recordPayload_eq (dataRoot : B256) (payload : PayloadProof) :
    ∀ (validators : List Nat) (s : Store),
      validators.foldl (fun s v => s.recordPayload dataRoot payload v) s =
        { s with latestKnownAggregatedPayloads :=
          (validators.foldl (fun s v => s.recordPayload dataRoot payload v) s).latestKnownAggregatedPayloads }
  | [], s => rfl
  | v :: vs, s => by
    rw [List.foldl_cons, foldl_recordPayload_eq dataRoot payload vs]
    rfl

/-- Recording a block's aggregates writes only the attestation-data and known-payload
tables. -/
theorem recordBlockAttestations_eq : ∀ (s : Store) (attestations : List AggregatedAttestation),
    s.recordBlockAttestations T attestations =
      { s with
        attestationDataByRoot := (s.recordBlockAttestations T attestations).attestationDataByRoot
        latestKnownAggregatedPayloads :=
          (s.recordBlockAttestations T attestations).latestKnownAggregatedPayloads }
  | s, [] => rfl
  | s, a :: rest => by
    unfold Store.recordBlockAttestations
    rw [List.foldl_cons]
    have hfirst := foldl_recordPayload_eq (T.dataRoot a.message) ⟨a.aggregationBits, []⟩
      a.aggregationBits.indices
      { s with attestationDataByRoot := s.attestationDataByRoot.insert (T.dataRoot a.message) a.message }
    have hrest := recordBlockAttestations_eq
      (a.aggregationBits.indices.foldl
        (fun s v => s.recordPayload (T.dataRoot a.message) ⟨a.aggregationBits, []⟩ v)
        { s with attestationDataByRoot :=
          s.attestationDataByRoot.insert (T.dataRoot a.message) a.message }) rest
    unfold Store.recordBlockAttestations at hrest
    rw [hrest, hfirst]

/-! ## The duplicate check -/

/-- The text of the duplicate-data error. -/
def duplicateDataError : String :=
  "Block contains duplicate AttestationData entries; " ++
    "each AttestationData must appear at most once"

/-- The check loop from a set of roots seen: it passes exactly when the roots are distinct
and new, and its only error is the duplicate-data one. -/
theorem checkSeen_foldlM (roots : List B256) : ∀ seen : List B256,
    ((∃ r, roots.foldlM checkSeen seen = .ok r) ↔ roots.Nodup ∧ ∀ x ∈ roots, x ∉ seen) ∧
    (∀ e, roots.foldlM checkSeen seen = .error e → e = duplicateDataError) := by
  induction roots with
  | nil =>
    intro seen
    exact ⟨by simp, fun e he => by cases he⟩
  | cons root rest ih =>
    intro seen
    by_cases hmem : root ∈ seen
    · have hstep : checkSeen seen root = .error duplicateDataError := by
        rw [checkSeen, if_pos hmem]
        rfl
      simp only [List.foldlM_cons, hstep]
      refine ⟨⟨(fun ⟨_, h⟩ => nomatch h), fun h => absurd hmem (h.2 root List.mem_cons_self)⟩,
        fun e he => ?_⟩
      cases he
      rfl
    · have hstep : checkSeen seen root = .ok (root :: seen) := by rw [checkSeen, if_neg hmem]
      simp only [List.foldlM_cons, hstep]
      obtain ⟨hok, herr⟩ := ih (root :: seen)
      refine ⟨?_, herr⟩
      show (∃ r, rest.foldlM checkSeen (root :: seen) = .ok r) ↔ _
      rw [hok]
      simp only [List.nodup_cons, List.mem_cons, forall_eq_or_imp, not_or]
      constructor
      · rintro ⟨hnd, hfresh⟩
        exact ⟨⟨fun h => (hfresh root h).1 rfl, hnd⟩, hmem, fun x hx => (hfresh x hx).2⟩
      · rintro ⟨⟨hnotin, hnd⟩, -, hfresh⟩
        exact ⟨hnd, fun x hx => ⟨fun hxr => hnotin (hxr ▸ hx), hfresh x hx⟩⟩

/-- The data roots of a block's aggregates. -/
def dataRoots (attestations : List AggregatedAttestation) : List B256 :=
  attestations.map fun a => T.dataRoot a.message

theorem checkDistinctAttestationData_eq (attestations : List AggregatedAttestation) :
    checkDistinctAttestationData T attestations = (dataRoots T attestations).foldlM checkSeen [] := by
  unfold checkDistinctAttestationData dataRoots
  rw [List.foldlM_map]

theorem checkDistinctAttestationData_ok_iff (attestations : List AggregatedAttestation) :
    (∃ seen, checkDistinctAttestationData T attestations = .ok seen) ↔
      (dataRoots T attestations).Nodup := by
  rw [checkDistinctAttestationData_eq, (checkSeen_foldlM _ []).1]
  simp

theorem checkDistinctAttestationData_error {attestations : List AggregatedAttestation}
    {e : String} (h : checkDistinctAttestationData T attestations = .error e) :
    e = duplicateDataError ∧ ¬ (dataRoots T attestations).Nodup := by
  rw [checkDistinctAttestationData_eq] at h
  refine ⟨(checkSeen_foldlM _ []).2 e h, fun hnd => ?_⟩
  obtain ⟨seen, hseen⟩ := (checkDistinctAttestationData_ok_iff T attestations).mpr hnd
  rw [checkDistinctAttestationData_eq, h] at hseen
  cases hseen

/-! ## Every way `on_block` fails -/

/-- What an accepted-then-refused block leaves: the block under its root, its index entry,
its post-state, and the justified checkpoint it moved. -/
structure BlockKept (s s' : Store) (signedBlock : SignedBlock) (postState : LeanState) :
    Prop where
  block : s'.blocks.get? (signedBlock.block.treeHashRoot T) = some signedBlock
  index : s'.childrenIndex.get? (signedBlock.block.treeHashRoot T) =
    some ⟨signedBlock.block.slot, signedBlock.block.parentRoot⟩
  state : s'.states.get? (signedBlock.block.treeHashRoot T) = some postState
  justified : s'.latestJustified = s.justifiedAfter postState

theorem storeBlock_kept (s : Store) (signedBlock : SignedBlock) (postState : LeanState) :
    BlockKept T s (s.storeBlock T (signedBlock.block.treeHashRoot T) signedBlock postState)
      signedBlock postState where
  block := by simp
  index := by simp
  state := by simp
  justified := rfl

theorem recordBlockAttestations_kept {s s' : Store} {signedBlock : SignedBlock}
    {postState : LeanState} (h : BlockKept T s s' signedBlock postState)
    (attestations : List AggregatedAttestation) :
    BlockKept T s (s'.recordBlockAttestations T attestations) signedBlock postState := by
  rw [recordBlockAttestations_eq]
  exact ⟨h.block, h.index, h.state, h.justified⟩

/-- A failed `on_block` either wrote nothing, because a check before the state transition's
end failed, or keeps the block it refused: the duplicate-data check and `update_head` fail
after the writes. -/
theorem onBlock_run_error {s s' : Store} {signedBlock : SignedBlock} {verifySignatures : Bool}
    {e : String} (h : (onBlock T verifyBlockProof signedBlock verifySignatures).run s = .error e s') :
    (s.prepareBlock T verifyBlockProof signedBlock verifySignatures = .error e ∧ s' = s) ∨
    ∃ postState, s.blocks.get? (signedBlock.block.treeHashRoot T) = none ∧
      s.prepareBlock T verifyBlockProof signedBlock verifySignatures = .ok postState ∧
      BlockKept T s s' signedBlock postState ∧
      ((e = duplicateDataError ∧ ¬ (dataRoots T signedBlock.block.body.attestations.data).Nodup) ∨
        (dataRoots T signedBlock.block.body.attestations.data).Nodup) := by
  rw [onBlock_run] at h
  split at h
  · cases h
  · rename_i hunknown
    have hnone : s.blocks.get? (signedBlock.block.treeHashRoot T) = none := by
      simpa using hunknown
    cases hprep : s.prepareBlock T verifyBlockProof signedBlock verifySignatures with
    | error e' =>
      rw [hprep] at h
      cases h
      exact .inl ⟨rfl, rfl⟩
    | ok postState =>
      rw [hprep] at h
      refine .inr ⟨postState, hnone, rfl, ?_⟩
      have hstored := storeBlock_kept T s signedBlock postState
      cases hcheck : checkDistinctAttestationData T signedBlock.block.body.attestations.data with
      | error e' =>
        rw [hcheck] at h
        cases h
        exact ⟨hstored, .inl (checkDistinctAttestationData_error T hcheck)⟩
      | ok seen =>
        rw [hcheck] at h
        obtain ⟨rfl, -⟩ := updateHead_run_error h
        exact ⟨recordBlockAttestations_kept T hstored _,
          .inr ((checkDistinctAttestationData_ok_iff T _).mp ⟨seen, hcheck⟩)⟩

/-! ## A refused block that stays stored -/

/-- A root from a number. -/
def polyRoot (n : Nat) : B256 := ⟨n % 2 ^ 256, Nat.mod_lt _ (Nat.two_pow_pos 256)⟩

/-- A hash that keeps the small values of a test apart: a container's root is a polynomial
in its field roots, a body's root counts its aggregates, a state's root is its slot plus one. -/
def polyHash : TreeHash :=
  { merkleize := fun roots => roots.foldl (fun acc x => acc * 1009 + x + 1) 0
    u64Root := polyRoot
    bodyRoot := fun body => polyRoot body.attestations.data.length
    dataRoot := fun data =>
      polyRoot (data.slot + 16 * data.target.slot + 256 * data.source.slot + 4096 * data.head.slot)
    stateRoot := fun state => polyRoot (state.slot + 1) }

/-- A proof check that accepts everything; the runs below do not call it. -/
def acceptProof : BlockProofVerifier := fun _ _ _ => true

/-- `generate_genesis` with the one validator, under `polyHash`. -/
def polyGenesis : LeanState :=
  { config := ⟨0⟩
    slot := 0
    latestBlockHeader :=
      { slot := 0, proposerIndex := 0, parentRoot := B256.ZERO, stateRoot := B256.ZERO,
        bodyRoot := polyHash.bodyRoot ⟨VariableList.empty⟩ }
    latestJustified := Checkpoint.default
    latestFinalized := Checkpoint.default
    historicalBlockHashes := VariableList.empty
    justifiedSlots := ⟨[], Nat.zero_le _⟩
    validators := ⟨oneValidator, oneValidator_length_le⟩
    justificationsRoots := VariableList.empty
    justificationsValidators := ⟨[], Nat.zero_le _⟩ }

/-- The genesis block, carrying the genesis state's root. -/
def polyAnchor : SignedBlock :=
  ⟨{ slot := 0, proposerIndex := 0, parentRoot := B256.ZERO,
     stateRoot := polyHash.stateRoot polyGenesis, body := ⟨VariableList.empty⟩ }, []⟩

/-- The root the store gives genesis. -/
def genesisRoot : B256 := anchorRoot polyHash polyGenesis

/-- The empty block at slot 1. -/
def slotOneBlock : Block :=
  { slot := 1, proposerIndex := 0, parentRoot := genesisRoot, stateRoot := polyRoot 2,
    body := ⟨VariableList.empty⟩ }

/-- The validator's vote from genesis to the slot-1 block. -/
def justifyingVote : AggregatedAttestation :=
  ⟨⟨[true], single_participant_le_limit⟩,
    { slot := 1, head := ⟨slotOneBlock.treeHashRoot polyHash, 1⟩,
      target := ⟨slotOneBlock.treeHashRoot polyHash, 1⟩, source := ⟨genesisRoot, 0⟩ }⟩

/-- The block at slot 2 listing that vote twice. -/
def duplicateVoteBlock : Block :=
  { slot := 2, proposerIndex := 0, parentRoot := slotOneBlock.treeHashRoot polyHash,
    stateRoot := polyRoot 3, body := ⟨⟨[justifyingVote, justifyingVote], by decide⟩⟩ }

/-- From genesis and the slot-1 block, `on_block` refuses the block that lists one vote
twice, after storing it, its index entry and its post-state and moving the justified
checkpoint to slot 1; sent again, it is accepted without a check. -/
theorem duplicateData_block_kept :
    ∃ s0 s1 s2,
      generateGenesis polyHash 0 (some oneValidator) = some polyGenesis ∧
      getForkchoiceStore polyHash 4 Store.empty polyAnchor polyGenesis (some 100) = .ok s0 ∧
      (onBlock polyHash acceptProof ⟨slotOneBlock, []⟩ false).run s0 = .ok () s1 ∧
      (onBlock polyHash acceptProof ⟨duplicateVoteBlock, []⟩ false).run s1 =
        .error duplicateDataError s2 ∧
      s1.blocks.get? (duplicateVoteBlock.treeHashRoot polyHash) = none ∧
      s2.blocks.get? (duplicateVoteBlock.treeHashRoot polyHash) = some ⟨duplicateVoteBlock, []⟩ ∧
      (s1.states.get? (duplicateVoteBlock.treeHashRoot polyHash)).isNone ∧
      (s2.states.get? (duplicateVoteBlock.treeHashRoot polyHash)).isSome ∧
      (s2.childrenIndex.get? (duplicateVoteBlock.treeHashRoot polyHash)).isSome ∧
      s1.latestJustified.slot = 0 ∧ s2.latestJustified.slot = 1 ∧
      (onBlock polyHash acceptProof ⟨duplicateVoteBlock, []⟩ true).run s2 = .ok () s2 := by
  refine ⟨_, _, _, rfl, rfl, rfl, rfl, by decide, by decide, by decide, by decide, by decide,
    by decide, by decide, ?_⟩
  exact @onBlock_run_known polyHash acceptProof _ _ ⟨duplicateVoteBlock, []⟩ (by decide) true

end Ream.ForkChoice
