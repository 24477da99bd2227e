import Ream.Consensus.Types
import Ream.Consensus.Slot
import Ream.Lib.AssocMap

/-!
# `LeanState::process_attestations`

The function as `state.rs` writes it: the decoding of the flat tallies, the loop of
`processAttestation` with its `continue` filters, and the sorted write-back. `HashMap`s are
`AssocMap`s; only the final `keys().sorted()` reads an order.
-/

namespace Ream.Consensus

open Ssz

variable (T : TreeHash)

/-- A pending tally: one bit per validator. -/
abbrev Tally := BitList JUSTIFICATION_VOTES_LIMIT

/-- `justifications_map` and `self` while the attestation loop runs. -/
structure AttestationLoop where
  state : LeanState
  justifications : AssocMap B256 Tally

/-- `attestation_data_matches_chain`. It never returns `Err`, so it is a `Bool` here. -/
def attestationDataMatchesChain (historicalBlockHashes : List B256) (data : AttestationData) :
    Bool :=
  if data.source.root = B256.ZERO ∨ data.target.root = B256.ZERO ∨ data.head.root = B256.ZERO
  then false
  else if data.source.slot ≥ historicalBlockHashes.length ∨
      data.target.slot ≥ historicalBlockHashes.length ∨
      data.head.slot ≥ historicalBlockHashes.length
  then false
  else historicalBlockHashes[data.source.slot]? == some data.source.root &&
    historicalBlockHashes[data.target.slot]? == some data.target.root &&
    historicalBlockHashes[data.head.slot]? == some data.head.root

/-- The `is_source_justified` / `is_target_already_justified` blocks: the slot's bit after the
finalized slot, and `true` at or below it. Reading past the bit list is an error. -/
def isSlotJustified (s : LeanState) (slot : Nat) : Except String Bool :=
  match justifiedIndexAfter slot s.latestFinalized.slot with
  | some index =>
    (s.justifiedSlots.get index).mapError fun err =>
      s!"Failed to get justified slot: {err.debug}"
  | none => .ok true

/-- The filters at the head of the loop body, each a `continue` when it fails: both roots
non-zero, source justified, target not yet justified, data on the canonical chain, target
after source, target justifiable after the finalized slot. -/
def attestationFilter (s : LeanState) (a : AggregatedAttestation) : Except String Bool := do
  let isSourceJustified ← isSlotJustified s a.source.slot
  if a.source.root = B256.ZERO ∨ a.target.root = B256.ZERO then pure false
  else if !isSourceJustified then pure false
  else
    let isTargetAlreadyJustified ← isSlotJustified s a.target.slot
    pure (!isTargetAlreadyJustified &&
      attestationDataMatchesChain s.historicalBlockHashes.data a.message &&
      decide (a.source.slot < a.target.slot) &&
      isJustifiableAfter a.target.slot s.latestFinalized.slot)

/-- The loop over `aggregation_bits`: each signer not yet in the tally gets its bit set. -/
def addVotes : Tally → Nat → List Bool → Except String Tally
  | tally, _, [] => .ok tally
  | tally, validatorId, signed :: rest =>
    if signed && !tally.getD validatorId then
      match tally.set validatorId true with
      | .error err => .error s!"Failed to set validator {validatorId}: {err.debug}"
      | .ok tally' => addVotes tally' (validatorId + 1) rest
    else addVotes tally (validatorId + 1) rest

/-- The rebase loop of finalization: bit `index` of the old list moves to `index - delta`. -/
def shiftBits (justifiedSlots : BitList MAX_HISTORICAL_BLOCK_HASHES) (delta : Nat) :
    BitList MAX_HISTORICAL_BLOCK_HASHES → List Nat →
      Except String (BitList MAX_HISTORICAL_BLOCK_HASHES)
  | newBitlist, [] => .ok newBitlist
  | newBitlist, index :: rest =>
    if justifiedSlots.getD index then
      match newBitlist.set (index - delta) true with
      | .error err => .error s!"Failed to set bit: {err.debug}"
      | .ok newBitlist' => shiftBits justifiedSlots delta newBitlist' rest
    else shiftBits justifiedSlots delta newBitlist rest

/-- Drop the first `delta` bits of `justified_slots`, for a finalized slot `delta` later. -/
def rebase (justifiedSlots : BitList MAX_HISTORICAL_BLOCK_HASHES) (delta : Nat) :
    Except String (BitList MAX_HISTORICAL_BLOCK_HASHES) := do
  let newBitlist ← (BitList.withCapacity (justifiedSlots.len - delta)).mapError fun err =>
    s!"Failed to create BitList: {err.debug}"
  shiftBits justifiedSlots delta newBitlist
    (List.range' delta (justifiedSlots.len - delta))

/-- `is_target_next_valid_justifiable_slot`: the source is past the finalized slot and no
slot strictly between source and target is justifiable after it. -/
def isTargetNextValidJustifiableSlot (finalizedSlot : Nat) (a : AggregatedAttestation) : Bool :=
  decide (a.source.slot > finalizedSlot) &&
    !((List.range' (a.source.slot + 1) (a.target.slot - (a.source.slot + 1))).any
      fun slot => isJustifiableAfter slot finalizedSlot)

/-- The `retain` predicate of finalization: keep a tally when its root is on the canonical
chain after the new finalized slot. -/
def keepPending (rootToSlot : AssocMap B256 Nat) (finalizedSlot : Nat) (root : B256)
    (_votes : Tally) : Bool :=
  match rootToSlot.get? root with
  | some slot => decide (slot > finalizedSlot)
  | none => false

/-- Finalize the source of a justifying attestation: rebase `justified_slots`, drop the
tallies of roots not after the new finalized slot on the canonical chain, move
`latest_finalized`. -/
def finalize (rootToSlot : AssocMap B256 Nat) (s : LeanState)
    (justifications : AssocMap B256 Tally) (a : AggregatedAttestation) :
    Except String AttestationLoop := do
  let delta := a.source.slot - s.latestFinalized.slot
  if delta > 0 then
    let justifiedSlots ← rebase s.justifiedSlots delta
    let justifications := justifications.retain (keepPending rootToSlot a.source.slot)
    pure ⟨{ s with justifiedSlots := justifiedSlots, latestFinalized := a.source },
      justifications⟩
  else pure ⟨{ s with latestFinalized := a.source }, justifications⟩

/-- `if attestation.target().slot > self.latest_justified.slot`: an earlier target processed
after a later one must not move `latest_justified` back. -/
def raiseJustified (s : LeanState) (target : Checkpoint) : LeanState :=
  if target.slot > s.latestJustified.slot then { s with latestJustified := target } else s

/-- Set the bit of a justified slot, if it is past the finalized one. -/
def setJustifiedBit (s : LeanState) (slot : Nat) :
    Except String (BitList MAX_HISTORICAL_BLOCK_HASHES) :=
  match justifiedIndexAfter slot s.latestFinalized.slot with
  | some index =>
    (s.justifiedSlots.set index true).mapError fun err =>
      s!"Failed to set justified slot for slot {slot}: {err.debug}"
  | none => .ok s.justifiedSlots

/-- The start of a justification: `latest_justified` moves up to the target, and the
target's bit is set. -/
def markJustified (s : LeanState) (a : AggregatedAttestation) : Except String LeanState := do
  let s := raiseJustified s a.target
  let justifiedSlots ← setJustifiedBit s a.target.slot
  pure { s with justifiedSlots := justifiedSlots }

/-- The body of `if 3 * count >= 2 * validators.len()`: justify the target, drop its tally,
and finalize the source when the target is the next justifiable slot after it. -/
def justify (rootToSlot : AssocMap B256 Nat) (σ : AttestationLoop) (a : AggregatedAttestation) :
    Except String AttestationLoop := do
  let s ← markJustified σ.state a
  let justifications := σ.justifications.erase a.target.root
  if isTargetNextValidJustifiableSlot s.latestFinalized.slot a then
    finalize rootToSlot s justifications a
  else pure ⟨s, justifications⟩

/-- One iteration of the attestation loop. -/
def processAttestation (rootToSlot : AssocMap B256 Nat) (σ : AttestationLoop)
    (a : AggregatedAttestation) : Except String AttestationLoop := do
  if !(← attestationFilter σ.state a) then pure σ
  else
    let fresh ← (BitList.withCapacity σ.state.validators.len).mapError fun err =>
      s!"Failed to initialize justification for root {a.target.root}: {err.debug}"
    let justifications ← addVotes (σ.justifications.getD a.target.root fresh) 0
      a.aggregationBits.bits
    let σ := { σ with justifications := σ.justifications.insert a.target.root justifications }
    if 3 * justifications.numSetBits ≥ 2 * σ.state.validators.len then justify rootToSlot σ a
    else pure σ

/-- The decoding loop: root `i` owns bits `[i * n, i * n + n)` of the flat list. -/
def decodeLoop (validatorCount numRoots : Nat) (flatVotes : List Bool) :
    AssocMap B256 Tally → Nat → List B256 → Except String (AssocMap B256 Tally)
  | justifications, _, [] => .ok justifications
  | justifications, i, root :: rest => do
    let startIndex := i * validatorCount
    let endIndex := startIndex + validatorCount
    if endIndex ≤ flatVotes.length then
      let voteSlice := (flatVotes.drop startIndex).take validatorCount
      let newBitlist ← (BitList.withCapacity validatorCount).mapError fun err =>
        s!"Failed to create BitList for justifications: {err.debug}"
      let newBitlist ← (newBitlist.setAll 0 voteSlice).mapError fun err =>
        s!"Failed to set justification: {err.debug}"
      decodeLoop validatorCount numRoots flatVotes (justifications.insert root newBitlist)
        (i + 1) rest
    else
      .error (s!"justifications_validators too short: expected at least {endIndex} bits " ++
        s!"({numRoots} roots x {validatorCount} validators), got {flatVotes.length}")

/-- One tally per tracked root, read off the flat `justifications_validators`. -/
def decodeJustifications (s : LeanState) : Except String (AssocMap B256 Tally) :=
  decodeLoop s.validators.len s.justificationsRoots.len s.justificationsValidators.bits
    AssocMap.empty 0 s.justificationsRoots.data

/-- `root_to_slot`: each hash of the history from `startSlot` on, with the last slot that
holds it. -/
def rootToSlotMap (historicalBlockHashes : List B256) (startSlot : Nat) : AssocMap B256 Nat :=
  (List.range' startSlot (historicalBlockHashes.length - startSlot)).foldl
    (fun rootToSlot index =>
      match historicalBlockHashes[index]? with
      | some hash => rootToSlot.insert hash index
      | none => rootToSlot)
    AssocMap.empty

/-- The flattening loop, over the roots in sorted order. -/
def flattenLoop (validatorCount : Nat) (justifications : AssocMap B256 Tally) :
    List B256 → VariableList B256 MAX_HISTORICAL_BLOCK_HASHES → List Bool →
      Except String (VariableList B256 MAX_HISTORICAL_BLOCK_HASHES × List Bool)
  | [], rootsList, votesList => .ok (rootsList, votesList)
  | root :: rest, rootsList, votesList =>
    match justifications.get? root with
    | none => .error s!"Root {root} not found in justifications"
    | some votes =>
      if votes.len ≠ validatorCount then
        .error (s!"Vote list for root {root} has incorrect length expected: {votes.len}, " ++
          s!"got: {validatorCount}")
      else
        match rootsList.push root with
        | .error err => .error s!"Could not append root: {err.debug}"
        | .ok rootsList' =>
          flattenLoop validatorCount justifications rest rootsList' (votesList ++ votes.bits)

/-- Write the tallies back, roots sorted, votes concatenated in that order. The keys are
distinct, so every sort gives the same list; insertion sort is one that evaluates. -/
def flattenJustifications (s : LeanState) (justifications : AssocMap B256 Tally) :
    Except String LeanState := do
  let (rootsList, votesList) ← flattenLoop s.validators.len justifications
    (justifications.keys.insertionSort (· ≤ ·)) VariableList.empty []
  let justificationsValidators ←
    (BitList.withCapacity (justifications.size * s.validators.len)).mapError fun err =>
      s!"Failed to create BitList for justifications_validators: {err.debug}"
  let justificationsValidators ← (justificationsValidators.setAll 0 votesList).mapError
    fun err => s!"Failed to set justification bit: {err.debug}"
  pure { s with justificationsRoots := rootsList, justificationsValidators }

/-- The guards of `process_attestations` that read the state, and the tallies its loop
starts from. -/
def attestationLoopStart (s : LeanState) : Except String AttestationLoop :=
  let validatorCount := s.validators.len
  if ¬ validatorCount > 0 then
    .error "State holds no validators to segment justification votes against"
  else
  let expectedJustificationVotes := s.justificationsRoots.len * validatorCount
  let actualJustificationVotes := s.justificationsValidators.len
  if actualJustificationVotes ≠ expectedJustificationVotes then
    .error (s!"justifications_validators length mismatch: expected " ++
      s!"{expectedJustificationVotes} bits ({s.justificationsRoots.len} roots x " ++
      s!"{validatorCount} validators), got {actualJustificationVotes}")
  else if B256.ZERO ∈ s.justificationsRoots.data then
    .error "Tracked justification roots contain the zero hash"
  else do
    let justifications ←
      if s.justificationsRoots.data.isEmpty then pure AssocMap.empty
      else decodeJustifications s
    pure ⟨s, justifications⟩

/-- The `root_to_slot` map of a call on state `s`. -/
def LeanState.rootToSlot (s : LeanState) : AssocMap B256 Nat :=
  rootToSlotMap s.historicalBlockHashes.data (s.latestFinalized.slot + 1)

/-- `LeanState::process_attestations`. -/
def processAttestations (s : LeanState) (attestations : List AggregatedAttestation) :
    Except String LeanState :=
  let distinctAttestationData := (attestations.map fun a => T.dataRoot a.message).dedup.length
  if ¬ distinctAttestationData ≤ MAX_ATTESTATIONS_DATA then
    .error (s!"Block contains {distinctAttestationData} distinct AttestationData entries; " ++
      s!"maximum is {MAX_ATTESTATIONS_DATA}")
  else do
    let σ ← attestationLoopStart s
    let σ ← attestations.foldlM (processAttestation s.rootToSlot) σ
    flattenJustifications σ.state σ.justifications

end Ream.Consensus
