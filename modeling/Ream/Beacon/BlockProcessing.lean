import Ream.Beacon.ExitQueue

/-!
# `process_block` and `process_epoch` as runs of the entry points

The steps of `process_block` and `process_epoch` that read or write the registry record, in the
source's order, are runs of `OperationCall`s; so whatever every such run keeps, they keep.
-/

namespace Ream.Beacon.Electra

open Ream.Consensus (B256)

/-- What `process_attestation` writes once the attestation has passed its checks: the
participation flags of its attesting indices in the list of the target's epoch, and the
proposer's reward. -/
structure AttestationWrites where
  isCurrentEpoch : Bool
  participationFlagIndices : List UInt8
  attestingIndices : List Nat
  proposerReward : UInt64
  deriving DecidableEq, Repr

/-- The operation lists of a `BeaconBlockBody`, each attestation as what it writes. -/
structure OperationsBody where
  proposerSlashings : List ProposerSlashing
  attesterSlashings : List AttesterSlashing
  attestations : List AttestationWrites
  deposits : List Deposit
  voluntaryExits : List SignedVoluntaryExit
  blsToExecutionChanges : List SignedBLSToExecutionChange
  depositRequests : List DepositRequest
  withdrawalRequests : List WithdrawalRequest
  consolidationRequests : List ConsolidationRequest
  deriving DecidableEq, Repr

/-- The entry points `process_operations` runs, in its order. -/
def OperationsBody.calls (beaconProposerIndex : Nat) (body : OperationsBody) :
    List OperationCall :=
  body.proposerSlashings.map (.processProposerSlashing beaconProposerIndex) ++
    body.attesterSlashings.map (.processAttesterSlashing beaconProposerIndex) ++
    body.attestations.flatMap (fun a =>
      [.setParticipationFlags a.isCurrentEpoch a.participationFlagIndices a.attestingIndices,
        .increaseBalance beaconProposerIndex a.proposerReward]) ++
    body.deposits.map .processDeposit ++
    body.voluntaryExits.map .processVoluntaryExit ++
    body.blsToExecutionChanges.map .processBlsToExecutionChange ++
    body.depositRequests.map .processDepositRequest ++
    body.withdrawalRequests.map .processWithdrawalRequest ++
    body.consolidationRequests.map .processConsolidationRequest

/-- The balance writes of one entry of the sync aggregate's change list. -/
def syncChangeCalls (proposerIndex : Nat) (proposerReward : UInt64) (entry : Nat × Int × Bool) :
    List OperationCall :=
  let (validatorIndex, change, isParticipant) := entry
  (if change > 0 then .increaseBalance validatorIndex (changeAmount change)
    else .decreaseBalance validatorIndex (changeAmount change)) ::
    if isParticipant then [.increaseBalance proposerIndex proposerReward] else []

/-- The steps of `process_epoch` that write the registry record, as entry points. -/
def epochCalls (slashings : List UInt64) : List OperationCall :=
  [.processInactivityUpdates, .processRewardsAndPenalties, .processRegistryUpdates,
    .processSlashings slashings, .processPendingDeposits, .processPendingConsolidations,
    .processEffectiveBalanceUpdates, .processParticipationFlagUpdates]

/-- A successful `process_sync_aggregate` is its fold of balance changes, from the committee
indices and the proposer index it read. -/
theorem BeaconState.processSyncAggregate_ok {s : BeaconState}
    {fastAggregateVerify : List PublicKey → Nat → B256 → Nat → Except String Bool}
    {syncAggregate : SyncAggregate} {t : BeaconState}
    (h : s.processSyncAggregate fastAggregateVerify syncAggregate = .ok t) :
    ∃ committeeIndices proposerIndex,
      (calculateSyncCommitteeBalanceChange committeeIndices syncAggregate.syncCommitteeBits
          s.getProposerAndParticipantRewards.1).foldlM
        (BeaconState.applySyncChange proposerIndex s.getProposerAndParticipantRewards.2) s = .ok t := by
  unfold BeaconState.processSyncAggregate at h
  obtain ⟨blockRoot, -, verified, -, h⟩ := by simpa only [Except.bind_eq_ok] using h
  cases verified with
  | false => simp [throw, throwThe, MonadExceptOf.throw] at h
  | true =>
    simp only [Bool.not_true, Bool.false_eq_true, if_false] at h
    unfold BeaconState.applySyncAggregate at h
    obtain ⟨committeeIndices, -, proposerIndex, -, hfold⟩ := by
      simpa only [Except.bind_eq_ok] using h
    exact ⟨committeeIndices, proposerIndex, hfold⟩

namespace ElectraState

variable (env : OperationsEnv) (beaconProposerIndex : Nat)

/-- The check of `process_operations` that the body carries exactly the deposits still due from
the deposit contract; `eth1_data.deposit_count` is outside the record. -/
def checkDeposits (es : ElectraState) (depositCount : Nat) (deposits : List Deposit) :
    Except String Unit :=
  let eth1DepositIndexLimit := min depositCount es.state.depositRequestsStartIndex
  if es.state.eth1DepositIndex < eth1DepositIndexLimit then
    if deposits.length = min MAX_DEPOSITS (eth1DepositIndexLimit - es.state.eth1DepositIndex) then
      .ok ()
    else .error ("Condition failed: body.deposits.len() as u64 == " ++
      "MAX_DEPOSITS.min(eth1_deposit_index_limit - self.eth1_deposit_index)")
  else if deposits.isEmpty then .ok ()
  else .error "Condition failed: body.deposits.is_empty()"

/-- `process_attestation` past its checks: the flag writes, then the proposer's reward. -/
def applyAttestationWrites (es : ElectraState) (a : AttestationWrites) :
    Except String ElectraState := do
  let es ← es.withState (es.state.setParticipationFlags a.isCurrentEpoch
    a.participationFlagIndices a.attestingIndices)
  es.withState (es.state.increaseBalance beaconProposerIndex a.proposerReward)

/-- `process_operations`. -/
def processOperations (depositCount : Nat) (body : OperationsBody) (es : ElectraState) :
    Except String ElectraState := do
  es.checkDeposits depositCount body.deposits
  let es ← body.proposerSlashings.foldlM (fun es proposerSlashing =>
    es.withState (es.state.processProposerSlashing env.signatures beaconProposerIndex
      proposerSlashing)) es
  let es ← body.attesterSlashings.foldlM (fun es attesterSlashing =>
    es.withState (es.state.processAttesterSlashing env.signatures beaconProposerIndex
      attesterSlashing)) es
  let es ← body.attestations.foldlM (applyAttestationWrites beaconProposerIndex) es
  let es ← body.deposits.foldlM (fun es deposit =>
    es.withState (es.state.processDeposit env.isValidDepositBranch
      env.registry.isValidDepositSignature deposit)) es
  let es ← body.voluntaryExits.foldlM (fun es voluntaryExit =>
    es.withState (es.state.processVoluntaryExit env.signatures voluntaryExit)) es
  let es ← body.blsToExecutionChanges.foldlM (fun es blsToExecutionChange =>
    es.withState (es.state.processBlsToExecutionChange env.registry.blsChangeChecks
      blsToExecutionChange)) es
  let es ← body.depositRequests.foldlM (fun es depositRequest =>
    pure { es with state := es.state.processDepositRequest depositRequest }) es
  let es ← body.withdrawalRequests.foldlM (fun es withdrawalRequest =>
    es.withState (es.state.processWithdrawalRequest withdrawalRequest)) es
  body.consolidationRequests.foldlM (fun es consolidationRequest =>
    es.processConsolidationRequest consolidationRequest) es

/-- The steps of `process_block` that read or write the registry record: the proposer index that
`process_block_header` reads first, `process_withdrawals`, `process_operations` and
`process_sync_aggregate`. The header, the execution payload, the RANDAO mix and the eth1 vote
are written outside the record. -/
def processBlock (fastAggregateVerify : List PublicKey → Nat → B256 → Nat → Except String Bool)
    (depositCount : Nat) (payloadWithdrawals : List Withdrawal) (body : OperationsBody)
    (syncAggregate : SyncAggregate) (es : ElectraState) : Except String ElectraState := do
  let beaconProposerIndex ← es.state.getBeaconProposerIndex
  let es ← es.withState (es.state.processWithdrawals payloadWithdrawals)
  let es ← es.processOperations env beaconProposerIndex depositCount body
  es.withState (es.state.processSyncAggregate fastAggregateVerify syncAggregate)

/-- The steps of `process_epoch` that write the registry record, in the source's order. The
justification step writes the checkpoints; the resets of the eth1 votes, the slashings, the
RANDAO mixes and the historical summaries, and the sync committee and proposer lookahead
updates, write fields that none of these steps reads. -/
def processEpoch (slashings : List UInt64) (es : ElectraState) : Except String ElectraState := do
  let es ← es.withState es.state.processInactivityUpdates
  let es ← es.withState es.state.processRewardsAndPenalties
  let es ← es.withState es.state.processRegistryUpdates
  let es ← es.withState (es.state.processSlashings slashings)
  let es ← es.withState (es.state.processPendingDeposits env.registry.fuluForkEpoch
    env.registry.isValidDepositSignature)
  let es ← es.processPendingConsolidations
  let es ← es.withState es.state.processEffectiveBalanceUpdates
  pure { es with state := es.state.processParticipationFlagUpdates }

theorem withState_bind (es : ElectraState) (r : Except String BeaconState)
    (f : BeaconState → Except String BeaconState) :
    es.withState (r >>= f) = es.withState r >>= fun es' => es'.withState (f es'.state) := by
  cases r <;> rfl

theorem withState_pure_state (es : ElectraState) : es.withState (pure es.state) = pure es := rfl

theorem runOperations_append (l l' : List OperationCall) (es : ElectraState) :
    runOperations env (l ++ l') es = runOperations env l es >>= runOperations env l' :=
  List.foldlM_append

theorem runOperations_singleton (call : OperationCall) (es : ElectraState) :
    runOperations env [call] es = call.run env es := by
  simp [runOperations]

/-- A list of calls per element, each run a write of the record by one step, is the write of
the fold of the step. -/
theorem runOperations_flatMap_withState {β : Type} (g : β → List OperationCall)
    (step : BeaconState → β → Except String BeaconState)
    (hg : ∀ es b, runOperations env (g b) es = es.withState (step es.state b)) :
    ∀ (l : List β) (es : ElectraState),
      runOperations env (l.flatMap g) es = es.withState (l.foldlM step es.state)
  | [], es => (withState_pure_state es).symm
  | b :: l, es => by
    rw [List.flatMap_cons, runOperations_append, List.foldlM_cons, withState_bind, hg]
    congr 1
    funext es'
    exact runOperations_flatMap_withState g step hg l es'

theorem runOperations_syncChangeCalls (proposerIndex : Nat) (proposerReward : UInt64)
    (entry : Nat × Int × Bool) (es : ElectraState) :
    runOperations env (syncChangeCalls proposerIndex proposerReward entry) es =
      es.withState (BeaconState.applySyncChange proposerIndex proposerReward es.state entry) := by
  obtain ⟨validatorIndex, change, isParticipant⟩ := entry
  dsimp only [syncChangeCalls, BeaconState.applySyncChange]
  split <;> cases isParticipant <;> simp [runOperations, OperationCall.run, withState_bind]

theorem runOperations_map {α : Type} (f : α → OperationCall) (l : List α) :
    runOperations env (l.map f) = fun es => l.foldlM (fun es a => (f a).run env es) es := by
  funext es
  exact List.foldlM_map

theorem runOperations_attestations (attestations : List AttestationWrites) :
    runOperations env (attestations.flatMap fun a =>
        [.setParticipationFlags a.isCurrentEpoch a.participationFlagIndices a.attestingIndices,
          .increaseBalance beaconProposerIndex a.proposerReward]) =
      fun es => attestations.foldlM (applyAttestationWrites beaconProposerIndex) es := by
  funext es
  simp only [runOperations, Loop.foldlM_flatMap, List.foldlM_cons, List.foldlM_nil, bind_pure,
    OperationCall.run]
  rfl

theorem processOperations_eq_runOperations (depositCount : Nat) (body : OperationsBody)
    (es : ElectraState) :
    es.processOperations env beaconProposerIndex depositCount body =
      (es.checkDeposits depositCount body.deposits >>= fun _ =>
        runOperations env (body.calls beaconProposerIndex) es) := by
  simp only [OperationsBody.calls, runOperations_append, runOperations_map,
    runOperations_attestations, OperationCall.run, bind_assoc]
  rfl

theorem processEpoch_eq_runOperations (slashings : List UInt64) (es : ElectraState) :
    es.processEpoch env slashings = runOperations env (epochCalls slashings) es := by
  simp only [processEpoch, runOperations, epochCalls, List.foldlM_cons, List.foldlM_nil,
    OperationCall.run, bind_pure]
  rfl

theorem mem_syncChangeCalls {proposerIndex : Nat} {proposerReward : UInt64}
    {entry : Nat × Int × Bool} {call : OperationCall}
    (h : call ∈ syncChangeCalls proposerIndex proposerReward entry) :
    ∃ index delta, call = .increaseBalance index delta ∨ call = .decreaseBalance index delta := by
  obtain ⟨validatorIndex, change, isParticipant⟩ := entry
  dsimp only [syncChangeCalls] at h
  rcases List.mem_cons.mp h with rfl | hproposer
  · split <;> simp
  · cases isParticipant with
    | false => simp at hproposer
    | true =>
      rw [if_pos rfl, List.mem_singleton] at hproposer
      exact ⟨_, _, .inl hproposer⟩

/-- A successful `process_sync_aggregate` is a run of balance writes. -/
theorem processSyncAggregate_runs
    {fastAggregateVerify : List PublicKey → Nat → B256 → Nat → Except String Bool}
    {syncAggregate : SyncAggregate} {es : ElectraState} {t : BeaconState}
    (h : es.state.processSyncAggregate fastAggregateVerify syncAggregate = .ok t) :
    ∃ calls : List OperationCall,
      (∀ call ∈ calls, ∃ index delta,
        call = .increaseBalance index delta ∨ call = .decreaseBalance index delta) ∧
      runOperations env calls es = .ok { es with state := t } := by
  obtain ⟨committeeIndices, proposerIndex, hfold⟩ := BeaconState.processSyncAggregate_ok h
  refine ⟨(calculateSyncCommitteeBalanceChange committeeIndices
      syncAggregate.syncCommitteeBits es.state.getProposerAndParticipantRewards.1).flatMap
      (syncChangeCalls proposerIndex es.state.getProposerAndParticipantRewards.2),
    fun call hcall => ?_, ?_⟩
  · obtain ⟨_, -, hmem⟩ := List.mem_flatMap.mp hcall
    exact mem_syncChangeCalls hmem
  · rw [runOperations_flatMap_withState env _ _
      (fun es entry => runOperations_syncChangeCalls env _ _ entry es), hfold]
    rfl

/-- A successful `process_block` runs the withdrawals, the entry points of its operations and
the balance writes of its sync aggregate. -/
theorem processBlock_runs
    {fastAggregateVerify : List PublicKey → Nat → B256 → Nat → Except String Bool}
    {depositCount : Nat} {payloadWithdrawals : List Withdrawal} {body : OperationsBody}
    {syncAggregate : SyncAggregate} {es es' : ElectraState}
    (h : es.processBlock env fastAggregateVerify depositCount payloadWithdrawals body
      syncAggregate = .ok es') :
    ∃ beaconProposerIndex syncCalls, es.state.getBeaconProposerIndex = .ok beaconProposerIndex ∧
      (∀ call ∈ syncCalls, ∃ index delta,
        call = .increaseBalance index delta ∨ call = .decreaseBalance index delta) ∧
      runOperations env (.processWithdrawals payloadWithdrawals ::
        body.calls beaconProposerIndex ++ syncCalls) es = .ok es' := by
  unfold processBlock at h
  obtain ⟨beaconProposerIndex, hproposer, es1, hwithdrawals, es2, hoperations, hsync⟩ := by
    simpa only [Except.bind_eq_ok] using h
  obtain ⟨t, ht, rfl⟩ := withState_eq_ok hsync
  obtain ⟨syncCalls, hcalls, hrun⟩ := processSyncAggregate_runs env ht
  rw [processOperations_eq_runOperations, Except.bind_eq_ok] at hoperations
  obtain ⟨-, -, hoperations⟩ := hoperations
  refine ⟨beaconProposerIndex, syncCalls, hproposer, hcalls, ?_⟩
  rw [← List.singleton_append, runOperations_append, runOperations_append, runOperations_singleton]
  simp only [OperationCall.run, hwithdrawals, Except.ok_bind, hoperations, hrun]

theorem processBlock_spec
    {fastAggregateVerify : List PublicKey → Nat → B256 → Nat → Except String Bool}
    {depositCount : Nat} {payloadWithdrawals : List Withdrawal} {body : OperationsBody}
    {syncAggregate : SyncAggregate} {es es' : ElectraState}
    (h : es.processBlock env fastAggregateVerify depositCount payloadWithdrawals body
      syncAggregate = .ok es') :
    BeaconState.ExitsScheduled es.state es'.state ∧ (es.RunInvariant → es'.RunInvariant) := by
  obtain ⟨_, _, -, -, hrun⟩ := processBlock_runs env h
  exact runOperations_spec env _ hrun

theorem processEpoch_spec {slashings : List UInt64} {es es' : ElectraState}
    (h : es.processEpoch env slashings = .ok es') :
    BeaconState.ExitsScheduled es.state es'.state ∧ (es.RunInvariant → es'.RunInvariant) := by
  rw [processEpoch_eq_runOperations] at h
  exact runOperations_spec env _ h

end ElectraState

end Ream.Beacon.Electra
