import Ream.Beacon.ExitFrame

/-! What every run of the Electra entry points (`OperationCall`) keeps: the registry well formed,
exits ordered, and both request queues naming registry entries within their limits
(`ElectraState.RunInvariant`); and what every run schedules (`BeaconState.ExitsScheduled`). -/

namespace Ream.Beacon.Electra

open Ream.Consensus (B256)

namespace BeaconState

variable {s t : BeaconState}

/-! ## The partial withdrawal queue -/

/-- What every run keeps of the pending partial withdrawals: each names a registry entry, and the
queue is within `PENDING_PARTIAL_WITHDRAWALS_LIMIT`. -/
structure PartialsIndexed (s : BeaconState) : Prop where
  indexed : ∀ w ∈ s.pendingPartialWithdrawals, w.validatorIndex < s.validators.length
  length_le : s.pendingPartialWithdrawals.length ≤ PENDING_PARTIAL_WITHDRAWALS_LIMIT

/-- The pending partial withdrawals as the withdrawal requests queue them while no epoch wraps:
in order of withdrawable epoch, none later than the exit queue's frontier and the delay. -/
structure PartialsOrdered (s : BeaconState) : Prop extends s.PartialsIndexed where
  sorted : s.pendingPartialWithdrawals.Pairwise fun a b => a.withdrawableEpoch ≤ b.withdrawableEpoch
  le_frontier : ∀ w ∈ s.pendingPartialWithdrawals,
    w.withdrawableEpoch ≤ s.earliestExitEpoch + MIN_VALIDATOR_WITHDRAWABILITY_DELAY

namespace PartialsIndexed

theorem of_frame (h : s.PartialsIndexed) (hf : ExitFrame s t) : t.PartialsIndexed where
  indexed w hw := (h.indexed w (hf.partials ▸ hw)).trans_le hf.length_le
  length_le := hf.partials ▸ h.length_le

theorem drop (h : s.PartialsIndexed) (k : Nat)
    (hp : t.pendingPartialWithdrawals = s.pendingPartialWithdrawals.drop k)
    (hv : t.validators = s.validators) : t.PartialsIndexed where
  indexed w hw := hv ▸ h.indexed w (List.mem_of_mem_drop (hp ▸ hw))
  length_le := by
    rw [hp, List.length_drop]
    exact (Nat.sub_le _ _).trans h.length_le

/-- What a withdrawal request does to the queue: queue an entry for a validator of the registry,
while the queue has room. -/
theorem push (h : s.PartialsIndexed) {entry : PendingPartialWithdrawal}
    (hindex : entry.validatorIndex < s.validators.length)
    (hroom : s.pendingPartialWithdrawals.length ≠ PENDING_PARTIAL_WITHDRAWALS_LIMIT) :
    PartialsIndexed { s with pendingPartialWithdrawals := s.pendingPartialWithdrawals ++ [entry] } where
  indexed w hw := by
    rcases List.mem_append.mp hw with hw | hw
    · exact h.indexed w hw
    · rw [List.mem_singleton.mp hw]
      exact hindex
  length_le := by
    have := h.length_le
    rw [List.length_append, List.length_singleton]
    omega

end PartialsIndexed

/-- The invariant of the registry record under which the partial queue is in order. -/
structure QueueInvariant (s : BeaconState) : Prop where
  registry : s.RegistryWellFormed
  exits : s.ExitsOrdered
  partials : s.PartialsOrdered

/-- The invariant of the registry record that every run keeps. -/
structure RecordInvariant (s : BeaconState) : Prop where
  registry : s.RegistryWellFormed
  exits : s.ExitsOrdered
  partials : s.PartialsIndexed

theorem QueueInvariant.recordInvariant (h : s.QueueInvariant) : s.RecordInvariant :=
  ⟨h.registry, h.exits, h.partials.toPartialsIndexed⟩

theorem RecordInvariant.of_frame (h : s.RecordInvariant) (hf : ExitFrame s t)
    (hr : t.RegistryWellFormed) : t.RecordInvariant :=
  ⟨hr, hf.exits h.exits, h.partials.of_frame hf⟩

/-- `process_withdrawals` pays balances, drops the processed prefix of the partial queue and
moves the cursors: it writes neither the validators, the slot nor the queues' frontiers. -/
theorem processWithdrawals_eq {payloadWithdrawals : List Withdrawal}
    (h : s.processWithdrawals payloadWithdrawals = .ok t) :
    ∃ k, t.validators = s.validators ∧ t.slot = s.slot ∧
      t.pendingPartialWithdrawals = s.pendingPartialWithdrawals.drop k := by
  unfold processWithdrawals at h
  obtain ⟨⟨ws, k⟩, -, h⟩ := Except.bind_eq_ok.mp h
  dsimp only at h
  split at h
  case isTrue => cases h
  case isFalse =>
  obtain ⟨paid, hpaid, hcursors⟩ := Except.bind_eq_ok.mp h
  have hpaidEq : paid.validators = s.validators ∧ paid.slot = s.slot ∧
      paid.pendingPartialWithdrawals = s.pendingPartialWithdrawals := by
    refine Loop.foldlM_invariant (fun t => t.validators = s.validators ∧ t.slot = s.slot ∧
      t.pendingPartialWithdrawals = s.pendingPartialWithdrawals) ?_ ⟨rfl, rfl, rfl⟩ hpaid
    intro t w t' ht hstep
    obtain ⟨-, rfl⟩ := decreaseBalance_eq hstep
    exact ht
  obtain ⟨hv, hslot, hp⟩ := hpaidEq
  rw [(paid.updateWithdrawalCursors_ok hcursors).1]
  exact ⟨k, hv, hslot, by rw [hp]⟩

theorem processWithdrawals_exitsScheduled {payloadWithdrawals : List Withdrawal}
    (h : s.processWithdrawals payloadWithdrawals = .ok t) : ExitsScheduled s t := by
  obtain ⟨-, hv, hslot, -⟩ := processWithdrawals_eq h
  exact ExitsScheduled.of_eq hv hslot.ge

theorem processWithdrawals_recordInvariant {payloadWithdrawals : List Withdrawal}
    (h : s.processWithdrawals payloadWithdrawals = .ok t) (hs : s.RecordInvariant) :
    t.RecordInvariant := by
  obtain ⟨k, hv, -, hp⟩ := processWithdrawals_eq h
  exact ⟨processWithdrawals_wellFormed h hs.registry, fun v hmem => hs.exits v (hv ▸ hmem),
    hs.partials.drop k hp hv⟩

theorem processWithdrawalRequest_exitsScheduled {withdrawalRequest : WithdrawalRequest}
    (h : s.processWithdrawalRequest withdrawalRequest = .ok t) : ExitsScheduled s t := by
  rcases processWithdrawalRequest_cases h with rfl | ⟨-, index, -, -, -, -, hexit⟩ |
    ⟨validator, index, balance, exitQueueEpoch, s', -, -, -, -, -, hchurn, rfl⟩
  · exact ExitsScheduled.refl _
  · exact (initiateValidatorExit_exitFrame hexit).scheduled
  · exact (computeExitEpochAndUpdateChurn_exitFrame hchurn).scheduled.trans
      (ExitsScheduled.of_eq rfl le_rfl)

theorem processWithdrawalRequest_recordInvariant {withdrawalRequest : WithdrawalRequest}
    (h : s.processWithdrawalRequest withdrawalRequest = .ok t) (hs : s.RecordInvariant) :
    t.RecordInvariant := by
  rcases processWithdrawalRequest_cases h with rfl | ⟨-, index, -, -, -, -, hexit⟩ |
    ⟨validator, index, balance, exitQueueEpoch, s', hfind, -, hroom, -, -, hchurn, rfl⟩
  · exact hs
  · exact hs.of_frame (initiateValidatorExit_exitFrame hexit)
      (initiateValidatorExit_wellFormed hexit hs.registry)
  · have hf := computeExitEpochAndUpdateChurn_exitFrame hchurn
    have hq := hs.of_frame hf (computeExitEpochAndUpdateChurn_wellFormed hchurn hs.registry)
    have hindex : index < s'.validators.length :=
      (List.getElem?_eq_some_iff.mp (findValidator_eq_some hfind).1).1.trans_le hf.length_le
    exact ⟨hq.registry.of_lengths rfl rfl rfl rfl rfl, hq.exits,
      hq.partials.push hindex (hf.partials ▸ hroom)⟩

theorem processProposerSlashing_wellFormed {checks : SignatureChecks} {beaconProposerIndex : Nat}
    {proposerSlashing : ProposerSlashing}
    (h : s.processProposerSlashing checks beaconProposerIndex proposerSlashing = .ok t)
    (hs : s.RegistryWellFormed) : t.RegistryWellFormed := by
  unfold processProposerSlashing at h
  obtain ⟨_, -, hslash⟩ := Except.bind_eq_ok.mp h
  exact slashValidator_wellFormed hslash hs

theorem attesterSlashingStep_wellFormed {beaconProposerIndex currentEpoch : Nat}
    {acc acc' : BeaconState × Bool} {index : Nat}
    (h : attesterSlashingStep beaconProposerIndex currentEpoch acc index = .ok acc')
    (hs : acc.1.RegistryWellFormed) : acc'.1.RegistryWellFormed := by
  unfold attesterSlashingStep at h
  obtain ⟨validator, -, h⟩ := Except.bind_eq_ok.mp h
  split at h
  · obtain ⟨t, hslash, h⟩ := Except.bind_eq_ok.mp h
    rw [← Except.pure_eq_ok.mp h]
    exact slashValidator_wellFormed hslash hs
  · rw [← Except.pure_eq_ok.mp h]
    exact hs

theorem processAttesterSlashing_wellFormed {checks : SignatureChecks} {beaconProposerIndex : Nat}
    {attesterSlashing : AttesterSlashing}
    (h : s.processAttesterSlashing checks beaconProposerIndex attesterSlashing = .ok t)
    (hs : s.RegistryWellFormed) : t.RegistryWellFormed := by
  unfold processAttesterSlashing at h
  obtain ⟨⟨indices1, indices2⟩, -, h⟩ := Except.bind_eq_ok.mp h
  obtain ⟨⟨slashed, slashedAny⟩, hloop, h⟩ := Except.bind_eq_ok.mp h
  have hslashed : slashed.RegistryWellFormed :=
    Loop.foldlM_invariant (fun acc : BeaconState × Bool => acc.1.RegistryWellFormed)
      (fun _ _ _ hk hstep => attesterSlashingStep_wellFormed hstep hk) hs hloop
  dsimp only at h
  split at h
  · cases h
  · rw [← Except.pure_eq_ok.mp h]
    exact hslashed

theorem processSlashings_wellFormed {slashings : List UInt64}
    (h : s.processSlashings slashings = .ok t) (hs : s.RegistryWellFormed) :
    t.RegistryWellFormed := by
  unfold processSlashings at h
  refine Loop.foldlM_invariant (fun t => t.RegistryWellFormed) (fun _ _ _ ht hstep => ?_) hs h
  obtain ⟨_, -, ⟨-, -, hdecrease⟩ | ⟨-, rfl⟩⟩ := slashingsStep_cases hstep
  · exact decreaseBalance_wellFormed hdecrease ht
  · exact ht

theorem processDepositRequest_wellFormed (depositRequest : DepositRequest)
    (hs : s.RegistryWellFormed) : (s.processDepositRequest depositRequest).RegistryWellFormed := by
  unfold processDepositRequest
  dsimp only
  split <;> exact hs.of_lengths rfl rfl rfl rfl rfl

theorem processDeposit_wellFormed {isValidDepositBranch : Deposit → Nat → Bool}
    {isValidDepositSignature : PendingDeposit → Bool} {deposit : Deposit}
    (h : s.processDeposit isValidDepositBranch isValidDepositSignature deposit = .ok t)
    (hs : s.RegistryWellFormed) : t.RegistryWellFormed := by
  rw [processDeposit_eq_ok h]
  have hindex : RegistryWellFormed
      { s with eth1DepositIndex := (s.eth1DepositIndex + 1) % 2 ^ 64 } :=
    hs.of_lengths rfl rfl rfl rfl rfl
  exact applyDeposit_wellFormed hindex ..

theorem processVoluntaryExit_wellFormed {checks : SignatureChecks}
    {signedVoluntaryExit : SignedVoluntaryExit}
    (h : s.processVoluntaryExit checks signedVoluntaryExit = .ok t) (hs : s.RegistryWellFormed) :
    t.RegistryWellFormed := by
  unfold processVoluntaryExit at h
  obtain ⟨⟨⟩, -, hexit⟩ := Except.bind_eq_ok.mp h
  exact initiateValidatorExit_wellFormed hexit hs

end BeaconState

/-! ## The consolidation queue and the entry points -/

namespace ElectraState

/-- The invariant of the Electra state under which the partial queue is in order. -/
structure Invariant (es : ElectraState) : Prop where
  state : es.state.QueueInvariant
  consolidations_indexed : ∀ c ∈ es.pendingConsolidations,
    c.sourceIndex < es.state.validators.length ∧ c.targetIndex < es.state.validators.length
  consolidations_length_le : es.pendingConsolidations.length ≤ PENDING_CONSOLIDATIONS_LIMIT

/-- The invariant of the Electra state that every run keeps. -/
structure RunInvariant (es : ElectraState) : Prop where
  state : es.state.RecordInvariant
  consolidations_indexed : ∀ c ∈ es.pendingConsolidations,
    c.sourceIndex < es.state.validators.length ∧ c.targetIndex < es.state.validators.length
  consolidations_length_le : es.pendingConsolidations.length ≤ PENDING_CONSOLIDATIONS_LIMIT

variable {es es' : ElectraState} {t : BeaconState}

theorem Invariant.runInvariant (h : es.Invariant) : es.RunInvariant :=
  ⟨h.state.recordInvariant, h.consolidations_indexed, h.consolidations_length_le⟩

theorem RunInvariant.withState (h : es.RunInvariant) (ht : t.RecordInvariant)
    (hlength : es.state.validators.length ≤ t.validators.length) :
    RunInvariant { es with state := t } where
  state := ht
  consolidations_indexed c hc :=
    ⟨(h.consolidations_indexed c hc).1.trans_le hlength,
      (h.consolidations_indexed c hc).2.trans_le hlength⟩
  consolidations_length_le := h.consolidations_length_le

theorem RunInvariant.of_frame (h : es.RunInvariant) (hf : BeaconState.ExitFrame es.state t)
    (hr : t.RegistryWellFormed) : RunInvariant { es with state := t } :=
  h.withState (h.state.of_frame hf hr) hf.length_le

theorem withState_eq_ok {r : Except String BeaconState} (h : es.withState r = .ok es') :
    ∃ t, r = .ok t ∧ es' = { es with state := t } := by
  unfold withState at h
  obtain ⟨t, ht, h⟩ := Except.bind_eq_ok.mp h
  exact ⟨t, ht, (Except.pure_eq_ok.mp h).symm⟩

/-- A write of the registry record alone by a frame that keeps the registry well formed: it
schedules exits and keeps the invariant. -/
theorem frame_spec (hf : BeaconState.ExitFrame es.state t)
    (hr : es.state.RegistryWellFormed → t.RegistryWellFormed) :
    BeaconState.ExitsScheduled es.state t ∧ (es.RunInvariant → RunInvariant { es with state := t }) :=
  ⟨hf.scheduled, fun h => h.of_frame hf (hr h.state.registry)⟩

theorem withState_spec {r : Except String BeaconState}
    (hr : ∀ t, r = .ok t →
      BeaconState.ExitFrame es.state t ∧ (es.state.RegistryWellFormed → t.RegistryWellFormed))
    (hrun : es.withState r = .ok es') :
    BeaconState.ExitsScheduled es.state es'.state ∧ (es.RunInvariant → es'.RunInvariant) := by
  obtain ⟨t, ht, rfl⟩ := withState_eq_ok hrun
  exact frame_spec (hr t ht).1 (hr t ht).2

theorem processConsolidationRequest_spec {consolidationRequest : ConsolidationRequest}
    (h : es.processConsolidationRequest consolidationRequest = .ok es') :
    BeaconState.ExitsScheduled es.state es'.state ∧ (es.RunInvariant → es'.RunInvariant) := by
  rcases processConsolidationRequest_cases h with rfl | ⟨-, index, -, hswitch, hpending⟩ |
    ⟨sourceIndex, targetIndex, hindices, hexit, hpending⟩
  · exact ⟨BeaconState.ExitsScheduled.refl _, id⟩
  · have hspec := frame_spec (BeaconState.switchToCompoundingValidator_exitFrame hswitch)
      (BeaconState.switchToCompoundingValidator_wellFormed hswitch)
    cases es'
    cases hpending
    exact hspec
  · obtain ⟨sourceValidator, targetValidator, hsource, htarget, -, hroom, hchurn, -, -, -, -, -,
      hsourceExit, -, -, -⟩ := consolidationIndices_eq_some hindices
    have hsourceAt := (BeaconState.findValidator_eq_some hsource).1
    have hf := BeaconState.initiateConsolidationExit_exitFrame hexit fun v hv => by
        rw [hsourceAt, Option.some_inj] at hv
        exact hv ▸ hsourceExit
    refine ⟨hf.scheduled, fun hes => ⟨hes.state.of_frame hf
      (BeaconState.initiateConsolidationExit_wellFormed hexit hes.state.registry), fun c hc => ?_, ?_⟩⟩
    · have hsourceLt := (List.getElem?_eq_some_iff.mp hsourceAt).1
      have htargetLt :=
        (List.getElem?_eq_some_iff.mp (BeaconState.findValidator_eq_some htarget).1).1
      rw [hpending] at hc
      rcases List.mem_append.mp hc with hc | hc
      · exact ⟨(hes.consolidations_indexed c hc).1.trans_le hf.length_le,
          (hes.consolidations_indexed c hc).2.trans_le hf.length_le⟩
      · rw [List.mem_singleton.mp hc]
        exact ⟨hsourceLt.trans_le hf.length_le, htargetLt.trans_le hf.length_le⟩
    · have := hes.consolidations_length_le
      rw [hpending, List.length_append, List.length_singleton]
      omega

/-- The loop of `process_pending_consolidations` moves balances only: the state it leaves is a
frame of the first, and the queue loses the prefix it got past. -/
theorem processPendingConsolidations_frame (h : es.processPendingConsolidations = .ok es') :
    BeaconState.ExitFrame es.state es'.state ∧
      (es.state.RegistryWellFormed → es'.state.RegistryWellFormed) ∧
      ∃ k, es'.pendingConsolidations = es.pendingConsolidations.drop k := by
  unfold processPendingConsolidations at h
  obtain ⟨acc, hloop, h⟩ := Except.bind_eq_ok.mp h
  cases Except.pure_eq_ok.mp h
  have hacc : BeaconState.ExitFrame es.state acc.1 ∧
      (es.state.RegistryWellFormed → acc.1.RegistryWellFormed) := by
    refine Loop.breakLoop_spec (fun _ acc => BeaconState.ExitFrame es.state acc.1 ∧
      (es.state.RegistryWellFormed → acc.1.RegistryWellFormed))
      (fun acc => BeaconState.ExitFrame es.state acc.1 ∧
        (es.state.RegistryWellFormed → acc.1.RegistryWellFormed)) _ ?_ ?_ (fun _ hk => hk) _ _
      ⟨BeaconState.ExitFrame.refl _, id⟩ hloop
    all_goals
      intro _ _ acc acc' hk hstep
      obtain ⟨_, -, ⟨-, -, rfl⟩ | ⟨-, -, -, rfl⟩ | ⟨-, -, -, -, _, s1, -, hdecrease, hincrease⟩⟩ :=
        pendingConsolidationStep_cases hstep
      · exact hk
      · exact hk
      · exact ⟨hk.1.trans ((BeaconState.decreaseBalance_exitFrame hdecrease).trans
          (BeaconState.increaseBalance_exitFrame hincrease)), fun hs =>
          BeaconState.increaseBalance_wellFormed hincrease
            (BeaconState.decreaseBalance_wellFormed hdecrease (hk.2 hs))⟩
  exact ⟨hacc.1, hacc.2, acc.2, rfl⟩

theorem processPendingConsolidations_spec (h : es.processPendingConsolidations = .ok es') :
    BeaconState.ExitsScheduled es.state es'.state ∧ (es.RunInvariant → es'.RunInvariant) := by
  obtain ⟨hf, hr, k, hdrop⟩ := processPendingConsolidations_frame h
  refine ⟨hf.scheduled, fun hes => ?_⟩
  have hes' := hes.of_frame hf (hr hes.state.registry)
  refine ⟨hes'.state, fun c hc => hes'.consolidations_indexed c ?_, ?_⟩
  · rw [hdrop] at hc
    exact List.mem_of_mem_drop hc
  · rw [hdrop, List.length_drop]
    exact (Nat.sub_le _ _).trans hes.consolidations_length_le

end ElectraState

open Ream.Beacon.Electra.BeaconState in
theorem OperationCall.run_spec (env : OperationsEnv) {es es' : ElectraState} :
    ∀ call : OperationCall, call.run env es = .ok es' →
      ExitsScheduled es.state es'.state ∧ (es.RunInvariant → es'.RunInvariant)
  | .advanceSlot, h => by
    cases h
    exact ElectraState.frame_spec (ExitFrame.of_eq rfl (Nat.le_succ _) rfl)
      fun hs => hs.of_lengths rfl rfl rfl rfl rfl
  | .increaseBalance .., h => ElectraState.withState_spec (fun _ ht =>
      ⟨increaseBalance_exitFrame ht, increaseBalance_wellFormed ht⟩) h
  | .decreaseBalance .., h => ElectraState.withState_spec (fun _ ht =>
      ⟨decreaseBalance_exitFrame ht, decreaseBalance_wellFormed ht⟩) h
  | .processProposerSlashing .., h => ElectraState.withState_spec (fun _ ht =>
      ⟨processProposerSlashing_exitFrame ht, processProposerSlashing_wellFormed ht⟩) h
  | .processAttesterSlashing .., h => ElectraState.withState_spec (fun _ ht =>
      ⟨processAttesterSlashing_exitFrame ht, processAttesterSlashing_wellFormed ht⟩) h
  | .setParticipationFlags .., h => ElectraState.withState_spec (fun _ ht =>
      ⟨setParticipationFlags_exitFrame ht, setParticipationFlags_wellFormed ht⟩) h
  | .applyDeposit .., h => by
    cases h
    exact ElectraState.frame_spec (applyDeposit_exitFrame ..) (applyDeposit_wellFormed · ..)
  | .processDeposit _, h => ElectraState.withState_spec (fun _ ht =>
      ⟨processDeposit_exitFrame ht, processDeposit_wellFormed ht⟩) h
  | .processVoluntaryExit _, h => ElectraState.withState_spec (fun _ ht =>
      ⟨processVoluntaryExit_exitFrame ht, processVoluntaryExit_wellFormed ht⟩) h
  | .processBlsToExecutionChange _, h => ElectraState.withState_spec (fun _ ht =>
      ⟨processBlsToExecutionChange_exitFrame ht, processBlsToExecutionChange_wellFormed ht⟩) h
  | .processDepositRequest _, h => by
    cases h
    exact ElectraState.frame_spec (processDepositRequest_exitFrame _)
      (processDepositRequest_wellFormed _)
  | .processWithdrawalRequest _, h => by
    obtain ⟨t, ht, rfl⟩ := ElectraState.withState_eq_ok h
    have hscheduled := processWithdrawalRequest_exitsScheduled ht
    exact ⟨hscheduled, fun hes => hes.withState (processWithdrawalRequest_recordInvariant ht hes.state)
      hscheduled.length_le⟩
  | .processConsolidationRequest _, h => ElectraState.processConsolidationRequest_spec h
  | .processWithdrawals _, h => by
    obtain ⟨t, ht, rfl⟩ := ElectraState.withState_eq_ok h
    have hscheduled := processWithdrawals_exitsScheduled ht
    exact ⟨hscheduled, fun hes => hes.withState (processWithdrawals_recordInvariant ht hes.state)
      hscheduled.length_le⟩
  | .processInactivityUpdates, h => ElectraState.withState_spec (fun _ ht =>
      ⟨processInactivityUpdates_exitFrame ht, processInactivityUpdates_wellFormed ht⟩) h
  | .processRewardsAndPenalties, h => ElectraState.withState_spec (fun _ ht =>
      ⟨processRewardsAndPenalties_exitFrame ht, processRewardsAndPenalties_wellFormed ht⟩) h
  | .processRegistryUpdates, h => ElectraState.withState_spec (fun _ ht =>
      ⟨processRegistryUpdates_exitFrame ht, processRegistryUpdates_wellFormed ht⟩) h
  | .processPendingDeposits, h => ElectraState.withState_spec (fun _ ht =>
      ⟨processPendingDeposits_exitFrame ht, processPendingDeposits_wellFormed ht⟩) h
  | .processPendingConsolidations, h => ElectraState.processPendingConsolidations_spec h
  | .processSlashings _, h => ElectraState.withState_spec (fun _ ht =>
      ⟨processSlashings_exitFrame ht, processSlashings_wellFormed ht⟩) h
  | .processEffectiveBalanceUpdates, h => ElectraState.withState_spec (fun _ ht =>
      ⟨processEffectiveBalanceUpdates_exitFrame ht, processEffectiveBalanceUpdates_wellFormed ht⟩) h
  | .processParticipationFlagUpdates, h => by
    cases h
    exact ElectraState.frame_spec processParticipationFlagUpdates_exitFrame
      processParticipationFlagUpdates_wellFormed

theorem runOperations_spec (env : OperationsEnv) (calls : List OperationCall)
    {es es' : ElectraState} (h : runOperations env calls es = .ok es') :
    BeaconState.ExitsScheduled es.state es'.state ∧ (es.RunInvariant → es'.RunInvariant) :=
  Loop.foldlM_invariant
    (fun es' => BeaconState.ExitsScheduled es.state es'.state ∧ (es.RunInvariant → es'.RunInvariant))
    (fun _ call _ hk hcall =>
      ⟨hk.1.trans (call.run_spec env hcall).1, fun hes => (call.run_spec env hcall).2 (hk.2 hes)⟩)
    ⟨BeaconState.ExitsScheduled.refl _, id⟩ h

/-- Along every run of the entry points from a state that satisfies the run invariant, it holds:
the registry stays well formed, every slashed validator's exit is initiated, every initiated exit
is followed by the withdrawability delay where that sum fits in a `u64`, and both queues name
registry entries and stay within their limits. -/
theorem entryPoints_keep_invariant (env : OperationsEnv) (calls : List OperationCall)
    {es es' : ElectraState} (hes : es.RunInvariant) (h : runOperations env calls es = .ok es') :
    es'.RunInvariant :=
  (runOperations_spec env calls h).2 hes

/-- Along every run of the entry points, from any state: the slot never goes back, the registry
never shrinks, an initiated exit is never moved, and a slashed validator stays slashed. -/
theorem entryPoints_schedule_exits (env : OperationsEnv) (calls : List OperationCall)
    {es es' : ElectraState} (h : runOperations env calls es = .ok es') :
    BeaconState.ExitsScheduled es.state es'.state :=
  (runOperations_spec env calls h).1

/-! ## What the order of the partial queue gives `process_withdrawals` -/

namespace BeaconState

variable {s t : BeaconState}

/-- The partial-withdrawal loop breaks at an entry not yet withdrawable, or once the partials
fill their share of the payload. -/
theorem partialWithdrawalStep_break {epoch : Nat} {acc acc' : SweepState}
    {w : PendingPartialWithdrawal} (h : s.partialWithdrawalStep epoch acc w = .ok (acc', true)) :
    epoch < w.withdrawableEpoch ∨
      acc.withdrawals.length = MAX_PENDING_PARTIALS_PER_WITHDRAWALS_SWEEP := by
  unfold partialWithdrawalStep at h
  split at h
  case isTrue hstop => exact hstop
  case isFalse =>
    split at h
    · cases h
    · split at h
      · cases h
      · cases h

/-- Where the partial-withdrawal loop stops on a queue in order of withdrawable epoch: every entry
it did not process is not yet withdrawable, or the partials filled their share. -/
theorem partialsLoop_stops {epoch : Nat} {acc : SweepState}
    (hsorted : s.pendingPartialWithdrawals.Pairwise fun a b =>
      a.withdrawableEpoch ≤ b.withdrawableEpoch)
    (h : Loop.breakLoop (s.partialWithdrawalStep epoch)
      ⟨s.nextWithdrawalIndex, s.nextWithdrawalValidatorIndex, [], 0⟩ s.pendingPartialWithdrawals =
        .ok acc) :
    (∀ w ∈ s.pendingPartialWithdrawals.drop acc.processedPartialWithdrawalsCount,
      epoch < w.withdrawableEpoch) ∨
      acc.withdrawals.length = MAX_PENDING_PARTIALS_PER_WITHDRAWALS_SWEEP := by
  refine Loop.breakLoop_spec (fun k acc => PartialsInv s k acc)
    (fun acc => (∀ w ∈ s.pendingPartialWithdrawals.drop acc.processedPartialWithdrawalsCount,
      epoch < w.withdrawableEpoch) ∨
      acc.withdrawals.length = MAX_PENDING_PARTIALS_PER_WITHDRAWALS_SWEEP)
    s.pendingPartialWithdrawals ?_ ?_ ?_ _ _ ⟨SweepState.Sound.start, rfl, by simp, rfl⟩ h
  · intro k _ acc acc' hinv hstep
    exact partialWithdrawalStep_inv hinv hstep
  · intro k hk acc acc' hinv hstep
    rcases partialWithdrawalStep_ok hstep with ⟨-, rfl⟩ | ⟨hdone, -⟩
    · rcases partialWithdrawalStep_break hstep with hlate | hcap
      · left
        rw [hinv.count]
        have hrest := List.pairwise_cons.mp
          (List.drop_eq_getElem_cons hk ▸ hsorted.sublist (List.drop_sublist k _))
        intro w hw
        rw [List.drop_eq_getElem_cons hk] at hw
        rcases List.mem_cons.mp hw with rfl | hw
        · exact hlate
        · exact hlate.trans_le (hrest.1 w hw)
      · exact .inr hcap
    · cases hdone
  · intro acc hinv
    left
    rw [hinv.count, List.drop_length]
    exact fun w hw => absurd hw List.not_mem_nil

end BeaconState

/-- From every state of the invariant, `process_withdrawals` leaves no pending partial withdrawal
that is due at the current epoch, unless the payload holds at least
`MAX_PENDING_PARTIALS_PER_WITHDRAWALS_SWEEP` withdrawals: the loop over the queue stops at the
first entry not yet due, and every entry after it is due no sooner. -/
theorem processWithdrawals_leaves_no_due_partial {es : ElectraState}
    {payloadWithdrawals : List Withdrawal} {t : BeaconState} (hes : es.Invariant)
    (h : es.state.processWithdrawals payloadWithdrawals = .ok t) :
    (∀ w ∈ t.pendingPartialWithdrawals, es.state.getCurrentEpoch < w.withdrawableEpoch) ∨
      MAX_PENDING_PARTIALS_PER_WITHDRAWALS_SWEEP ≤ payloadWithdrawals.length := by
  have hrun := h
  unfold BeaconState.processWithdrawals at hrun
  obtain ⟨⟨ws, k⟩, hexp, -⟩ := Except.bind_eq_ok.mp hrun
  obtain ⟨rfl, -, -, hdrop, -⟩ := es.state.processWithdrawals_ok hexp h
  unfold BeaconState.getExpectedWithdrawals at hexp
  obtain ⟨accP, hP, hexp⟩ := Except.bind_eq_ok.mp hexp
  obtain ⟨accS, hS, hexp⟩ := Except.bind_eq_ok.mp hexp
  rw [Except.pure_eq_ok, Prod.mk.injEq] at hexp
  obtain ⟨rfl, rfl⟩ := hexp
  obtain ⟨k, -, hinv⟩ := es.state.partialsLoop_ok hP
  have hdone := es.state.sweepLoop_ok hinv.sweepStart hS
  rw [hdrop, hdone.count]
  rcases BeaconState.partialsLoop_stops hes.state.partials.sorted hP with hdue | hcap
  · left
    rwa [hinv.count] at hdue
  · right
    rw [← hcap]
    exact hdone.partials_le

/-! ## A run from an empty registry -/

/-- The empty registry with no pending consolidation. -/
def emptyElectraState : ElectraState := ⟨emptyRegistry, []⟩

theorem emptyElectraState_runInvariant : emptyElectraState.RunInvariant where
  state :=
    { registry := ⟨rfl, rfl, rfl, rfl, fun _ h => absurd h List.not_mem_nil⟩
      exits := fun _ h => absurd h List.not_mem_nil
      partials :=
        { indexed := fun _ h => absurd h List.not_mem_nil
          length_le := Nat.zero_le _ } }
  consolidations_indexed := fun _ h => absurd h List.not_mem_nil
  consolidations_length_le := Nat.zero_le _

/-- Every check passes. -/
def acceptingOperationsEnv : OperationsEnv :=
  ⟨⟨0, fun _ => true, ⟨fun _ => 0, fun _ => true⟩⟩,
    ⟨fun _ _ => true, fun _ _ => true, fun _ _ => true⟩, fun _ _ => true⟩

/-- A deposit request, a slot, a deposit of a new key and the epoch's pending deposits. -/
def depositRequestCalls : List OperationCall :=
  [.processDepositRequest ⟨7, 0, 32000000000, 0, 0⟩, .advanceSlot, .applyDeposit 7 0 32000000000 0,
    .processPendingDeposits]

theorem depositRequests_keep_invariant :
    ∃ es', runOperations acceptingOperationsEnv depositRequestCalls emptyElectraState = .ok es' ∧
      es'.RunInvariant :=
  ⟨_, rfl, entryPoints_keep_invariant acceptingOperationsEnv depositRequestCalls
    emptyElectraState_runInvariant rfl⟩

theorem depositRequests_schedule_exits :
    ∃ es', runOperations acceptingOperationsEnv depositRequestCalls emptyElectraState = .ok es' ∧
      BeaconState.ExitsScheduled emptyElectraState.state es'.state :=
  ⟨_, rfl, entryPoints_schedule_exits acceptingOperationsEnv depositRequestCalls rfl⟩

/-- One compounding validator of 40 ETH with 32 ETH effective, and a 1 ETH partial withdrawal
due at genesis. -/
def duePartialState : ElectraState :=
  ⟨{ emptyRegistry with
      validators := [⟨0, credentialsFrom COMPOUNDING_WITHDRAWAL_PREFIX 0, 32000000000, false, 0, 0,
        FAR_FUTURE_EPOCH, FAR_FUTURE_EPOCH⟩]
      balances := [40000000000]
      previousEpochParticipation := [0]
      currentEpochParticipation := [0]
      inactivityScores := [0]
      pendingPartialWithdrawals := [⟨0, 1000000000, 0⟩] }, []⟩

theorem duePartialState_invariant : duePartialState.Invariant where
  state :=
    { registry := by decide
      exits := fun v hv => by
        rw [List.mem_singleton.mp hv]
        exact ⟨fun h => absurd h Bool.false_ne_true, fun h => absurd rfl h⟩
      partials :=
        { sorted := List.pairwise_singleton _ _
          le_frontier := fun w hw => by
            rw [List.mem_singleton.mp hw]
            exact Nat.zero_le _
          indexed := fun w hw => by
            rw [List.mem_singleton.mp hw]
            exact Nat.one_pos
          length_le := by decide } }
  consolidations_indexed := fun _ h => absurd h List.not_mem_nil
  consolidations_length_le := Nat.zero_le _

/-- The due partial withdrawal is paid and leaves the queue. -/
theorem duePartial_drained :
    ∃ t, duePartialState.state.processWithdrawals [⟨0, 0, 0, 1000000000⟩] = .ok t ∧
      ((∀ w ∈ t.pendingPartialWithdrawals,
          duePartialState.state.getCurrentEpoch < w.withdrawableEpoch) ∨
        MAX_PENDING_PARTIALS_PER_WITHDRAWALS_SWEEP ≤ [(⟨0, 0, 0, 1000000000⟩ : Withdrawal)].length) :=
  ⟨_, rfl, processWithdrawals_leaves_no_due_partial duePartialState_invariant rfl⟩

/-! ## What a withdrawal request queues -/

namespace BeaconState

variable {s t : BeaconState}

/-- The amounts queued for a validator's partial withdrawals, summed as numbers. -/
def pendingWithdrawalSum (s : BeaconState) (index : Nat) : Nat :=
  ((s.pendingPartialWithdrawals.filter (·.validatorIndex = index)).map (·.amount.toNat)).sum

theorem toNat_getPendingBalanceToWithdraw (s : BeaconState) (index : Nat) :
    (s.getPendingBalanceToWithdraw index).toNat = s.pendingWithdrawalSum index % 2 ^ 64 := by
  unfold getPendingBalanceToWithdraw pendingWithdrawalSum
  rw [toNat_sum, List.map_map]
  rfl

theorem pendingWithdrawalSum_push (s : BeaconState) (entry : PendingPartialWithdrawal)
    (index : Nat) :
    ({ s with pendingPartialWithdrawals := s.pendingPartialWithdrawals ++ [entry] } :
      BeaconState).pendingWithdrawalSum index =
      s.pendingWithdrawalSum index + if entry.validatorIndex = index then entry.amount.toNat else 0 := by
  unfold pendingWithdrawalSum
  by_cases hindex : entry.validatorIndex = index <;> simp [hindex]

theorem initiateValidatorExit_balances {index : Nat} (h : s.initiateValidatorExit index = .ok t) :
    t.balances = s.balances ∧ t.pendingPartialWithdrawals = s.pendingPartialWithdrawals := by
  rcases initiateValidatorExit_cases h with ⟨rfl, -⟩ | ⟨_, _, s', -, -, hchurn, -, rfl⟩
  · exact ⟨rfl, rfl⟩
  have hs' := computeExitEpochAndUpdateChurn_eq hchurn
  rw [hs']
  exact ⟨rfl, rfl⟩

/-- A withdrawal request never queues more for a validator than its balance above
`MIN_ACTIVATION_BALANCE`, as long as what was queued for it fits in a `u64` with that minimum:
after it, the validator's queued amounts are as they were, or they and the minimum are at most
its balance, which the request does not change. -/
theorem processWithdrawalRequest_within_excess_balance {withdrawalRequest : WithdrawalRequest}
    (h : s.processWithdrawalRequest withdrawalRequest = .ok t) {index : Nat} {balance : UInt64}
    (hbalance : s.balances[index]? = some balance)
    (hfit : s.pendingWithdrawalSum index + MIN_ACTIVATION_BALANCE.toNat < 2 ^ 64) :
    t.balances = s.balances ∧ (t.pendingWithdrawalSum index = s.pendingWithdrawalSum index ∨
      t.pendingWithdrawalSum index + MIN_ACTIVATION_BALANCE.toNat ≤ balance.toNat) := by
  rcases processWithdrawalRequest_cases h with rfl | ⟨-, _, -, -, -, -, hexit⟩ |
    ⟨validator, i, balance', exitQueueEpoch, s', -, -, -, hbalance', hexcess, hchurn, rfl⟩
  · exact ⟨rfl, .inl rfl⟩
  · obtain ⟨hbalances, hpartials⟩ := initiateValidatorExit_balances hexit
    refine ⟨hbalances, .inl ?_⟩
    unfold pendingWithdrawalSum
    rw [hpartials]
  have hs' := computeExitEpochAndUpdateChurn_eq hchurn
  have hbalances : s'.balances = s.balances := by rw [hs']
  have hsum : s'.pendingWithdrawalSum index = s.pendingWithdrawalSum index := by rw [hs']; rfl
  refine ⟨hbalances, ?_⟩
  rw [pendingWithdrawalSum_push, hsum]
  dsimp only
  split
  case isFalse => exact .inl (Nat.add_zero _)
  case isTrue hi =>
  subst hi
  rw [hbalance, Option.some_inj] at hbalance'
  subst hbalance'
  right
  have hpending := s.toNat_getPendingBalanceToWithdraw i
  rw [Nat.mod_eq_of_lt (by omega)] at hpending
  have hcheck := UInt64.lt_iff_toNat_lt.mp hexcess
  rw [UInt64.toNat_add, hpending, Nat.mod_eq_of_lt (by omega)] at hcheck
  have hmin : MIN_ACTIVATION_BALANCE ≤ balance := UInt64.le_iff_toNat_le.mpr (by omega)
  have hrest : s.getPendingBalanceToWithdraw i ≤ balance - MIN_ACTIVATION_BALANCE := by
    rw [UInt64.le_iff_toNat_le, UInt64.toNat_sub_of_le _ _ hmin]
    omega
  have hwithdraw := min_le_first (balance - MIN_ACTIVATION_BALANCE - s.getPendingBalanceToWithdraw i)
    withdrawalRequest.amount
  rw [UInt64.le_iff_toNat_le, UInt64.toNat_sub_of_le _ _ hrest, UInt64.toNat_sub_of_le _ _ hmin]
    at hwithdraw
  omega

end BeaconState

/-- At epoch 256, validator 0 of `duePartialState`, with 40 ETH and 1 ETH queued, asks for
5 ETH. -/
def partialRequestState : BeaconState := { duePartialState.state with slot := 8192 }

def partialRequest : WithdrawalRequest := ⟨0, 0, 5000000000⟩

/-- The 5 ETH are queued: 6 ETH in all, within the 8 ETH above the minimum. -/
theorem partialRequest_within_excess_balance :
    ∃ t, partialRequestState.processWithdrawalRequest partialRequest = .ok t ∧
      partialRequestState.balances[0]? = some 40000000000 ∧
      partialRequestState.pendingWithdrawalSum 0 + MIN_ACTIVATION_BALANCE.toNat < 2 ^ 64 ∧
      t.balances = partialRequestState.balances ∧
        (t.pendingWithdrawalSum 0 = partialRequestState.pendingWithdrawalSum 0 ∨
          t.pendingWithdrawalSum 0 + MIN_ACTIVATION_BALANCE.toNat ≤ (40000000000 : UInt64).toNat) := by
  obtain ⟨t, ht⟩ : ∃ t, partialRequestState.processWithdrawalRequest partialRequest = .ok t :=
    ⟨_, rfl⟩
  exact ⟨t, ht, rfl, by decide,
    BeaconState.processWithdrawalRequest_within_excess_balance ht rfl (by decide)⟩

end Ream.Beacon.Electra
