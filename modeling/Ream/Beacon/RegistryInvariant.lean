import Ream.Beacon.RegistryWrites
import Ream.Lib.Writes

/-!
# The registry invariant

Along every run of the registry's writers (`RegistryCall`) the per-validator lists keep one entry
per validator, and every effective balance stays a whole number of increments within the maximum
of its credentials (`BeaconState.RegistryWellFormed`).
-/

namespace Ream.Beacon.Electra

open Ream.Consensus (B256)

/-! ## Effective balances -/

namespace Validator

/-- The effective balance is a whole number of increments, at most the maximum the withdrawal
credentials allow. -/
def HasValidEffectiveBalance (v : Validator) : Prop :=
  v.effectiveBalance % EFFECTIVE_BALANCE_INCREMENT = 0 ∧
    v.effectiveBalance ≤ v.getMaxEffectiveBalance

instance (v : Validator) : Decidable v.HasValidEffectiveBalance :=
  inferInstanceAs (Decidable (_ ∧ _))

theorem getMaxEffectiveBalance_le (v : Validator) :
    v.getMaxEffectiveBalance ≤ MAX_EFFECTIVE_BALANCE_ELECTRA := by
  unfold getMaxEffectiveBalance
  split <;> decide

theorem getMaxEffectiveBalance_of_not_compounding {v : Validator}
    (h : credentialPrefix v.withdrawalCredentials ≠ COMPOUNDING_WITHDRAWAL_PREFIX) :
    v.getMaxEffectiveBalance = MIN_ACTIVATION_BALANCE := by
  unfold getMaxEffectiveBalance hasCompoundingWithdrawalCredential isCompoundingWithdrawalCredential
  rw [if_neg (by simpa using h)]

theorem getMaxEffectiveBalance_of_compounding {v : Validator}
    (h : credentialPrefix v.withdrawalCredentials = COMPOUNDING_WITHDRAWAL_PREFIX) :
    v.getMaxEffectiveBalance = MAX_EFFECTIVE_BALANCE_ELECTRA := by
  unfold getMaxEffectiveBalance hasCompoundingWithdrawalCredential isCompoundingWithdrawalCredential
  rw [if_pos (by simpa using h)]

theorem HasValidEffectiveBalance.of_le_max {v w : Validator} (h : v.HasValidEffectiveBalance)
    (heffective : w.effectiveBalance = v.effectiveBalance)
    (hmax : v.getMaxEffectiveBalance ≤ w.getMaxEffectiveBalance) : w.HasValidEffectiveBalance :=
  ⟨heffective ▸ h.1, heffective ▸ UInt64.le_trans h.2 hmax⟩

theorem HasValidEffectiveBalance.of_status {v w : Validator} (h : v.HasValidEffectiveBalance)
    (heffective : w.effectiveBalance = v.effectiveBalance)
    (hcredentials : w.withdrawalCredentials = v.withdrawalCredentials) :
    w.HasValidEffectiveBalance := by
  have hmax : w.getMaxEffectiveBalance = v.getMaxEffectiveBalance := by
    unfold getMaxEffectiveBalance hasCompoundingWithdrawalCredential
    rw [hcredentials]
  exact h.of_le_max heffective (hmax ▸ UInt64.le_refl _)

/-- The value both writers of the effective balance store: the amount rounded down to an
increment, capped at the maximum. -/
theorem hasValidEffectiveBalance_rounded (v : Validator) (amount : UInt64) :
    HasValidEffectiveBalance { v with
      effectiveBalance := min (amount - amount % EFFECTIVE_BALANCE_INCREMENT) v.getMaxEffectiveBalance } := by
  have hmod : (amount % EFFECTIVE_BALANCE_INCREMENT).toNat = amount.toNat % 1000000000 :=
    UInt64.toNat_mod _ _
  have hrounded : (amount - amount % EFFECTIVE_BALANCE_INCREMENT).toNat =
      amount.toNat - amount.toNat % 1000000000 := by
    rw [UInt64.toNat_sub_of_le _ _ (by rw [UInt64.le_iff_toNat_le, hmod]; exact Nat.mod_le _ _),
      hmod]
  have hmax : v.getMaxEffectiveBalance.toNat % 1000000000 = 0 := by
    unfold getMaxEffectiveBalance
    split <;> rfl
  refine ⟨?_, ?_⟩
  · apply UInt64.toNat_inj.mp
    rw [UInt64.toNat_mod, UInt64.toNat_min, hrounded]
    show min _ _ % 1000000000 = 0
    rcases Nat.le_total (amount.toNat - amount.toNat % 1000000000) v.getMaxEffectiveBalance.toNat
      with hle | hle
    · rw [Nat.min_eq_left hle]
      exact Nat.sub_mod_eq_zero_of_mod_eq (Nat.mod_mod _ _).symm
    · rw [Nat.min_eq_right hle, hmax]
  · rw [UInt64.le_iff_toNat_le, UInt64.toNat_min]
    exact Nat.min_le_right _ _

end Validator

theorem credentialPrefix_credentialsFrom {firstByte : Nat} (h : firstByte < 256) (tail : Nat) :
    credentialPrefix (credentialsFrom firstByte tail) = firstByte := by
  have htail : tail % 2 ^ 248 < 2 ^ 248 := Nat.mod_lt _ (Nat.two_pow_pos 248)
  have hlt : firstByte * 2 ^ 248 + tail % 2 ^ 248 < 2 ^ 256 := by
    have : firstByte * 2 ^ 248 + 2 ^ 248 ≤ 256 * 2 ^ 248 := by
      rw [← Nat.succ_mul]
      exact Nat.mul_le_mul_right _ h
    omega
  show (firstByte * 2 ^ 248 + tail % 2 ^ 248) % 2 ^ 256 / 2 ^ 248 = firstByte
  rw [Nat.mod_eq_of_lt hlt, Nat.mul_comm, Nat.mul_add_div (Nat.two_pow_pos 248),
    Nat.div_eq_of_lt htail, Nat.add_zero]

theorem getValidatorFromDeposit_valid (publicKey : PublicKey) (withdrawalCredentials : B256)
    (amount : UInt64) : (getValidatorFromDeposit publicKey withdrawalCredentials amount).HasValidEffectiveBalance :=
  Validator.hasValidEffectiveBalance_rounded _ amount

theorem effectiveBalanceUpdate_valid {validator : Validator}
    (h : validator.HasValidEffectiveBalance) (balance : UInt64) :
    (effectiveBalanceUpdate validator balance).HasValidEffectiveBalance := by
  unfold effectiveBalanceUpdate
  dsimp only
  split
  · exact Validator.hasValidEffectiveBalance_rounded validator balance
  · exact h

/-! ## The invariant -/

namespace BeaconState

/-- The registry invariant: one balance, one participation entry in each epoch's list and one
inactivity score per validator, and every effective balance valid. -/
structure RegistryWellFormed (s : BeaconState) : Prop where
  balances_length : s.balances.length = s.validators.length
  previousEpochParticipation_length : s.previousEpochParticipation.length = s.validators.length
  currentEpochParticipation_length : s.currentEpochParticipation.length = s.validators.length
  inactivityScores_length : s.inactivityScores.length = s.validators.length
  effectiveBalance_valid : ∀ v ∈ s.validators, v.HasValidEffectiveBalance

instance (s : BeaconState) : Decidable s.RegistryWellFormed :=
  decidable_of_iff (s.balances.length = s.validators.length ∧
      s.previousEpochParticipation.length = s.validators.length ∧
      s.currentEpochParticipation.length = s.validators.length ∧
      s.inactivityScores.length = s.validators.length ∧
      ∀ v ∈ s.validators, v.HasValidEffectiveBalance)
    ⟨fun ⟨h₁, h₂, h₃, h₄, h₅⟩ => ⟨h₁, h₂, h₃, h₄, h₅⟩, fun h => ⟨h.1, h.2, h.3, h.4, h.5⟩⟩

namespace RegistryWellFormed

variable {s t : BeaconState}

theorem of_lengths (h : s.RegistryWellFormed) (hvalidators : t.validators = s.validators)
    (hbalances : t.balances.length = s.balances.length)
    (hprevious : t.previousEpochParticipation.length = s.previousEpochParticipation.length)
    (hcurrent : t.currentEpochParticipation.length = s.currentEpochParticipation.length)
    (hscores : t.inactivityScores.length = s.inactivityScores.length) : t.RegistryWellFormed where
  balances_length := by rw [hbalances, hvalidators, h.balances_length]
  previousEpochParticipation_length := by
    rw [hprevious, hvalidators, h.previousEpochParticipation_length]
  currentEpochParticipation_length := by
    rw [hcurrent, hvalidators, h.currentEpochParticipation_length]
  inactivityScores_length := by rw [hscores, hvalidators, h.inactivityScores_length]
  effectiveBalance_valid := hvalidators ▸ h.effectiveBalance_valid

theorem modify_validators (h : s.RegistryWellFormed) (index : Nat) {f : Validator → Validator}
    (hf : ∀ v, s.validators[index]? = some v → (f v).HasValidEffectiveBalance) :
    RegistryWellFormed { s with validators := s.validators.modify index f } where
  balances_length := by rw [List.length_modify, h.balances_length]
  previousEpochParticipation_length := by
    rw [List.length_modify, h.previousEpochParticipation_length]
  currentEpochParticipation_length := by
    rw [List.length_modify, h.currentEpochParticipation_length]
  inactivityScores_length := by rw [List.length_modify, h.inactivityScores_length]
  effectiveBalance_valid := List.forall_mem_modify h.effectiveBalance_valid hf

theorem modify_status (h : s.RegistryWellFormed) (index : Nat) {f : Validator → Validator}
    (hf : ∀ v, (f v).effectiveBalance = v.effectiveBalance ∧
      (f v).withdrawalCredentials = v.withdrawalCredentials) :
    RegistryWellFormed { s with validators := s.validators.modify index f } :=
  h.modify_validators index fun v hv =>
    (h.effectiveBalance_valid v (List.mem_of_getElem? hv)).of_status (hf v).1 (hf v).2

theorem set_validators (h : s.RegistryWellFormed) {validators : List Validator}
    (hlength : validators.length = s.validators.length)
    (hvalid : ∀ v ∈ validators, v.HasValidEffectiveBalance) :
    RegistryWellFormed { s with validators } where
  balances_length := h.balances_length.trans hlength.symm
  previousEpochParticipation_length := h.previousEpochParticipation_length.trans hlength.symm
  currentEpochParticipation_length := h.currentEpochParticipation_length.trans hlength.symm
  inactivityScores_length := h.inactivityScores_length.trans hlength.symm
  effectiveBalance_valid := hvalid

end RegistryWellFormed

/-! ## Balances and deposits -/

variable {s t : BeaconState}

theorem increaseBalance_wellFormed {index : Nat} {delta : UInt64}
    (h : s.increaseBalance index delta = .ok t) (hs : s.RegistryWellFormed) :
    t.RegistryWellFormed := by
  unfold increaseBalance at h
  split at h
  · cases h
    exact hs.of_lengths rfl (List.length_modify _ _ _) rfl rfl rfl
  · cases h

theorem decreaseBalance_wellFormed {index : Nat} {delta : UInt64}
    (h : s.decreaseBalance index delta = .ok t) (hs : s.RegistryWellFormed) :
    t.RegistryWellFormed := by
  unfold decreaseBalance at h
  split at h
  · cases h
    exact hs.of_lengths rfl (List.length_modify _ _ _) rfl rfl rfl
  · cases h

theorem addValidatorToRegistry_wellFormed (hs : s.RegistryWellFormed) (publicKey : PublicKey)
    (withdrawalCredentials : B256) (amount : UInt64) :
    (s.addValidatorToRegistry publicKey withdrawalCredentials amount).RegistryWellFormed where
  balances_length := by simp [addValidatorToRegistry, hs.balances_length]
  previousEpochParticipation_length := by
    simp [addValidatorToRegistry, hs.previousEpochParticipation_length]
  currentEpochParticipation_length := by
    simp [addValidatorToRegistry, hs.currentEpochParticipation_length]
  inactivityScores_length := by simp [addValidatorToRegistry, hs.inactivityScores_length]
  effectiveBalance_valid v hv := by
    rcases List.mem_append.mp hv with hv | hv
    · exact hs.effectiveBalance_valid v hv
    · rw [List.mem_singleton.mp hv]
      exact getValidatorFromDeposit_valid publicKey withdrawalCredentials amount

theorem applyPendingDeposit_wellFormed {isValidDepositSignature : PendingDeposit → Bool}
    {deposit : PendingDeposit} (h : s.applyPendingDeposit isValidDepositSignature deposit = .ok t)
    (hs : s.RegistryWellFormed) : t.RegistryWellFormed := by
  unfold applyPendingDeposit at h
  split at h
  · exact increaseBalance_wellFormed h hs
  · split at h
    · cases h
      exact addValidatorToRegistry_wellFormed hs _ _ _
    · cases h
      exact hs

theorem applyDeposit_wellFormed (hs : s.RegistryWellFormed)
    (isValidDepositSignature : PendingDeposit → Bool) (publicKey : PublicKey)
    (withdrawalCredentials : B256) (amount : UInt64) (signature : Nat) :
    (s.applyDeposit isValidDepositSignature publicKey withdrawalCredentials amount
      signature).RegistryWellFormed := by
  unfold applyDeposit
  dsimp only
  split
  · exact hs.of_lengths rfl rfl rfl rfl rfl
  · split
    · exact (addValidatorToRegistry_wellFormed hs _ _ _).of_lengths rfl rfl rfl rfl rfl
    · exact hs

theorem pendingDepositStep_wellFormed {fuluForkEpoch nextEpoch finalizedSlot : Nat}
    {isValidDepositSignature : PendingDeposit → Bool} {availableForProcessing : UInt64}
    {acc acc' : PendingDepositsSweep} {deposit : PendingDeposit} {brk : Bool}
    (h : pendingDepositStep fuluForkEpoch isValidDepositSignature nextEpoch
      availableForProcessing finalizedSlot acc deposit = .ok (acc', brk))
    (hs : acc.state.RegistryWellFormed) : acc'.state.RegistryWellFormed := by
  rcases pendingDepositStep_ok h with
    ⟨-, rfl | ⟨rfl, -⟩⟩ | ⟨-, ⟨t, ht, rfl⟩ | rfl | ⟨t, ht, -, rfl⟩⟩
  · exact hs
  · exact hs
  · exact applyPendingDeposit_wellFormed ht hs
  · exact hs
  · exact applyPendingDeposit_wellFormed ht hs

theorem processPendingDeposits_wellFormed {fuluForkEpoch : Nat}
    {isValidDepositSignature : PendingDeposit → Bool}
    (h : s.processPendingDeposits fuluForkEpoch isValidDepositSignature = .ok t)
    (hs : s.RegistryWellFormed) : t.RegistryWellFormed := by
  unfold processPendingDeposits at h
  simp only [Except.bind_eq_ok, Except.pure_eq_ok] at h
  obtain ⟨acc, hloop, rfl⟩ := h
  unfold pendingDepositsLoop at hloop
  have hacc : acc.state.RegistryWellFormed :=
    Loop.breakLoop_spec (fun _ acc => acc.state.RegistryWellFormed)
      (fun acc => acc.state.RegistryWellFormed) _
      (fun _ _ _ _ hk hstep => pendingDepositStep_wellFormed hstep hk)
      (fun _ _ _ _ hk hstep => pendingDepositStep_wellFormed hstep hk)
      (fun _ hk => hk) _ _ hs hloop
  exact hacc.of_lengths rfl rfl rfl rfl rfl

theorem processWithdrawals_wellFormed {payloadWithdrawals : List Withdrawal}
    (h : s.processWithdrawals payloadWithdrawals = .ok t) (hs : s.RegistryWellFormed) :
    t.RegistryWellFormed := by
  unfold processWithdrawals at h
  simp only [Except.bind_eq_ok] at h
  obtain ⟨⟨ws, k⟩, -, h⟩ := h
  dsimp only at h
  split at h
  · cases h
  · simp only [Except.bind_eq_ok] at h
    obtain ⟨paid, hpaid, hcursors⟩ := h
    have hpaidWf : paid.RegistryWellFormed :=
      Loop.foldlM_invariant (fun t => t.RegistryWellFormed)
        (fun _ _ _ ht hstep => decreaseBalance_wellFormed hstep ht) hs hpaid
    rw [(paid.updateWithdrawalCursors_ok hcursors).1]
    exact hpaidWf.of_lengths rfl rfl rfl rfl rfl

/-! ## Exits and slashings -/

theorem computeExitEpochAndUpdateChurn_wellFormed {exitBalance : UInt64} {exitEpoch : Nat}
    (h : s.computeExitEpochAndUpdateChurn exitBalance = .ok (exitEpoch, t))
    (hs : s.RegistryWellFormed) : t.RegistryWellFormed := by
  unfold computeExitEpochAndUpdateChurn at h
  simp only [Except.bind_eq_ok, Except.pure_eq_ok, Prod.mk.injEq] at h
  obtain ⟨_, -, -, rfl⟩ := h
  exact hs.of_lengths rfl rfl rfl rfl rfl

theorem computeConsolidationEpochAndUpdateChurn_wellFormed {consolidationBalance : UInt64}
    {exitEpoch : Nat}
    (h : s.computeConsolidationEpochAndUpdateChurn consolidationBalance = .ok (exitEpoch, t))
    (hs : s.RegistryWellFormed) : t.RegistryWellFormed := by
  unfold computeConsolidationEpochAndUpdateChurn at h
  simp only [Except.bind_eq_ok, Except.pure_eq_ok, Prod.mk.injEq] at h
  obtain ⟨_, -, -, rfl⟩ := h
  exact hs.of_lengths rfl rfl rfl rfl rfl

theorem initiateValidatorExit_wellFormed {index : Nat} (h : s.initiateValidatorExit index = .ok t)
    (hs : s.RegistryWellFormed) : t.RegistryWellFormed := by
  unfold initiateValidatorExit at h
  cases hvalidator : s.validators[index]? with
  | none => simp [hvalidator] at h
  | some validator =>
    simp only [hvalidator] at h
    split at h
    · cases h
      exact hs
    · simp only [Except.bind_eq_ok] at h
      obtain ⟨⟨exitQueueEpoch, s'⟩, hchurn, h⟩ := h
      have hs' := computeExitEpochAndUpdateChurn_wellFormed hchurn hs
      dsimp only at h
      split at h
      · cases h
        exact hs'.modify_status index fun _ => ⟨rfl, rfl⟩
      · cases h

theorem initiateConsolidationExit_wellFormed {sourceIndex : Nat}
    (h : s.initiateConsolidationExit sourceIndex = .ok t) (hs : s.RegistryWellFormed) :
    t.RegistryWellFormed := by
  unfold initiateConsolidationExit at h
  cases hvalidator : s.validators[sourceIndex]? with
  | none => simp [hvalidator] at h
  | some sourceValidator =>
    simp only [hvalidator, Except.bind_eq_ok, Except.pure_eq_ok] at h
    obtain ⟨⟨exitEpoch, s'⟩, hchurn, rfl⟩ := h
    exact (computeConsolidationEpochAndUpdateChurn_wellFormed hchurn hs).modify_status
      sourceIndex fun _ => ⟨rfl, rfl⟩

theorem slashValidator_wellFormed {proposerIndex slashedIndex : Nat}
    {whistleblowerIndex : Option Nat}
    (h : s.slashValidator proposerIndex slashedIndex whistleblowerIndex = .ok t)
    (hs : s.RegistryWellFormed) : t.RegistryWellFormed := by
  unfold slashValidator at h
  simp only [Except.bind_eq_ok] at h
  obtain ⟨exited, hexit, h⟩ := h
  have hexited := initiateValidatorExit_wellFormed hexit hs
  cases hvalidator : exited.validators[slashedIndex]? with
  | none => simp [hvalidator] at h
  | some validator =>
    simp only [hvalidator, Except.bind_eq_ok] at h
    obtain ⟨penalized, hpenalty, rewarded, hproposer, hwhistleblower⟩ := h
    exact increaseBalance_wellFormed hwhistleblower (increaseBalance_wellFormed hproposer
      (decreaseBalance_wellFormed hpenalty (hexited.modify_status slashedIndex fun _ => ⟨rfl, rfl⟩)))

/-! ## Participation flags and credentials -/

theorem setEpochParticipation_wellFormed (hs : s.RegistryWellFormed) {isCurrentEpoch : Bool}
    {epochParticipation : List UInt8}
    (hlength : epochParticipation.length = (s.epochParticipation isCurrentEpoch).length) :
    (s.setEpochParticipation isCurrentEpoch epochParticipation).RegistryWellFormed := by
  cases isCurrentEpoch with
  | false => exact hs.of_lengths rfl rfl hlength rfl rfl
  | true => exact hs.of_lengths rfl rfl rfl hlength rfl

theorem participationFlagStep_wellFormed {isCurrentEpoch : Bool}
    {participationFlagIndices : List UInt8} {index flagIndex : Nat}
    (h : s.participationFlagStep isCurrentEpoch participationFlagIndices index flagIndex = .ok t)
    (hs : s.RegistryWellFormed) : t.RegistryWellFormed := by
  unfold participationFlagStep at h
  cases hpart : (s.epochParticipation isCurrentEpoch)[index]? with
  | none => simp [hpart] at h
  | some epochPart =>
    simp only [hpart] at h
    split at h
    · cases h
      exact setEpochParticipation_wellFormed hs (List.length_set ..)
    · cases h
      exact hs

theorem setParticipationFlags_wellFormed {isCurrentEpoch : Bool}
    {participationFlagIndices : List UInt8} {attestingIndices : List Nat}
    (h : s.setParticipationFlags isCurrentEpoch participationFlagIndices attestingIndices = .ok t)
    (hs : s.RegistryWellFormed) : t.RegistryWellFormed :=
  Loop.foldlM_invariant (fun t => t.RegistryWellFormed)
    (fun _ _ _ ht hattester => Loop.foldlM_invariant (fun t => t.RegistryWellFormed)
      (fun _ _ _ ht' hflag => participationFlagStep_wellFormed hflag ht') ht hattester) hs h

theorem validateBlsToExecutionChange_ok {checks : BlsChangeChecks}
    {signed : SignedBLSToExecutionChange}
    (h : s.validateBlsToExecutionChange checks signed = .ok ()) :
    ∃ validator, s.validators[signed.message.validatorIndex]? = some validator ∧
      credentialPrefix validator.withdrawalCredentials = BLS_WITHDRAWAL_PREFIX := by
  unfold validateBlsToExecutionChange at h
  cases hvalidator : s.validators[signed.message.validatorIndex]? with
  | none => simp [hvalidator] at h
  | some validator =>
    refine ⟨validator, rfl, ?_⟩
    by_contra hprefix
    simp [hvalidator, hprefix] at h

theorem processBlsToExecutionChange_wellFormed {checks : BlsChangeChecks}
    {signed : SignedBLSToExecutionChange}
    (h : s.processBlsToExecutionChange checks signed = .ok t) (hs : s.RegistryWellFormed) :
    t.RegistryWellFormed := by
  unfold processBlsToExecutionChange at h
  simp only [Except.bind_eq_ok, Except.pure_eq_ok] at h
  obtain ⟨⟨⟩, hvalid, rfl⟩ := h
  obtain ⟨validator, hvalidator, hbls⟩ := validateBlsToExecutionChange_ok hvalid
  refine hs.modify_validators _ fun v hv => ?_
  rw [hvalidator, Option.some_inj] at hv
  subst hv
  have hold : validator.getMaxEffectiveBalance = MIN_ACTIVATION_BALANCE :=
    Validator.getMaxEffectiveBalance_of_not_compounding (by rw [hbls]; decide)
  have hnew : ({ validator with
      withdrawalCredentials := credentialsFrom ETH1_ADDRESS_WITHDRAWAL_PREFIX
        (signed.message.toExecutionAddress % 2 ^ 160) } : Validator).getMaxEffectiveBalance =
      MIN_ACTIVATION_BALANCE :=
    Validator.getMaxEffectiveBalance_of_not_compounding
      (by rw [credentialPrefix_credentialsFrom (by decide)]; decide)
  exact (hs.effectiveBalance_valid validator (List.mem_of_getElem? hvalidator)).of_le_max rfl
    (by rw [hold, hnew]; exact UInt64.le_refl _)

theorem queueExcessActiveBalance_wellFormed {index : Nat}
    (h : s.queueExcessActiveBalance index = .ok t) (hs : s.RegistryWellFormed) :
    t.RegistryWellFormed := by
  unfold queueExcessActiveBalance at h
  cases hbalance : s.balances[index]? with
  | none => simp [hbalance] at h
  | some balance =>
    simp only [hbalance] at h
    split at h
    · cases hvalidator : s.validators[index]? with
      | none => simp [hvalidator] at h
      | some validator =>
        simp only [hvalidator, Except.pure_eq_ok] at h
        subst h
        exact hs.of_lengths rfl (List.length_set ..) rfl rfl rfl
    · cases h
      exact hs

theorem switchToCompoundingValidator_wellFormed {index : Nat}
    (h : s.switchToCompoundingValidator index = .ok t) (hs : s.RegistryWellFormed) :
    t.RegistryWellFormed := by
  unfold switchToCompoundingValidator at h
  split at h
  · cases h
  · refine queueExcessActiveBalance_wellFormed h (hs.modify_validators index fun v hv => ?_)
    have hnew : ({ v with
        withdrawalCredentials := credentialsFrom COMPOUNDING_WITHDRAWAL_PREFIX
          v.withdrawalCredentials.val } : Validator).getMaxEffectiveBalance =
        MAX_EFFECTIVE_BALANCE_ELECTRA :=
      Validator.getMaxEffectiveBalance_of_compounding (credentialPrefix_credentialsFrom (by decide) _)
    exact (hs.effectiveBalance_valid v (List.mem_of_getElem? hv)).of_le_max rfl
      (by rw [hnew]; exact v.getMaxEffectiveBalance_le)

/-! ## Epoch processing -/

theorem length_of_vecSet_eq_ok {α : Type} {v w : List α} {i : Nat} {x : α}
    (h : vecSet v i x = .ok w) : w.length = v.length := by
  unfold vecSet at h
  split at h
  · cases h
    exact List.length_set ..
  · cases h

theorem inactivityScoreStep_length {unslashedParticipatingIndices : List Nat}
    {isInInactivityLeak : Bool} {inactivityScores inactivityScores' : List UInt64} {index : Nat}
    (h : inactivityScoreStep unslashedParticipatingIndices isInInactivityLeak inactivityScores
      index = .ok inactivityScores') : inactivityScores'.length = inactivityScores.length := by
  unfold inactivityScoreStep at h
  simp only [Except.bind_eq_ok] at h
  obtain ⟨score, -, written, hwritten, h⟩ := h
  split at h
  · simp only [Except.bind_eq_ok] at h
    obtain ⟨_, -, hrecovered⟩ := h
    rw [length_of_vecSet_eq_ok hrecovered, length_of_vecSet_eq_ok hwritten]
  · rw [Except.pure_eq_ok] at h
    rw [← h, length_of_vecSet_eq_ok hwritten]

theorem processInactivityUpdates_wellFormed (h : s.processInactivityUpdates = .ok t)
    (hs : s.RegistryWellFormed) : t.RegistryWellFormed := by
  unfold processInactivityUpdates at h
  split at h
  · cases h
    exact hs
  · simp only [Except.bind_eq_ok, Except.pure_eq_ok] at h
    obtain ⟨_, -, inactivityScores, hscores, rfl⟩ := h
    have hlength : inactivityScores.length = s.inactivityScores.length :=
      Loop.foldlM_invariant (fun scores => scores.length = s.inactivityScores.length)
        (fun _ _ _ hk hstep => (inactivityScoreStep_length hstep).trans hk) rfl hscores
    exact hs.of_lengths rfl rfl rfl rfl hlength

theorem registryUpdate_keeps {currentEpoch activationEpoch finalizedCheckpointEpoch : Nat}
    {validator validator' : Validator} {eject : Bool}
    (h : registryUpdate currentEpoch activationEpoch finalizedCheckpointEpoch validator =
      .ok (validator', eject)) :
    validator'.effectiveBalance = validator.effectiveBalance ∧
      validator'.withdrawalCredentials = validator.withdrawalCredentials := by
  unfold registryUpdate at h
  split at h
  · split at h
    · cases h
      exact ⟨rfl, rfl⟩
    · cases h
  · split at h
    · cases h
      exact ⟨rfl, rfl⟩
    · split at h <;> (cases h; exact ⟨rfl, rfl⟩)

theorem processRegistryUpdates_wellFormed (h : s.processRegistryUpdates = .ok t)
    (hs : s.RegistryWellFormed) : t.RegistryWellFormed := by
  unfold processRegistryUpdates at h
  simp only [Except.bind_eq_ok] at h
  obtain ⟨updates, hupdates, h⟩ := h
  have hupdated : RegistryWellFormed { s with validators := updates.map Prod.fst } := by
    refine hs.set_validators (by rw [List.length_map, Loop.length_of_mapM_eq_ok hupdates])
      fun v hv => ?_
    obtain ⟨⟨v, eject⟩, hmem, rfl⟩ := List.mem_map.mp hv
    obtain ⟨validator, hvalidator, hstep⟩ := Loop.mem_of_mapM_eq_ok hupdates _ hmem
    obtain ⟨heffective, hcredentials⟩ := registryUpdate_keeps hstep
    exact (hs.effectiveBalance_valid validator hvalidator).of_status heffective hcredentials
  exact Loop.foldlM_invariant (fun t => t.RegistryWellFormed)
    (fun _ _ _ ht hexit => initiateValidatorExit_wellFormed hexit ht) hupdated h

theorem processEffectiveBalanceUpdates_wellFormed (h : s.processEffectiveBalanceUpdates = .ok t)
    (hs : s.RegistryWellFormed) : t.RegistryWellFormed := by
  unfold processEffectiveBalanceUpdates at h
  simp only [Except.bind_eq_ok, Except.pure_eq_ok] at h
  obtain ⟨validators, hvalidators, rfl⟩ := h
  refine hs.set_validators
    (by rw [Loop.length_of_mapM_eq_ok hvalidators, List.length_zipIdx]) fun v hv => ?_
  obtain ⟨⟨validator, index⟩, hmem, hstep⟩ := Loop.mem_of_mapM_eq_ok hvalidators v hv
  simp only [Except.bind_eq_ok, Except.pure_eq_ok] at hstep
  obtain ⟨balance, -, rfl⟩ := hstep
  exact effectiveBalanceUpdate_valid
    (hs.effectiveBalance_valid validator (List.fst_mem_of_mem_zipIdx hmem)) balance

theorem processParticipationFlagUpdates_wellFormed (hs : s.RegistryWellFormed) :
    s.processParticipationFlagUpdates.RegistryWellFormed where
  balances_length := hs.balances_length
  previousEpochParticipation_length := hs.currentEpochParticipation_length
  currentEpochParticipation_length := List.length_replicate ..
  inactivityScores_length := hs.inactivityScores_length
  effectiveBalance_valid := hs.effectiveBalance_valid

end BeaconState

/-! ## Runs -/

theorem RegistryCall.run_wellFormed (env : RegistryEnv) {s t : BeaconState} :
    ∀ call : RegistryCall, call.run env s = .ok t → s.RegistryWellFormed → t.RegistryWellFormed
  | .increaseBalance .., h, hs => BeaconState.increaseBalance_wellFormed h hs
  | .decreaseBalance .., h, hs => BeaconState.decreaseBalance_wellFormed h hs
  | .applyDeposit .., h, hs => by
    cases h
    exact BeaconState.applyDeposit_wellFormed hs ..
  | .processPendingDeposits, h, hs => BeaconState.processPendingDeposits_wellFormed h hs
  | .processWithdrawals _, h, hs => BeaconState.processWithdrawals_wellFormed h hs
  | .initiateValidatorExit _, h, hs => BeaconState.initiateValidatorExit_wellFormed h hs
  | .initiateConsolidationExit _, h, hs => BeaconState.initiateConsolidationExit_wellFormed h hs
  | .slashValidator .., h, hs => BeaconState.slashValidator_wellFormed h hs
  | .setParticipationFlags .., h, hs => BeaconState.setParticipationFlags_wellFormed h hs
  | .processBlsToExecutionChange _, h, hs =>
    BeaconState.processBlsToExecutionChange_wellFormed h hs
  | .switchToCompoundingValidator _, h, hs =>
    BeaconState.switchToCompoundingValidator_wellFormed h hs
  | .processInactivityUpdates, h, hs => BeaconState.processInactivityUpdates_wellFormed h hs
  | .processRegistryUpdates, h, hs => BeaconState.processRegistryUpdates_wellFormed h hs
  | .processEffectiveBalanceUpdates, h, hs =>
    BeaconState.processEffectiveBalanceUpdates_wellFormed h hs
  | .processParticipationFlagUpdates, h, hs => by
    cases h
    exact BeaconState.processParticipationFlagUpdates_wellFormed hs

/-- From a well-formed state, every state a successful run of the registry's writers reaches is
well formed: the five lists keep one entry per validator, and every effective balance stays a
whole number of increments within the maximum of the validator's current credentials. -/
theorem registry_stays_wellFormed (env : RegistryEnv) {genesis s : BeaconState}
    (hgenesis : genesis.RegistryWellFormed) (calls : List RegistryCall)
    (hrun : runRegistryCalls env calls genesis = .ok s) : s.RegistryWellFormed :=
  Loop.foldlM_invariant (fun s => s.RegistryWellFormed)
    (fun _ call _ hs hcall => call.run_wellFormed env hcall hs) hgenesis hrun

/-- Every signature verifies and every key hashes to zero. -/
def acceptingEnv : RegistryEnv := ⟨0, fun _ => true, ⟨fun _ => 0, fun _ => true⟩⟩

/-- A 40 ETH deposit for a new key with BLS credentials, the epoch's deposits and effective
balances, a change to an Eth1 address, a switch to compounding and the participation rotation. -/
def depositAndCompoundCalls : List RegistryCall :=
  [.applyDeposit 7 0 40000000000 0, .processPendingDeposits, .processEffectiveBalanceUpdates,
    .processBlsToExecutionChange ⟨⟨0, 7, 0xabc⟩, 0⟩, .switchToCompoundingValidator 0,
    .processParticipationFlagUpdates]

theorem depositAndCompound_wellFormed :
    ∃ s, runRegistryCalls acceptingEnv depositAndCompoundCalls emptyRegistry = .ok s ∧
      s.RegistryWellFormed :=
  ⟨_, rfl, @registry_stays_wellFormed acceptingEnv emptyRegistry _ (by decide)
    depositAndCompoundCalls rfl⟩

end Ream.Beacon.Electra
