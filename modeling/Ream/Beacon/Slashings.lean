import Ream.Beacon.ExitQueue

/-! Which validators the slashings slash: `slash_validator` writes one validator, so a successful
`process_attester_slashing` slashes exactly the slashable validators in both attestations, and
`process_slashings` takes at most a validator's effective balance. -/

namespace Ream.Beacon.Electra

namespace BeaconState

variable {s t : BeaconState}

/-- `initiate_validator_exit` rewrites the validator at its index only, and not its slashed
flag. -/
theorem initiateValidatorExit_validators {index : Nat} (h : s.initiateValidatorExit index = .ok t) :
    ∃ f : Validator → Validator, (∀ v, (f v).slashed = v.slashed) ∧
      t.validators = s.validators.modify index f := by
  rcases initiateValidatorExit_cases h with ⟨rfl, -⟩ |
    ⟨validator, exitQueueEpoch, s', -, -, hchurn, -, rfl⟩
  · exact ⟨id, fun _ => rfl, (List.modify_id _ _).symm⟩
  have hs' := computeExitEpochAndUpdateChurn_eq hchurn
  refine ⟨fun validator => { validator with
    exitEpoch := exitQueueEpoch
    withdrawableEpoch := exitQueueEpoch + MIN_VALIDATOR_WITHDRAWABILITY_DELAY }, fun _ => rfl, ?_⟩
  rw [hs']

theorem slashValidator_validators {proposerIndex slashedIndex : Nat}
    {whistleblowerIndex : Option Nat}
    (h : s.slashValidator proposerIndex slashedIndex whistleblowerIndex = .ok t) :
    ∃ f : Validator → Validator, (∀ v, (f v).slashed = true) ∧
      t.validators = s.validators.modify slashedIndex f := by
  unfold slashValidator at h
  obtain ⟨exited, hexit, h⟩ := Except.bind_eq_ok.mp h
  obtain ⟨f, -, hexited⟩ := initiateValidatorExit_validators hexit
  cases hvalidator : exited.validators[slashedIndex]? with
  | none => simp [hvalidator] at h
  | some validator =>
    simp only [hvalidator, Except.bind_eq_ok] at h
    obtain ⟨penalized, hpenalty, rewarded, hproposer, hwhistleblower⟩ := h
    obtain ⟨-, rfl⟩ := decreaseBalance_eq hpenalty
    obtain ⟨-, rfl⟩ := increaseBalance_eq hproposer
    obtain ⟨-, rfl⟩ := increaseBalance_eq hwhistleblower
    refine ⟨(fun validator => { validator with
      slashed := true
      withdrawableEpoch :=
        max validator.withdrawableEpoch (s.getCurrentEpoch + EPOCHS_PER_SLASHINGS_VECTOR) }) ∘ f,
      fun _ => rfl, ?_⟩
    dsimp only
    rw [hexited, List.modify_modify_eq]

end BeaconState

/-- A pass of the loop of `process_attester_slashing` rewrites the validator at its index only,
and leaves it slashed exactly when it was slashed or slashable. -/
theorem attesterSlashingStep_validators {beaconProposerIndex currentEpoch : Nat}
    {acc acc' : BeaconState × Bool} {index : Nat}
    (h : attesterSlashingStep beaconProposerIndex currentEpoch acc index = .ok acc') :
    ∃ v f, acc.1.validators[index]? = some v ∧ acc'.1.validators = acc.1.validators.modify index f ∧
      ((f v).slashed = true ↔ v.slashed = true ∨ v.isSlashableValidator currentEpoch = true) := by
  unfold attesterSlashingStep at h
  obtain ⟨validator, hread, h⟩ := Except.bind_eq_ok.mp h
  have hvalidator : acc.1.validators[index]? = some validator := by
    unfold vecIndex at hread
    split at hread
    · cases hread
      assumption
    · cases hread
  split at h
  case isTrue hslashable =>
    obtain ⟨t, hslash, h⟩ := Except.bind_eq_ok.mp h
    cases Except.pure_eq_ok.mp h
    obtain ⟨f, hf, ht⟩ := BeaconState.slashValidator_validators hslash
    exact ⟨validator, f, hvalidator, ht, by simp [hf, hslashable]⟩
  case isFalse hunslashable =>
    cases Except.pure_eq_ok.mp h
    exact ⟨validator, id, hvalidator, (List.modify_id _ _).symm, by simp [hunslashable]⟩

namespace BeaconState

variable {s t : BeaconState}

theorem getSlashableAttesterIndices_eq {checks : SignatureChecks}
    {attesterSlashing : AttesterSlashing} {indices1 indices2 : List Nat}
    (h : s.getSlashableAttesterIndices checks attesterSlashing = .ok (indices1, indices2)) :
    indices1 = attesterSlashing.attestation1.attestingIndices.dedup ∧
      indices2 = attesterSlashing.attestation2.attestingIndices.dedup := by
  unfold getSlashableAttesterIndices at h
  dsimp only at h
  split at h
  · obtain ⟨_, hthrow, -⟩ := Except.bind_eq_ok.mp h
    cases hthrow
  obtain ⟨valid1, -, h⟩ := Except.bind_eq_ok.mp h
  split at h
  · obtain ⟨_, hthrow, -⟩ := Except.bind_eq_ok.mp h
    cases hthrow
  obtain ⟨valid2, -, h⟩ := Except.bind_eq_ok.mp h
  split at h
  · obtain ⟨_, hthrow, -⟩ := Except.bind_eq_ok.mp h
    cases hthrow
  rw [Except.pure_eq_ok, Prod.mk.injEq] at h
  exact ⟨h.1.symm, h.2.symm⟩

/-- A successful `process_attester_slashing` leaves a validator slashed exactly when it was
slashed before, or it attests in both attestations and was slashable at the current epoch. -/
theorem processAttesterSlashing_slashes_exactly {checks : SignatureChecks}
    {beaconProposerIndex : Nat} {attesterSlashing : AttesterSlashing}
    (h : s.processAttesterSlashing checks beaconProposerIndex attesterSlashing = .ok t)
    {j : Nat} {v : Validator} (hv : s.validators[j]? = some v) :
    ∃ w, t.validators[j]? = some w ∧
      (w.slashed = true ↔ v.slashed = true ∨
        (j ∈ attesterSlashing.attestation1.attestingIndices ∧
          j ∈ attesterSlashing.attestation2.attestingIndices ∧
          v.isSlashableValidator s.getCurrentEpoch = true)) := by
  unfold processAttesterSlashing at h
  obtain ⟨⟨indices1, indices2⟩, hindices, h⟩ := Except.bind_eq_ok.mp h
  obtain ⟨⟨slashed, slashedAny⟩, hloop, h⟩ := Except.bind_eq_ok.mp h
  dsimp only at h
  split at h
  · cases h
  cases Except.pure_eq_ok.mp h
  obtain ⟨rfl, rfl⟩ := getSlashableAttesterIndices_eq hindices
  set common := ((attesterSlashing.attestation1.attestingIndices.dedup).filter
    (· ∈ attesterSlashing.attestation2.attestingIndices.dedup)).mergeSort with hcommon
  have hnodup : common.Nodup :=
    ((List.nodup_dedup _).filter _).perm (List.mergeSort_perm _ _).symm
  have hmem : j ∈ common ↔ j ∈ attesterSlashing.attestation1.attestingIndices ∧
      j ∈ attesterSlashing.attestation2.attestingIndices := by
    simp [hcommon, List.mem_mergeSort, List.mem_filter, List.mem_dedup]
  have hrun := Loop.foldlM_index_invariant (l := common)
    (fun (k : Nat) (acc : BeaconState × Bool) => ∀ j v, s.validators[j]? = some v → ∃ w,
      acc.1.validators[j]? = some w ∧ (j ∉ common.take k → w = v) ∧
        (w.slashed = true ↔ v.slashed = true ∨
          (j ∈ common.take k ∧ v.isSlashableValidator s.getCurrentEpoch = true)))
    (fun j v hv => ⟨v, hv, fun _ => rfl, by simp⟩) ?_ hloop
  · obtain ⟨w, hw, -, hslashed⟩ := hrun j v hv
    rw [List.take_length, hmem, and_assoc] at hslashed
    exact ⟨w, hw, hslashed⟩
  · intro k hk acc acc' hacc hstep j v hv
    obtain ⟨w, hw, hkept, hslashed⟩ := hacc j v hv
    obtain ⟨u, f, hu, hvalidators, hf⟩ := attesterSlashingStep_validators hstep
    have htake : j ∈ common.take (k + 1) ↔ j ∈ common.take k ∨ j = common[k] := by
      rw [List.take_add_one, List.getElem?_eq_getElem hk, Option.toList_some, List.mem_append,
        List.mem_singleton]
    rw [hvalidators]
    by_cases hj : j = common[k]
    · subst hj
      have hfresh := hkept (List.getElem_not_mem_take hnodup hk)
      rw [hw, Option.some_inj] at hu
      subst hu hfresh
      have hin : common[k] ∈ common.take (k + 1) := htake.mpr (.inr rfl)
      refine ⟨f w, by rw [List.getElem?_modify_eq, hw]; rfl, fun hnot => absurd hin hnot, ?_⟩
      rw [hf, eq_true hin, true_and]
    · have hiff : j ∈ common.take (k + 1) ↔ j ∈ common.take k := by
        rw [htake]
        exact or_iff_left hj
      refine ⟨w, by rw [List.getElem?_modify_ne _ _ (Ne.symm hj), hw],
        fun hnot => hkept fun hmem => hnot (hiff.mpr hmem), ?_⟩
      rw [hslashed, hiff]

end BeaconState

/-- An active validator of 32 ETH from genesis on. -/
def activeValidator (publicKey : Nat) : Validator :=
  ⟨publicKey, 0, 32000000000, false, 0, 0, FAR_FUTURE_EPOCH, FAR_FUTURE_EPOCH⟩

/-- Two active validators at genesis. -/
def pairState : BeaconState :=
  { emptyRegistry with
    validators := [activeValidator 0, activeValidator 1]
    balances := [32000000000, 32000000000]
    previousEpochParticipation := [0, 0]
    currentEpochParticipation := [0, 0]
    inactivityScores := [0, 0] }

/-- Validator 0 votes for two block roots at one target. -/
def doubleVote : AttesterSlashing :=
  ⟨⟨[0], ⟨0, 0, 0, ⟨0, 0⟩, ⟨0, 0⟩⟩, 0⟩, ⟨[0], ⟨0, 0, 1, ⟨0, 0⟩, ⟨0, 0⟩⟩, 0⟩⟩

/-- The double vote slashes validator 0, which attests in both and is slashable. -/
theorem doubleVote_slashes_exactly :
    ∃ t, pairState.processAttesterSlashing acceptingOperationsEnv.signatures 1 doubleVote = .ok t ∧
      ∃ w, t.validators[0]? = some w ∧
        (w.slashed = true ↔ (activeValidator 0).slashed = true ∨
          (0 ∈ doubleVote.attestation1.attestingIndices ∧
            0 ∈ doubleVote.attestation2.attestingIndices ∧
            (activeValidator 0).isSlashableValidator pairState.getCurrentEpoch = true)) := by
  have hindices : pairState.getSlashableAttesterIndices acceptingOperationsEnv.signatures doubleVote
      = .ok ([0], [0]) := rfl
  have hcommon : (([0] : List Nat).filter (· ∈ [0])).mergeSort = [0] := by simp
  obtain ⟨t, ht⟩ : ∃ t,
      pairState.processAttesterSlashing acceptingOperationsEnv.signatures 1 doubleVote = .ok t := by
    unfold BeaconState.processAttesterSlashing
    rw [hindices]
    simp only [bind, Except.bind, hcommon]
    exact ⟨_, rfl⟩
  exact ⟨t, ht, BeaconState.processAttesterSlashing_slashes_exactly ht rfl⟩

/-! ## The correlation penalty of `process_slashings` -/

namespace BeaconState

variable {s t : BeaconState}

/-- The effective balances of the active validators, summed as numbers. -/
def activeBalanceSum (s : BeaconState) : Nat :=
  ((s.getActiveValidatorIndices s.getCurrentEpoch).dedup.map fun index =>
    (s.validators.getD index ⟨0, 0, 0, false, 0, 0, 0, 0⟩).effectiveBalance.toNat).sum

/-- In a well-formed registry the active balance is a whole number of increments: every
effective balance is, and so is the empty validator `getD` falls back to. -/
theorem increment_dvd_activeBalanceSum (hs : s.RegistryWellFormed) :
    EFFECTIVE_BALANCE_INCREMENT.toNat ∣ s.activeBalanceSum := by
  refine List.dvd_sum fun x hx => ?_
  obtain ⟨index, -, rfl⟩ := List.mem_map.mp hx
  rw [List.getD_eq_getElem?_getD]
  cases hvalidator : s.validators[index]? with
  | none => exact dvd_zero _
  | some validator =>
    have hvalid := (hs.effectiveBalance_valid validator (List.mem_of_getElem? hvalidator)).1
    rw [Option.getD_some]
    exact Nat.dvd_of_mod_eq_zero (by rw [← UInt64.toNat_mod, hvalid]; rfl)

theorem toNat_getTotalActiveBalance (hfit : s.activeBalanceSum < 2 ^ 64) :
    s.getTotalActiveBalance.toNat = max EFFECTIVE_BALANCE_INCREMENT.toNat s.activeBalanceSum := by
  unfold getTotalActiveBalance
  rw [UInt64.toNat_max, toNat_sum, List.map_map, ← Nat.mod_eq_of_lt hfit]
  rfl

theorem decreaseBalance_getElem?_of_ne {index j : Nat} {delta : UInt64}
    (h : s.decreaseBalance index delta = .ok t) (hj : j ≠ index) :
    t.balances[j]? = s.balances[j]? := by
  obtain ⟨-, rfl⟩ := decreaseBalance_eq h
  exact List.getElem?_modify_ne _ _ (Ne.symm hj)

theorem decreaseBalance_bounds {index : Nat} {delta balance : UInt64}
    (h : s.decreaseBalance index delta = .ok t) (hbalance : s.balances[index]? = some balance) :
    ∃ balance', t.balances[index]? = some balance' ∧ balance'.toNat ≤ balance.toNat ∧
      balance.toNat ≤ balance'.toNat + delta.toNat := by
  obtain ⟨-, rfl⟩ := decreaseBalance_eq h
  refine ⟨_, by rw [List.getElem?_modify_eq, hbalance]; rfl, ?_⟩
  dsimp only
  split
  case isTrue hle =>
    rw [UInt64.toNat_sub_of_le _ _ hle]
    have := UInt64.le_iff_toNat_le.mp hle
    omega
  case isFalse hgt =>
    have := UInt64.lt_iff_toNat_lt.mp (UInt64.not_le.mp hgt)
    simp only [UInt64.toNat_zero]
    omega

/-- With the active balance a whole number of increments within a `u64`, the penalty per
increment is at most one increment. -/
theorem penaltyPerIncrement_le (hs : s.RegistryWellFormed) (hfit : s.activeBalanceSum < 2 ^ 64)
    (x : UInt64) :
    (min x s.getTotalActiveBalance / (s.getTotalActiveBalance / EFFECTIVE_BALANCE_INCREMENT)).toNat ≤
      EFFECTIVE_BALANCE_INCREMENT.toNat := by
  obtain ⟨m, hm⟩ := increment_dvd_activeBalanceSum hs
  have htotal := toNat_getTotalActiveBalance hfit
  have hmin : (min x s.getTotalActiveBalance).toNat ≤ s.getTotalActiveBalance.toNat := by
    simp [UInt64.toNat_min]
  have hincrement : 0 < EFFECTIVE_BALANCE_INCREMENT.toNat := by decide
  rw [UInt64.toNat_div, UInt64.toNat_div]
  rcases Nat.eq_zero_or_pos m with rfl | hpos
  · rw [hm, Nat.mul_zero, Nat.max_eq_left (Nat.zero_le _)] at htotal
    rw [htotal] at hmin ⊢
    rw [Nat.div_self hincrement, Nat.div_one]
    exact hmin
  · rw [hm, max_eq_right (Nat.le_mul_of_pos_right _ hpos)] at htotal
    rw [htotal] at hmin ⊢
    rw [Nat.mul_div_cancel_left _ hincrement]
    exact Nat.div_le_of_le_mul (by rw [Nat.mul_comm]; exact hmin)

theorem penalty_le_effectiveBalance {penaltyPerEffectiveBalanceIncrement effectiveBalance : UInt64}
    (hpenalty : penaltyPerEffectiveBalanceIncrement.toNat ≤ EFFECTIVE_BALANCE_INCREMENT.toNat)
    (hvalid : effectiveBalance % EFFECTIVE_BALANCE_INCREMENT = 0) :
    (penaltyPerEffectiveBalanceIncrement *
      (effectiveBalance / EFFECTIVE_BALANCE_INCREMENT)).toNat ≤ effectiveBalance.toNat := by
  have hdvd : EFFECTIVE_BALANCE_INCREMENT.toNat ∣ effectiveBalance.toNat :=
    Nat.dvd_of_mod_eq_zero (by rw [← UInt64.toNat_mod, hvalid]; rfl)
  rw [UInt64.toNat_mul, UInt64.toNat_div]
  calc penaltyPerEffectiveBalanceIncrement.toNat *
        (effectiveBalance.toNat / EFFECTIVE_BALANCE_INCREMENT.toNat) % 2 ^ 64
      ≤ penaltyPerEffectiveBalanceIncrement.toNat *
        (effectiveBalance.toNat / EFFECTIVE_BALANCE_INCREMENT.toNat) := Nat.mod_le _ _
    _ ≤ EFFECTIVE_BALANCE_INCREMENT.toNat *
        (effectiveBalance.toNat / EFFECTIVE_BALANCE_INCREMENT.toNat) := Nat.mul_le_mul_right _ hpenalty
    _ = effectiveBalance.toNat := Nat.mul_div_cancel' hdvd

/-- `process_slashings` takes at most a validator's effective balance from its balance, and
takes anything only from a validator slashed half a slashings vector before its withdrawable
epoch, as long as the active effective balances sum within a `u64`. -/
theorem processSlashings_penalty_le_effectiveBalance {slashings : List UInt64}
    (h : s.processSlashings slashings = .ok t) (hs : s.RegistryWellFormed)
    (hfit : s.activeBalanceSum < 2 ^ 64) {index : Nat} {validator : Validator} {balance : UInt64}
    (hvalidator : s.validators[index]? = some validator)
    (hbalance : s.balances[index]? = some balance) :
    ∃ balance', t.balances[index]? = some balance' ∧ balance'.toNat ≤ balance.toNat ∧
      balance.toNat ≤ balance'.toNat + validator.effectiveBalance.toNat ∧
      (balance' ≠ balance → validator.slashed = true ∧
        s.getCurrentEpoch + EPOCHS_PER_SLASHINGS_VECTOR / 2 = validator.withdrawableEpoch) := by
  unfold processSlashings at h
  have hppi := penaltyPerIncrement_le hs hfit
    (slashings.sum * PROPORTIONAL_SLASHING_MULTIPLIER_BELLATRIX)
  have hrun := Loop.foldlM_index_invariant (l := List.range s.validators.length)
    (fun (k : Nat) (acc : BeaconState) => acc.validators = s.validators ∧
      ∀ j v b, s.validators[j]? = some v → s.balances[j]? = some b → ∃ b',
        acc.balances[j]? = some b' ∧ (k ≤ j → b' = b) ∧ b'.toNat ≤ b.toNat ∧
        b.toNat ≤ b'.toNat + v.effectiveBalance.toNat ∧
        (b' ≠ b → v.slashed = true ∧
          s.getCurrentEpoch + EPOCHS_PER_SLASHINGS_VECTOR / 2 = v.withdrawableEpoch))
    ⟨rfl, fun j v b _ hb => ⟨b, hb, fun _ => rfl, le_rfl, Nat.le_add_right _ _,
      fun hne => absurd rfl hne⟩⟩ ?_ h
  · obtain ⟨-, hbalances⟩ := hrun
    obtain ⟨b', hb', -, hle, hge, hdue⟩ := hbalances index validator balance hvalidator hbalance
    exact ⟨b', hb', hle, hge, hdue⟩
  · rintro k hk acc acc' ⟨hvalidators, hbalances⟩ hstep
    rw [List.getElem_range] at hstep
    obtain ⟨u, hu, ⟨hslashed, hepoch, hdecrease⟩ | ⟨-, rfl⟩⟩ := slashingsStep_cases hstep
    · obtain ⟨-, hacc'⟩ := decreaseBalance_eq hdecrease
      refine ⟨by rw [hacc']; exact hvalidators, fun j v b hv hb => ?_⟩
      obtain ⟨b', hb', hfrom, hle, hge, hdue⟩ := hbalances j v b hv hb
      by_cases hj : j = k
      · subst hj
        rw [hvalidators, hv, Option.some_inj] at hu
        subst hu
        obtain rfl := hfrom le_rfl
        obtain ⟨b'', hb'', hle'', hge''⟩ := decreaseBalance_bounds hdecrease hb'
        have hpenalty := penalty_le_effectiveBalance hppi
          (hs.effectiveBalance_valid v (List.mem_of_getElem? hv)).1
        exact ⟨b'', hb'', fun hlt => absurd hlt (by omega), hle'', by omega,
          fun _ => ⟨hslashed, hepoch⟩⟩
      · exact ⟨b', by rw [decreaseBalance_getElem?_of_ne hdecrease hj, hb'],
          fun hkj => hfrom (by omega), hle, hge, hdue⟩
    · exact ⟨hvalidators, fun j v b hv hb => by
        obtain ⟨b', hb', hfrom, hrest⟩ := hbalances j v b hv hb
        exact ⟨b', hb', fun hkj => hfrom (by omega), hrest⟩⟩

end BeaconState

/-- A validator slashed at genesis, withdrawable half a slashings vector later. -/
def slashedValidator : Validator := ⟨0, 0, 32000000000, true, 0, 0, 0, 4096⟩

/-- At genesis, the slashed validator and one active validator, both of 32 ETH. -/
def slashingState : BeaconState :=
  { emptyRegistry with
    validators := [slashedValidator, ⟨1, 0, 32000000000, false, 0, 0, FAR_FUTURE_EPOCH,
      FAR_FUTURE_EPOCH⟩]
    balances := [32000000000, 32000000000]
    previousEpochParticipation := [0, 0]
    currentEpochParticipation := [0, 0]
    inactivityScores := [0, 0] }

/-- With 32 ETH slashed, three times that is above the 32 ETH active, so the slashed validator
pays its whole effective balance, and no more. -/
theorem slashedValidator_penalty_le_effectiveBalance :
    ∃ t, slashingState.processSlashings [32000000000] = .ok t ∧
      ∃ balance', t.balances[0]? = some balance' ∧
        balance'.toNat ≤ (32000000000 : UInt64).toNat ∧
        (32000000000 : UInt64).toNat ≤ balance'.toNat + slashedValidator.effectiveBalance.toNat ∧
        (balance' ≠ 32000000000 → slashedValidator.slashed = true ∧
          slashingState.getCurrentEpoch + EPOCHS_PER_SLASHINGS_VECTOR / 2 =
            slashedValidator.withdrawableEpoch) := by
  obtain ⟨t, ht⟩ : ∃ t, slashingState.processSlashings [32000000000] = .ok t := ⟨_, rfl⟩
  exact ⟨t, ht, BeaconState.processSlashings_penalty_le_effectiveBalance ht (by decide)
    (by decide) rfl rfl⟩

end Ream.Beacon.Electra
