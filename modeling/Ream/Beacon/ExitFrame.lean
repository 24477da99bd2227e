import Ream.Beacon.Operations
import Ream.Beacon.RegistryInvariant

/-! What each writer does to the validators' exits: `ExitsScheduled` (the slot does not go back,
the registry does not shrink, initiated exits and slashed flags stay) and `ExitFrame` (that, with
ordered exits kept ordered and the partial withdrawal queue left alone). Both compose. -/

namespace Ream.Beacon.Electra

open Ream.Consensus (B256)

namespace Validator

/-- The fields of a validator its exit consists of. -/
def exitStatus (v : Validator) : Bool × Nat × Nat := (v.slashed, v.exitEpoch, v.withdrawableEpoch)

/-- What the entry points keep of a validator's exit: a slashed validator's exit is initiated,
and a validator whose exit is initiated becomes withdrawable no sooner than
`MIN_VALIDATOR_WITHDRAWABILITY_DELAY` epochs after it, where that sum fits in a `u64`. -/
structure ExitOrdered (v : Validator) : Prop where
  exited_of_slashed : v.slashed = true → v.exitEpoch ≠ FAR_FUTURE_EPOCH
  delay_le : v.exitEpoch ≠ FAR_FUTURE_EPOCH → v.exitEpoch + MIN_VALIDATOR_WITHDRAWABILITY_DELAY < 2 ^ 64 →
    v.exitEpoch + MIN_VALIDATOR_WITHDRAWABILITY_DELAY ≤ v.withdrawableEpoch

instance instDecidableExitOrdered (v : Validator) : Decidable v.ExitOrdered :=
  decidable_of_iff ((v.slashed = true → v.exitEpoch ≠ FAR_FUTURE_EPOCH) ∧
      (v.exitEpoch ≠ FAR_FUTURE_EPOCH → v.exitEpoch + MIN_VALIDATOR_WITHDRAWABILITY_DELAY < 2 ^ 64 →
        v.exitEpoch + MIN_VALIDATOR_WITHDRAWABILITY_DELAY ≤ v.withdrawableEpoch))
    ⟨fun ⟨h₁, h₂⟩ => ⟨h₁, h₂⟩, fun h => ⟨h.1, h.2⟩⟩

variable {v w : Validator}

theorem ExitOrdered.of_exitStatus (h : v.ExitOrdered) (hw : w.exitStatus = v.exitStatus) :
    w.ExitOrdered := by
  simp only [exitStatus, Prod.mk.injEq] at hw
  obtain ⟨hslashed, hexit, hwithdrawable⟩ := hw
  exact ⟨fun hs => hexit ▸ h.exited_of_slashed (hslashed ▸ hs),
    fun he hfit => hexit ▸ hwithdrawable ▸ h.delay_le (hexit ▸ he) (hexit ▸ hfit)⟩

theorem exitOrdered_of_exit {exitEpoch : Nat} (he : exitEpoch ≠ FAR_FUTURE_EPOCH) :
    ({ v with
      exitEpoch
      withdrawableEpoch := exitEpoch + MIN_VALIDATOR_WITHDRAWABILITY_DELAY } : Validator).ExitOrdered :=
  ⟨fun _ => he, fun _ _ => le_rfl⟩

theorem exitOrdered_of_unslashed (hs : v.slashed = false) (exitEpoch : Nat) :
    ({ v with
      exitEpoch
      withdrawableEpoch := (exitEpoch + MIN_VALIDATOR_WITHDRAWABILITY_DELAY) % 2 ^ 64 } :
        Validator).ExitOrdered :=
  ⟨fun h => absurd (hs ▸ h : false = true) Bool.false_ne_true,
    fun _ hfit => (Nat.mod_eq_of_lt hfit).ge⟩

theorem ExitOrdered.slash (h : v.ExitOrdered) (he : v.exitEpoch ≠ FAR_FUTURE_EPOCH) (epoch : Nat) :
    ({ v with
      slashed := true
      withdrawableEpoch := max v.withdrawableEpoch epoch } : Validator).ExitOrdered :=
  ⟨fun _ => he, fun _ hfit => (h.delay_le he hfit).trans (le_max_left _ _)⟩

theorem ExitOrdered.unslashed (h : v.ExitOrdered) (he : v.exitEpoch = FAR_FUTURE_EPOCH) :
    v.slashed = false :=
  Bool.eq_false_iff.mpr fun hs => h.exited_of_slashed hs he

end Validator

theorem getValidatorFromDeposit_exitOrdered (publicKey : PublicKey) (withdrawalCredentials : B256)
    (amount : UInt64) : (getValidatorFromDeposit publicKey withdrawalCredentials amount).ExitOrdered :=
  ⟨fun h => absurd h Bool.false_ne_true, fun h => absurd rfl h⟩

namespace BeaconState

/-- What every entry point does to the slot and the validators' exits. -/
structure ExitsScheduled (s t : BeaconState) : Prop where
  slot_le : s.slot ≤ t.slot
  length_le : s.validators.length ≤ t.validators.length
  exit_kept : ∀ (i : Nat) (v : Validator), s.validators[i]? = some v →
    v.exitEpoch ≠ FAR_FUTURE_EPOCH → ∃ w, t.validators[i]? = some w ∧ w.exitEpoch = v.exitEpoch
  slashed_kept : ∀ (i : Nat) (v : Validator), s.validators[i]? = some v → v.slashed = true →
    ∃ w, t.validators[i]? = some w ∧ w.slashed = true

namespace ExitsScheduled

variable {s t u : BeaconState}

theorem refl (s : BeaconState) : ExitsScheduled s s where
  slot_le := le_rfl
  length_le := le_rfl
  exit_kept _ v hv _ := ⟨v, hv, rfl⟩
  slashed_kept _ v hv hs := ⟨v, hv, hs⟩

theorem trans (h : ExitsScheduled s t) (h' : ExitsScheduled t u) : ExitsScheduled s u where
  slot_le := h.slot_le.trans h'.slot_le
  length_le := h.length_le.trans h'.length_le
  exit_kept i v hv he := by
    obtain ⟨w, hw, hwe⟩ := h.exit_kept i v hv he
    obtain ⟨x, hx, hxe⟩ := h'.exit_kept i w hw (hwe ▸ he)
    exact ⟨x, hx, hxe.trans hwe⟩
  slashed_kept i v hv hs := by
    obtain ⟨w, hw, hws⟩ := h.slashed_kept i v hv hs
    exact h'.slashed_kept i w hw hws

theorem of_eq (hv : t.validators = s.validators) (hslot : s.slot ≤ t.slot) : ExitsScheduled s t where
  slot_le := hslot
  length_le := by rw [hv]
  exit_kept _ v hv' _ := ⟨v, by rw [hv]; exact hv', rfl⟩
  slashed_kept _ v hv' hs := ⟨v, by rw [hv]; exact hv', hs⟩

theorem modify (index : Nat) {f : Validator → Validator}
    (hkept : ∀ v, s.validators[index]? = some v → v.exitEpoch ≠ FAR_FUTURE_EPOCH →
      (f v).exitEpoch = v.exitEpoch)
    (hslashed : ∀ v, s.validators[index]? = some v → v.slashed = true → (f v).slashed = true) :
    ExitsScheduled s { s with validators := s.validators.modify index f } where
  slot_le := le_rfl
  length_le := (List.length_modify ..).ge
  exit_kept i v hv he := by
    refine ⟨_, List.getElem?_modify_of_eq_some hv, ?_⟩
    split
    · subst i
      exact hkept v hv he
    · rfl
  slashed_kept i v hv hs := by
    refine ⟨_, List.getElem?_modify_of_eq_some hv, ?_⟩
    split
    · subst i
      exact hslashed v hv hs
    · exact hs

/-- A new registry of the same length, each validator with the exit status of the one it
replaces. -/
theorem set_validators_status {validators : List Validator}
    (hlength : validators.length = s.validators.length)
    (hpos : ∀ (i : Nat) (v w : Validator), s.validators[i]? = some v → validators[i]? = some w →
      w.exitStatus = v.exitStatus) :
    ExitsScheduled s { s with validators } where
  slot_le := le_rfl
  length_le := hlength.ge
  exit_kept i v hv _ := by
    have hi : i < validators.length := hlength ▸ (List.getElem?_eq_some_iff.mp hv).1
    have hw := List.getElem?_eq_getElem hi
    exact ⟨_, hw, congrArg (·.2.1) (hpos i v _ hv hw)⟩
  slashed_kept i v hv hs := by
    have hi : i < validators.length := hlength ▸ (List.getElem?_eq_some_iff.mp hv).1
    have hw := List.getElem?_eq_getElem hi
    exact ⟨_, hw, (congrArg (·.1) (hpos i v _ hv hw)).trans hs⟩

theorem push (ht : t.validators = s.validators ++ [v]) (hslot : t.slot = s.slot) :
    ExitsScheduled s t where
  slot_le := hslot.ge
  length_le := by simp [ht]
  exit_kept i x hx _ := ⟨x, by rw [ht, List.getElem?_append_left
    (List.getElem?_eq_some_iff.mp hx).1]; exact hx, rfl⟩
  slashed_kept i x hx hs := ⟨x, by rw [ht, List.getElem?_append_left
    (List.getElem?_eq_some_iff.mp hx).1]; exact hx, hs⟩

end ExitsScheduled

/-- Every validator's exit is ordered. -/
def ExitsOrdered (s : BeaconState) : Prop := ∀ v ∈ s.validators, v.ExitOrdered

instance instDecidableExitsOrdered (s : BeaconState) : Decidable s.ExitsOrdered :=
  inferInstanceAs (Decidable (∀ v ∈ s.validators, v.ExitOrdered))

/-- What a writer that leaves the partial withdrawal queue alone does to the exit data. -/
structure ExitFrame (s t : BeaconState) : Prop where
  scheduled : ExitsScheduled s t
  exits : s.ExitsOrdered → t.ExitsOrdered
  partials : t.pendingPartialWithdrawals = s.pendingPartialWithdrawals

namespace ExitFrame

variable {s t u : BeaconState}

theorem length_le (h : ExitFrame s t) : s.validators.length ≤ t.validators.length :=
  h.scheduled.length_le

theorem refl (s : BeaconState) : ExitFrame s s := ⟨ExitsScheduled.refl s, id, rfl⟩

theorem trans (h : ExitFrame s t) (h' : ExitFrame t u) : ExitFrame s u where
  scheduled := h.scheduled.trans h'.scheduled
  exits := h'.exits ∘ h.exits
  partials := h'.partials.trans h.partials

theorem of_eq (hv : t.validators = s.validators) (hslot : s.slot ≤ t.slot)
    (hp : t.pendingPartialWithdrawals = s.pendingPartialWithdrawals) : ExitFrame s t where
  scheduled := ExitsScheduled.of_eq hv hslot
  exits hs v hmem := hs v (hv ▸ hmem)
  partials := hp

theorem modify (index : Nat) {f : Validator → Validator}
    (hf : ∀ v, s.validators[index]? = some v → v.ExitOrdered → (f v).ExitOrdered)
    (hscheduled : ExitsScheduled s { s with validators := s.validators.modify index f }) :
    ExitFrame s { s with validators := s.validators.modify index f } where
  scheduled := hscheduled
  exits hs := List.forall_mem_modify hs fun v hv => hf v hv (hs v (List.mem_of_getElem? hv))
  partials := rfl

theorem modify_status (index : Nat) {f : Validator → Validator}
    (hf : ∀ v, (f v).exitStatus = v.exitStatus) :
    ExitFrame s { s with validators := s.validators.modify index f } :=
  modify index (fun v _ hv => hv.of_exitStatus (hf v))
    (ExitsScheduled.modify index (fun v _ _ => congrArg (·.2.1) (hf v))
      (fun v _ hs => (congrArg (·.1) (hf v)).trans hs))

/-- A new registry of the same length, each validator with the exit status of the one it
replaces. -/
theorem set_validators_status {validators : List Validator}
    (hlength : validators.length = s.validators.length)
    (hpos : ∀ (i : Nat) (v w : Validator), s.validators[i]? = some v → validators[i]? = some w →
      w.exitStatus = v.exitStatus) :
    ExitFrame s { s with validators } where
  scheduled := ExitsScheduled.set_validators_status hlength hpos
  exits hs w hw := by
    obtain ⟨i, hi⟩ := List.mem_iff_getElem?.mp hw
    have hlt : i < s.validators.length := hlength ▸ (List.getElem?_eq_some_iff.mp hi).1
    exact (hs _ (List.getElem_mem hlt)).of_exitStatus
      (hpos i _ w (List.getElem?_eq_getElem hlt) (by exact hi))
  partials := rfl

end ExitFrame

variable {s t : BeaconState}

/-! ## Balances and the churn -/

/-- The smaller of two `u64`s is at most the first; `u64` has no linear order instance to take
this from. -/
theorem min_le_first (a b : UInt64) : min a b ≤ a := by
  rw [UInt64.le_iff_toNat_le]
  simp [UInt64.toNat_min]

theorem increaseBalance_exitFrame {index : Nat} {delta : UInt64}
    (h : s.increaseBalance index delta = .ok t) : ExitFrame s t := by
  obtain ⟨-, rfl⟩ := increaseBalance_eq h
  exact ExitFrame.of_eq rfl le_rfl rfl

theorem decreaseBalance_exitFrame {index : Nat} {delta : UInt64}
    (h : s.decreaseBalance index delta = .ok t) : ExitFrame s t := by
  obtain ⟨-, rfl⟩ := decreaseBalance_eq h
  exact ExitFrame.of_eq rfl le_rfl rfl

theorem computeExitEpochAndUpdateChurn_eq {exitBalance : UInt64} {exitEpoch : Nat}
    (h : s.computeExitEpochAndUpdateChurn exitBalance = .ok (exitEpoch, t)) :
    t = { s with exitBalanceToConsume := t.exitBalanceToConsume, earliestExitEpoch := exitEpoch } := by
  unfold computeExitEpochAndUpdateChurn at h
  obtain ⟨⟨e, left⟩, -, h⟩ := Except.bind_eq_ok.mp h
  rw [Except.pure_eq_ok, Prod.mk.injEq] at h
  obtain ⟨rfl, rfl⟩ := h
  rfl

theorem computeConsolidationEpochAndUpdateChurn_eq {consolidationBalance : UInt64} {exitEpoch : Nat}
    (h : s.computeConsolidationEpochAndUpdateChurn consolidationBalance = .ok (exitEpoch, t)) :
    t = { s with
      consolidationBalanceToConsume := t.consolidationBalanceToConsume
      earliestConsolidationEpoch := exitEpoch } := by
  unfold computeConsolidationEpochAndUpdateChurn at h
  obtain ⟨⟨e, left⟩, -, h⟩ := Except.bind_eq_ok.mp h
  rw [Except.pure_eq_ok, Prod.mk.injEq] at h
  obtain ⟨rfl, rfl⟩ := h
  rfl

theorem computeExitEpochAndUpdateChurn_exitFrame {exitBalance : UInt64} {exitEpoch : Nat}
    (h : s.computeExitEpochAndUpdateChurn exitBalance = .ok (exitEpoch, t)) : ExitFrame s t := by
  rw [computeExitEpochAndUpdateChurn_eq h]
  exact ExitFrame.of_eq rfl le_rfl rfl

/-! ## Exits and slashings -/

/-- What `initiate_validator_exit` can do: nothing, to a validator whose exit is initiated, or
move the exit queue and write the validator's exit at the epoch it returns, whose withdrawable
epoch fits in 64 bits. -/
theorem initiateValidatorExit_cases {index : Nat} (h : s.initiateValidatorExit index = .ok t) :
    (t = s ∧ ∃ validator, s.validators[index]? = some validator ∧
      validator.exitEpoch ≠ FAR_FUTURE_EPOCH) ∨
    ∃ validator exitQueueEpoch s', s.validators[index]? = some validator ∧
      validator.exitEpoch = FAR_FUTURE_EPOCH ∧
      s.computeExitEpochAndUpdateChurn validator.effectiveBalance = .ok (exitQueueEpoch, s') ∧
      exitQueueEpoch + MIN_VALIDATOR_WITHDRAWABILITY_DELAY < 2 ^ 64 ∧
      t = { s' with validators := s'.validators.modify index fun validator => { validator with
        exitEpoch := exitQueueEpoch
        withdrawableEpoch := exitQueueEpoch + MIN_VALIDATOR_WITHDRAWABILITY_DELAY } } := by
  unfold initiateValidatorExit at h
  cases hvalidator : s.validators[index]? with
  | none => simp [hvalidator] at h
  | some validator =>
    simp only [hvalidator] at h
    split at h
    case isTrue hexited =>
      cases h
      exact .inl ⟨rfl, validator, rfl, hexited⟩
    case isFalse hfar =>
    obtain ⟨⟨exitQueueEpoch, s'⟩, hchurn, h⟩ := Except.bind_eq_ok.mp h
    dsimp only at h
    split at h
    case isFalse => cases h
    case isTrue hfits =>
    cases h
    exact .inr ⟨validator, exitQueueEpoch, s', rfl, not_not.mp hfar, hchurn, hfits, rfl⟩

theorem initiateValidatorExit_eq {index : Nat} (h : s.initiateValidatorExit index = .ok t) :
    ExitFrame s t ∧ ∀ v, t.validators[index]? = some v → v.exitEpoch ≠ FAR_FUTURE_EPOCH := by
  rcases initiateValidatorExit_cases h with ⟨rfl, validator, hvalidator, hexited⟩ |
    ⟨validator, exitQueueEpoch, s', hvalidator, hfar, hchurn, hfits, rfl⟩
  · refine ⟨ExitFrame.refl _, fun v hv => ?_⟩
    rw [hvalidator, Option.some_inj] at hv
    exact hv ▸ hexited
  have hvalidators : s'.validators = s.validators := by rw [computeExitEpochAndUpdateChurn_eq hchurn]
  have hexit : exitQueueEpoch ≠ FAR_FUTURE_EPOCH := by
    unfold FAR_FUTURE_EPOCH
    unfold MIN_VALIDATOR_WITHDRAWABILITY_DELAY at hfits
    omega
  have hread : ∀ v, s'.validators[index]? = some v → v = validator := by
    intro v hv
    rw [hvalidators, hvalidator, Option.some_inj] at hv
    exact hv.symm
  have hscheduled := ExitsScheduled.modify (s := s') index
    (f := fun validator => { validator with
      exitEpoch := exitQueueEpoch
      withdrawableEpoch := exitQueueEpoch + MIN_VALIDATOR_WITHDRAWABILITY_DELAY })
    (fun v hv he => absurd (hread v hv ▸ hfar) he) (fun _ _ hs => hs)
  refine ⟨(computeExitEpochAndUpdateChurn_exitFrame hchurn).trans
    (ExitFrame.modify index (fun v _ _ => Validator.exitOrdered_of_exit hexit) hscheduled),
    fun v hv => ?_⟩
  obtain ⟨_, -, rfl⟩ := List.getElem?_modify_eq_some hv
  rw [if_pos rfl]
  exact hexit

theorem initiateValidatorExit_exitFrame {index : Nat} (h : s.initiateValidatorExit index = .ok t) :
    ExitFrame s t :=
  (initiateValidatorExit_eq h).1

theorem initiateConsolidationExit_exitFrame {sourceIndex : Nat}
    (h : s.initiateConsolidationExit sourceIndex = .ok t)
    (hsource : ∀ v, s.validators[sourceIndex]? = some v → v.exitEpoch = FAR_FUTURE_EPOCH) :
    ExitFrame s t := by
  unfold initiateConsolidationExit at h
  cases hvalidator : s.validators[sourceIndex]? with
  | none => simp [hvalidator] at h
  | some sourceValidator =>
    simp only [hvalidator, Except.bind_eq_ok, Except.pure_eq_ok] at h
    obtain ⟨⟨exitEpoch, s'⟩, hchurn, rfl⟩ := h
    have hs' := computeConsolidationEpochAndUpdateChurn_eq hchurn
    have hvalidators : s'.validators = s.validators := by rw [hs']
    have hframe : ExitFrame s s' := by
      rw [hs']
      exact ExitFrame.of_eq rfl le_rfl rfl
    have hscheduled := ExitsScheduled.modify (s := s') sourceIndex
      (f := fun sourceValidator => { sourceValidator with
        exitEpoch
        withdrawableEpoch := (exitEpoch + MIN_VALIDATOR_WITHDRAWABILITY_DELAY) % 2 ^ 64 })
      (fun v hv he => absurd (hsource v (hvalidators ▸ hv)) he) (fun _ _ hs => hs)
    refine hframe.trans (ExitFrame.modify sourceIndex (fun v hv hord => ?_) hscheduled)
    exact Validator.exitOrdered_of_unslashed (hord.unslashed (hsource v (hvalidators ▸ hv))) exitEpoch

theorem slashValidator_exitFrame {proposerIndex slashedIndex : Nat}
    {whistleblowerIndex : Option Nat}
    (h : s.slashValidator proposerIndex slashedIndex whistleblowerIndex = .ok t) : ExitFrame s t := by
  unfold slashValidator at h
  simp only [Except.bind_eq_ok] at h
  obtain ⟨exited, hexit, h⟩ := h
  obtain ⟨hexitFrame, hexited⟩ := initiateValidatorExit_eq hexit
  cases hvalidator : exited.validators[slashedIndex]? with
  | none => simp [hvalidator] at h
  | some validator =>
    simp only [hvalidator, Except.bind_eq_ok] at h
    obtain ⟨penalized, hpenalty, rewarded, hproposer, hwhistleblower⟩ := h
    have hslash := ExitFrame.modify (s := exited) slashedIndex
      (fun v hv hord => hord.slash (hexited v hv) (s.getCurrentEpoch + EPOCHS_PER_SLASHINGS_VECTOR))
      (ExitsScheduled.modify slashedIndex (fun _ _ _ => rfl) (fun _ _ _ => rfl))
    exact hexitFrame.trans (hslash.trans ((decreaseBalance_exitFrame hpenalty).trans
      ((increaseBalance_exitFrame hproposer).trans (increaseBalance_exitFrame hwhistleblower))))

/-! ## Deposits -/

theorem addValidatorToRegistry_exitFrame (publicKey : PublicKey) (withdrawalCredentials : B256)
    (amount : UInt64) :
    ExitFrame s (s.addValidatorToRegistry publicKey withdrawalCredentials amount) where
  scheduled := ExitsScheduled.push rfl rfl
  exits hs v hv := by
    rcases List.mem_append.mp hv with hv | hv
    · exact hs v hv
    · rw [List.mem_singleton.mp hv]
      exact getValidatorFromDeposit_exitOrdered publicKey withdrawalCredentials amount
  partials := rfl

theorem applyDeposit_exitFrame (isValidDepositSignature : PendingDeposit → Bool)
    (publicKey : PublicKey) (withdrawalCredentials : B256) (amount : UInt64) (signature : Nat) :
    ExitFrame s
      (s.applyDeposit isValidDepositSignature publicKey withdrawalCredentials amount signature) := by
  unfold applyDeposit
  dsimp only
  split
  · exact ExitFrame.of_eq rfl le_rfl rfl
  · split
    · exact (addValidatorToRegistry_exitFrame publicKey withdrawalCredentials 0).trans
        (ExitFrame.of_eq rfl le_rfl rfl)
    · exact ExitFrame.refl s

theorem applyPendingDeposit_exitFrame {isValidDepositSignature : PendingDeposit → Bool}
    {deposit : PendingDeposit} (h : s.applyPendingDeposit isValidDepositSignature deposit = .ok t) :
    ExitFrame s t := by
  unfold applyPendingDeposit at h
  split at h
  · exact increaseBalance_exitFrame h
  · split at h
    · cases h
      exact addValidatorToRegistry_exitFrame _ _ _
    · cases h
      exact ExitFrame.refl s

theorem processPendingDeposits_exitFrame {fuluForkEpoch : Nat}
    {isValidDepositSignature : PendingDeposit → Bool}
    (h : s.processPendingDeposits fuluForkEpoch isValidDepositSignature = .ok t) :
    ExitFrame s t := by
  unfold processPendingDeposits at h
  simp only [Except.bind_eq_ok, Except.pure_eq_ok] at h
  obtain ⟨acc, hloop, rfl⟩ := h
  unfold pendingDepositsLoop at hloop
  have hacc : ExitFrame s acc.state := by
    refine Loop.breakLoop_spec (fun _ acc => ExitFrame s acc.state) (fun acc => ExitFrame s acc.state)
      _ ?_ ?_ (fun _ hk => hk) _ _ (ExitFrame.refl s) hloop
    all_goals
      intro _ _ acc acc' hk hstep
      rcases pendingDepositStep_ok hstep with
        ⟨-, rfl | ⟨rfl, -⟩⟩ | ⟨-, ⟨t, ht, rfl⟩ | rfl | ⟨t, ht, -, rfl⟩⟩
      · exact hk
      · exact hk
      · exact hk.trans (applyPendingDeposit_exitFrame ht)
      · exact hk
      · exact hk.trans (applyPendingDeposit_exitFrame ht)
  exact hacc.trans (ExitFrame.of_eq rfl le_rfl rfl)

theorem processDepositRequest_exitFrame (depositRequest : DepositRequest) :
    ExitFrame s (s.processDepositRequest depositRequest) := by
  unfold processDepositRequest
  dsimp only
  split <;> exact ExitFrame.of_eq rfl le_rfl rfl

theorem processDeposit_exitFrame {isValidDepositBranch : Deposit → Nat → Bool}
    {isValidDepositSignature : PendingDeposit → Bool} {deposit : Deposit}
    (h : s.processDeposit isValidDepositBranch isValidDepositSignature deposit = .ok t) :
    ExitFrame s t := by
  rw [processDeposit_eq_ok h]
  have hindex : ExitFrame s { s with eth1DepositIndex := (s.eth1DepositIndex + 1) % 2 ^ 64 } :=
    ExitFrame.of_eq rfl le_rfl rfl
  exact hindex.trans (applyDeposit_exitFrame ..)

/-! ## Participation, credentials and epoch processing -/

theorem participationFlagStep_exitFrame {isCurrentEpoch : Bool}
    {participationFlagIndices : List UInt8} {index flagIndex : Nat}
    (h : s.participationFlagStep isCurrentEpoch participationFlagIndices index flagIndex = .ok t) :
    ExitFrame s t := by
  unfold participationFlagStep at h
  cases hpart : (s.epochParticipation isCurrentEpoch)[index]? with
  | none => simp [hpart] at h
  | some epochPart =>
    simp only [hpart] at h
    split at h
    · cases h
      unfold setEpochParticipation
      split <;> exact ExitFrame.of_eq rfl le_rfl rfl
    · cases h
      exact ExitFrame.refl s

theorem setParticipationFlags_exitFrame {isCurrentEpoch : Bool}
    {participationFlagIndices : List UInt8} {attestingIndices : List Nat}
    (h : s.setParticipationFlags isCurrentEpoch participationFlagIndices attestingIndices = .ok t) :
    ExitFrame s t :=
  Loop.foldlM_invariant (fun t => ExitFrame s t)
    (fun _ _ _ ht hattester => Loop.foldlM_invariant (fun t => ExitFrame s t)
      (fun _ _ _ ht' hflag => ht'.trans (participationFlagStep_exitFrame hflag)) ht hattester)
    (ExitFrame.refl s) h

theorem processBlsToExecutionChange_exitFrame {checks : BlsChangeChecks}
    {signed : SignedBLSToExecutionChange}
    (h : s.processBlsToExecutionChange checks signed = .ok t) : ExitFrame s t := by
  unfold processBlsToExecutionChange at h
  simp only [Except.bind_eq_ok, Except.pure_eq_ok] at h
  obtain ⟨⟨⟩, -, rfl⟩ := h
  exact ExitFrame.modify_status _ fun _ => rfl

theorem queueExcessActiveBalance_exitFrame {index : Nat}
    (h : s.queueExcessActiveBalance index = .ok t) : ExitFrame s t := by
  unfold queueExcessActiveBalance at h
  cases hbalance : s.balances[index]? with
  | none => simp [hbalance] at h
  | some balance =>
    simp only [hbalance] at h
    split at h
    · cases hvalidator : s.validators[index]? with
      | none => simp [hvalidator] at h
      | some validator =>
        simp only [hvalidator, Except.pure_eq_ok] at h
        subst h
        exact ExitFrame.of_eq rfl le_rfl rfl
    · cases h
      exact ExitFrame.refl s

theorem switchToCompoundingValidator_exitFrame {index : Nat}
    (h : s.switchToCompoundingValidator index = .ok t) : ExitFrame s t := by
  unfold switchToCompoundingValidator at h
  split at h
  · cases h
  · dsimp only at h
    refine (ExitFrame.modify_status index ?_).trans (queueExcessActiveBalance_exitFrame h)
    exact fun _ => rfl

theorem processInactivityUpdates_exitFrame (h : s.processInactivityUpdates = .ok t) :
    ExitFrame s t := by
  unfold processInactivityUpdates at h
  split at h
  · cases h
    exact ExitFrame.refl s
  · simp only [Except.bind_eq_ok, Except.pure_eq_ok] at h
    obtain ⟨_, -, _, -, rfl⟩ := h
    exact ExitFrame.of_eq rfl le_rfl rfl

theorem processRewardsAndPenalties_exitFrame (h : s.processRewardsAndPenalties = .ok t) :
    ExitFrame s t := by
  obtain ⟨hframe, -⟩ := processRewardsAndPenalties_frame h
  rw [hframe]
  exact ExitFrame.of_eq rfl le_rfl rfl

theorem registryUpdate_exitStatus {currentEpoch activationEpoch finalizedCheckpointEpoch : Nat}
    {validator validator' : Validator} {eject : Bool}
    (h : registryUpdate currentEpoch activationEpoch finalizedCheckpointEpoch validator =
      .ok (validator', eject)) : validator'.exitStatus = validator.exitStatus := by
  unfold registryUpdate at h
  split at h
  · split at h
    · cases h
      rfl
    · cases h
  · split at h
    · cases h
      rfl
    · split at h <;> (cases h; rfl)

theorem processRegistryUpdates_exitFrame (h : s.processRegistryUpdates = .ok t) :
    ExitFrame s t := by
  unfold processRegistryUpdates at h
  simp only [Except.bind_eq_ok] at h
  obtain ⟨updates, hupdates, h⟩ := h
  have hupdated : ExitFrame s { s with validators := updates.map Prod.fst } := by
    refine ExitFrame.set_validators_status
      (by rw [List.length_map, Loop.length_of_mapM_eq_ok hupdates]) fun i v w hv hw => ?_
    rw [List.getElem?_map, Option.map_eq_some_iff] at hw
    obtain ⟨⟨w, eject⟩, hupdate, rfl⟩ := hw
    obtain ⟨v', hv', hstep⟩ := Loop.getElem?_of_mapM_eq_ok hupdates i _ hupdate
    rw [hv, Option.some_inj] at hv'
    subst hv'
    exact registryUpdate_exitStatus hstep
  exact Loop.foldlM_invariant (fun t => ExitFrame s t)
    (fun _ _ _ ht hexit => ht.trans (initiateValidatorExit_exitFrame hexit)) hupdated h

theorem effectiveBalanceUpdate_exitStatus (validator : Validator) (balance : UInt64) :
    (effectiveBalanceUpdate validator balance).exitStatus = validator.exitStatus := by
  unfold effectiveBalanceUpdate
  dsimp only
  split <;> rfl

theorem processEffectiveBalanceUpdates_exitFrame (h : s.processEffectiveBalanceUpdates = .ok t) :
    ExitFrame s t := by
  unfold processEffectiveBalanceUpdates at h
  simp only [Except.bind_eq_ok, Except.pure_eq_ok] at h
  obtain ⟨validators, hvalidators, rfl⟩ := h
  refine ExitFrame.set_validators_status
    (by rw [Loop.length_of_mapM_eq_ok hvalidators, List.length_zipIdx]) fun i v w hv hw => ?_
  obtain ⟨⟨validator, index⟩, hpair, hstep⟩ := Loop.getElem?_of_mapM_eq_ok hvalidators i w hw
  rw [List.getElem?_zipIdx, hv, Option.map_some, Option.some_inj, Prod.mk.injEq] at hpair
  obtain ⟨rfl, -⟩ := hpair
  simp only [Except.bind_eq_ok, Except.pure_eq_ok] at hstep
  obtain ⟨balance, -, rfl⟩ := hstep
  exact effectiveBalanceUpdate_exitStatus _ balance

theorem processSlashings_exitFrame {slashings : List UInt64}
    (h : s.processSlashings slashings = .ok t) : ExitFrame s t := by
  unfold processSlashings at h
  refine Loop.foldlM_invariant (fun t => ExitFrame s t) (fun _ _ _ ht hstep => ?_)
    (ExitFrame.refl s) h
  obtain ⟨_, -, ⟨-, -, hdecrease⟩ | ⟨-, rfl⟩⟩ := slashingsStep_cases hstep
  · exact ht.trans (decreaseBalance_exitFrame hdecrease)
  · exact ht

theorem processParticipationFlagUpdates_exitFrame :
    ExitFrame s s.processParticipationFlagUpdates :=
  ExitFrame.of_eq rfl le_rfl rfl

/-! ## Block operations -/

theorem processVoluntaryExit_exitFrame {checks : SignatureChecks}
    {signedVoluntaryExit : SignedVoluntaryExit}
    (h : s.processVoluntaryExit checks signedVoluntaryExit = .ok t) : ExitFrame s t := by
  unfold processVoluntaryExit at h
  obtain ⟨⟨⟩, -, hexit⟩ := Except.bind_eq_ok.mp h
  exact initiateValidatorExit_exitFrame hexit

theorem processProposerSlashing_exitFrame {checks : SignatureChecks} {beaconProposerIndex : Nat}
    {proposerSlashing : ProposerSlashing}
    (h : s.processProposerSlashing checks beaconProposerIndex proposerSlashing = .ok t) :
    ExitFrame s t := by
  unfold processProposerSlashing at h
  obtain ⟨_, -, hslash⟩ := Except.bind_eq_ok.mp h
  exact slashValidator_exitFrame hslash

theorem attesterSlashingStep_exitFrame {beaconProposerIndex currentEpoch : Nat}
    {acc acc' : BeaconState × Bool} {index : Nat}
    (h : attesterSlashingStep beaconProposerIndex currentEpoch acc index = .ok acc') :
    ExitFrame acc.1 acc'.1 := by
  unfold attesterSlashingStep at h
  obtain ⟨validator, -, h⟩ := Except.bind_eq_ok.mp h
  split at h
  · obtain ⟨t, hslash, h⟩ := Except.bind_eq_ok.mp h
    rw [← Except.pure_eq_ok.mp h]
    exact slashValidator_exitFrame hslash
  · rw [← Except.pure_eq_ok.mp h]
    exact ExitFrame.refl _

theorem processAttesterSlashing_exitFrame {checks : SignatureChecks} {beaconProposerIndex : Nat}
    {attesterSlashing : AttesterSlashing}
    (h : s.processAttesterSlashing checks beaconProposerIndex attesterSlashing = .ok t) :
    ExitFrame s t := by
  unfold processAttesterSlashing at h
  obtain ⟨⟨indices1, indices2⟩, -, h⟩ := Except.bind_eq_ok.mp h
  obtain ⟨⟨slashed, slashedAny⟩, hloop, h⟩ := Except.bind_eq_ok.mp h
  have hframe : ExitFrame s slashed :=
    Loop.foldlM_invariant (fun acc : BeaconState × Bool => ExitFrame s acc.1)
      (fun _ _ _ hk hstep => hk.trans (attesterSlashingStep_exitFrame hstep))
      (ExitFrame.refl s) hloop
  dsimp only at h
  split at h
  · cases h
  · rw [← Except.pure_eq_ok.mp h]
    exact hframe

end BeaconState

end Ream.Beacon.Electra
