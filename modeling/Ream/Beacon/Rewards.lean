import Ream.Beacon.RegistryInvariant

/-!
# Rewards and penalties of the previous epoch

`process_rewards_and_penalties` collects the flag deltas and the inactivity penalty deltas, one
entry per validator, and applies them pair by pair. Products and sums wrap as in the release
build; every index the loops write is a registry position on well-formed states.
-/

namespace Ream.Beacon.Electra

def TIMELY_SOURCE_FLAG_INDEX : UInt8 := 0

def TIMELY_HEAD_FLAG_INDEX : UInt8 := 2

def INACTIVITY_PENALTY_QUOTIENT_BELLATRIX : UInt64 := 16777216

namespace BeaconState

variable (s : BeaconState)

/-- `get_total_balance` over the elements of a `HashSet`: at least
`EFFECTIVE_BALANCE_INCREMENT`, the sum wrapping as `u64` does. -/
def getTotalBalance (indices : List Nat) : Except String UInt64 := do
  let balances ← indices.mapM fun index => do
    let validator ← vecIndex s.validators index
    pure validator.effectiveBalance
  pure (max EFFECTIVE_BALANCE_INCREMENT balances.sum)

def getBaseReward (index : Nat) (baseRewardPerIncrement : UInt64) : Except String UInt64 := do
  let validator ← vecIndex s.validators index
  let increments := validator.effectiveBalance / EFFECTIVE_BALANCE_INCREMENT
  pure (increments * baseRewardPerIncrement)

end BeaconState

/-- What `get_flag_index_deltas` computes before its loop: the flag, its weight, its unslashed
participants in the previous epoch, their increments, the active increments and the base
reward per increment. -/
structure FlagContext where
  flagIndex : UInt8
  weight : UInt64
  unslashedParticipatingIndices : List Nat
  unslashedParticipatingIncrements : UInt64
  activeIncrements : UInt64
  baseRewardPerIncrement : UInt64

/-- One pass of the loop of `get_flag_index_deltas`: a participant is rewarded outside a leak, a
validator that missed the source or the target is penalized. -/
def flagDeltaStep (s : BeaconState) (c : FlagContext) (deltas : List UInt64 × List UInt64)
    (index : Nat) : Except String (List UInt64 × List UInt64) := do
  let (rewards, penalties) := deltas
  let baseReward ← s.getBaseReward index c.baseRewardPerIncrement
  if index ∈ c.unslashedParticipatingIndices then
    if !s.isInInactivityLeak then
      let rewardNumerator := baseReward * c.weight * c.unslashedParticipatingIncrements
      let reward ← vecIndex rewards index
      let rewards ← vecSet rewards index
        (reward + rewardNumerator / (c.activeIncrements * WEIGHT_DENOMINATOR))
      pure (rewards, penalties)
    else pure (rewards, penalties)
  else if c.flagIndex ≠ TIMELY_HEAD_FLAG_INDEX then
    let penalty ← vecIndex penalties index
    let penalties ← vecSet penalties index (penalty + baseReward * c.weight / WEIGHT_DENOMINATOR)
    pure (rewards, penalties)
  else pure (rewards, penalties)

/-- One pass of the loop of `get_inactivity_penalty_deltas`. -/
def inactivityPenaltyStep (s : BeaconState) (matchingTargetIndices : List Nat)
    (penalties : List UInt64) (index : Nat) : Except String (List UInt64) := do
  if index ∉ matchingTargetIndices then
    let validator ← vecIndex s.validators index
    let inactivityScore ← vecIndex s.inactivityScores index
    let penaltyNumerator := validator.effectiveBalance * inactivityScore
    let penaltyDenominator := INACTIVITY_SCORE_BIAS * INACTIVITY_PENALTY_QUOTIENT_BELLATRIX
    let penalty ← vecIndex penalties index
    vecSet penalties index (penalty + penaltyNumerator / penaltyDenominator)
  else pure penalties

namespace BeaconState

variable (s : BeaconState)

def getFlagIndexDeltas (flagIndex : UInt8) : Except String (List UInt64 × List UInt64) := do
  let rewards := List.replicate s.validators.length 0
  let penalties := List.replicate s.validators.length 0
  let previousEpoch := s.getPreviousEpoch
  let unslashedParticipatingIndices ← s.getUnslashedParticipatingIndices flagIndex previousEpoch
  let weight ← vecIndex PARTICIPATION_FLAG_WEIGHTS flagIndex.toNat
  let unslashedParticipatingBalance ← s.getTotalBalance unslashedParticipatingIndices
  let unslashedParticipatingIncrements := unslashedParticipatingBalance / EFFECTIVE_BALANCE_INCREMENT
  let activeIncrements := s.getTotalActiveBalance / EFFECTIVE_BALANCE_INCREMENT
  let baseRewardPerIncrement := s.getBaseRewardPerIncrement
  s.getEligibleValidatorIndices.foldlM
    (flagDeltaStep s ⟨flagIndex, weight, unslashedParticipatingIndices,
      unslashedParticipatingIncrements, activeIncrements, baseRewardPerIncrement⟩)
    (rewards, penalties)

def getInactivityPenaltyDeltas : Except String (List UInt64 × List UInt64) := do
  let rewards := List.replicate s.validators.length 0
  let penalties := List.replicate s.validators.length 0
  let previousEpoch := s.getPreviousEpoch
  let matchingTargetIndices ←
    s.getUnslashedParticipatingIndices TIMELY_TARGET_FLAG_INDEX previousEpoch
  let penalties ← s.getEligibleValidatorIndices.foldlM
    (inactivityPenaltyStep s matchingTargetIndices) penalties
  pure (rewards, penalties)

end BeaconState

/-- One pass of the inner loop of `process_rewards_and_penalties`. -/
def applyDeltaStep (deltas : List UInt64 × List UInt64) (s : BeaconState) (index : Nat) :
    Except String BeaconState := do
  let reward ← vecIndex deltas.1 index
  let s ← s.increaseBalance index reward
  let penalty ← vecIndex deltas.2 index
  s.decreaseBalance index penalty

/-- The inner loop of `process_rewards_and_penalties`: one pair of lists, over the registry. -/
def applyDeltas (s : BeaconState) (deltas : List UInt64 × List UInt64) :
    Except String BeaconState :=
  (List.range s.validators.length).foldlM (applyDeltaStep deltas) s

namespace BeaconState

variable (s : BeaconState)

def processRewardsAndPenalties : Except String BeaconState := do
  -- no rewards at the end of the genesis epoch: they are for the previous epoch's work
  if s.getCurrentEpoch = GENESIS_EPOCH then return s
  let flagDeltas ← (List.range PARTICIPATION_FLAG_WEIGHTS.length).mapM fun flagIndex =>
    s.getFlagIndexDeltas flagIndex.toUInt8
  let inactivityPenaltyDeltas ← s.getInactivityPenaltyDeltas
  (flagDeltas ++ [inactivityPenaltyDeltas]).foldlM applyDeltas s

end BeaconState

/-! ## The index lists -/

namespace BeaconState

variable {s t : BeaconState}

theorem mem_getActiveValidatorIndices {epoch i : Nat} :
    i ∈ s.getActiveValidatorIndices epoch ↔
      ∃ v, s.validators[i]? = some v ∧ v.isActiveValidator epoch = true := by
  unfold getActiveValidatorIndices
  simp only [List.mem_filterMap, Prod.exists, List.mem_zipIdx_iff_getElem?]
  constructor
  · rintro ⟨v, j, hj, hv⟩
    split at hv
    case isTrue hactive =>
      cases hv
      exact ⟨v, hj, hactive⟩
    case isFalse => cases hv
  · rintro ⟨v, hv, hactive⟩
    exact ⟨v, i, hv, by simp [hactive]⟩

theorem mem_getEligibleValidatorIndices {i : Nat} (h : i ∈ s.getEligibleValidatorIndices) :
    ∃ v, s.validators[i]? = some v ∧
      (v.isActiveValidator s.getPreviousEpoch = true ∨
        v.slashed = true ∧ s.getPreviousEpoch + 1 < v.withdrawableEpoch) := by
  unfold getEligibleValidatorIndices at h
  simp only [List.mem_filterMap, Prod.exists, List.mem_zipIdx_iff_getElem?] at h
  obtain ⟨v, j, hv, hj⟩ := h
  split at hj
  case isTrue heligible =>
    cases hj
    exact ⟨v, hv, by simpa using heligible⟩
  case isFalse => cases hj

theorem getEligibleValidatorIndices_nodup : s.getEligibleValidatorIndices.Nodup := by
  have hsub : List.Sublist s.getEligibleValidatorIndices (s.validators.zipIdx.map Prod.snd) := by
    refine Loop.filterMap_sublist_map (fun ⟨validator, i⟩ b h => ?_) _
    dsimp only at h
    split at h
    · exact (Option.some.inj h).symm
    · cases h
  rw [List.zipIdx_map_snd] at hsub
  exact hsub.nodup List.nodup_range'

/-- The participation list that `get_unslashed_participating_indices` reads for the previous
epoch: the current one at the genesis epoch, where both epochs are the same. -/
def previousParticipation (s : BeaconState) : List UInt8 :=
  if s.getPreviousEpoch = s.getCurrentEpoch then s.currentEpochParticipation
  else s.previousEpochParticipation

/-- On a well-formed registry the participants of a flag in the previous epoch are found, and
they are the unslashed validators active then whose participation has the flag. -/
theorem getUnslashedParticipatingIndices_ok (hs : s.RegistryWellFormed) (flagIndex : UInt8) :
    ∃ indices, s.getUnslashedParticipatingIndices flagIndex s.getPreviousEpoch = .ok indices ∧
      ∀ i, i ∈ indices ↔ ∃ v, s.validators[i]? = some v ∧
        v.isActiveValidator s.getPreviousEpoch = true ∧ v.slashed = false ∧
        Ream.Beacon.BeaconState.hasFlag (s.previousParticipation.getD i 0) flagIndex = true := by
  have hlength : s.previousParticipation.length = s.validators.length := by
    unfold previousParticipation
    split
    · exact hs.currentEpochParticipation_length
    · exact hs.previousEpochParticipation_length
  have hvalidator : ∀ i ∈ s.getActiveValidatorIndices s.getPreviousEpoch,
      i < s.validators.length := fun i hi => by
    obtain ⟨v, hv, -⟩ := mem_getActiveValidatorIndices.mp hi
    exact (List.getElem?_eq_some_iff.mp hv).1
  unfold getUnslashedParticipatingIndices previousParticipation at *
  rw [if_pos (Or.inl rfl)]
  dsimp only
  rw [Loop.filterM_eq_ok (p := fun i => Ream.Beacon.BeaconState.hasFlag
    ((if s.getPreviousEpoch = s.getCurrentEpoch then s.currentEpochParticipation
      else s.previousEpochParticipation).getD i 0) flagIndex) fun i hi => by
    rw [vecIndex_of_lt 0 (hlength ▸ hvalidator i hi)]
    rfl, Except.ok_bind]
  rw [Loop.filterM_eq_ok (p := fun i => !(s.validators.getD i ⟨0, 0, 0, false, 0, 0, 0, 0⟩).slashed)
    fun i hi => by
    rw [vecIndex_of_lt _ (hvalidator i (List.mem_of_mem_filter hi))]
    rfl, Except.ok_bind]
  refine ⟨_, rfl, fun i => ?_⟩
  simp only [List.mem_dedup, List.mem_filter, mem_getActiveValidatorIndices]
  constructor
  · rintro ⟨⟨⟨v, hv, hactive⟩, hflag⟩, hunslashed⟩
    rw [List.getD_eq_getElem?_getD, hv, Option.getD_some] at hunslashed
    exact ⟨v, hv, hactive, by simpa using hunslashed, hflag⟩
  · rintro ⟨v, hv, hactive, hunslashed, hflag⟩
    refine ⟨⟨⟨v, hv, hactive⟩, hflag⟩, ?_⟩
    rw [List.getD_eq_getElem?_getD, hv, Option.getD_some, hunslashed]
    rfl

/-! ## Totals and base rewards -/

theorem getTotalBalance_ok {indices : List Nat} (h : ∀ i ∈ indices, i < s.validators.length) :
    ∃ total, s.getTotalBalance indices = .ok total := by
  unfold getTotalBalance
  rw [Loop.mapM_eq_ok (g := fun index =>
    (s.validators.getD index ⟨0, 0, 0, false, 0, 0, 0, 0⟩).effectiveBalance) fun i hi => by
    rw [vecIndex_of_lt _ (h i hi)]
    rfl]
  exact ⟨_, rfl⟩

theorem getBaseReward_lt {index : Nat} {baseRewardPerIncrement baseReward : UInt64}
    (h : s.getBaseReward index baseRewardPerIncrement = .ok baseReward) :
    index < s.validators.length := by
  unfold getBaseReward at h
  obtain ⟨v, hv, -⟩ := Except.bind_eq_ok.mp h
  exact (List.getElem?_eq_some_iff.mp (vecIndex_eq_ok.mp hv)).1

theorem getBaseReward_ok {index : Nat} (baseRewardPerIncrement : UInt64)
    (h : index < s.validators.length) :
    ∃ baseReward, s.getBaseReward index baseRewardPerIncrement = .ok baseReward := by
  unfold getBaseReward
  rw [vecIndex_of_lt ⟨0, 0, 0, false, 0, 0, 0, 0⟩ h]
  exact ⟨_, rfl⟩

/-- The divisor of a flag reward is at least `WEIGHT_DENOMINATOR`: the total active balance is
at least one increment, and its increments times the denominator do not wrap. -/
theorem weightDenominator_le_activeIncrements :
    WEIGHT_DENOMINATOR.toNat ≤
      (s.getTotalActiveBalance / EFFECTIVE_BALANCE_INCREMENT * WEIGHT_DENOMINATOR).toNat := by
  have hmin : EFFECTIVE_BALANCE_INCREMENT.toNat ≤ s.getTotalActiveBalance.toNat := by
    unfold getTotalActiveBalance
    rw [UInt64.toNat_max]
    exact le_max_left _ _
  have hlt := UInt64.toNat_lt s.getTotalActiveBalance
  have hincrement : EFFECTIVE_BALANCE_INCREMENT.toNat = 1000000000 := rfl
  have hweight : WEIGHT_DENOMINATOR.toNat = 64 := rfl
  rw [UInt64.toNat_mul, UInt64.toNat_div, hincrement, hweight]
  rw [hincrement] at hmin
  omega

theorem div_activeIncrements_lt (x : UInt64) :
    (x / (s.getTotalActiveBalance / EFFECTIVE_BALANCE_INCREMENT * WEIGHT_DENOMINATOR)).toNat <
      2 ^ 58 := by
  have hdivisor := s.weightDenominator_le_activeIncrements
  have hweight : WEIGHT_DENOMINATOR.toNat = 64 := rfl
  rw [hweight] at hdivisor
  rw [UInt64.toNat_div]
  apply Nat.div_lt_of_lt_mul
  calc x.toNat < 2 ^ 64 := UInt64.toNat_lt x
    _ = 64 * 2 ^ 58 := by norm_num
    _ ≤ _ := Nat.mul_le_mul_right _ hdivisor

end BeaconState

/-! ## One pass of each loop -/

variable {s t : BeaconState}

/-- What one pass of `get_flag_index_deltas` writes: at most the reward of its validator, when
it took part and there is no leak, and at most the penalty of its validator, when it missed a
flag other than the head. -/
theorem flagDeltaStep_cases {c : FlagContext} {deltas deltas' : List UInt64 × List UInt64}
    {index : Nat} (h : flagDeltaStep s c deltas index = .ok deltas') :
    index < s.validators.length ∧
      (deltas'.1 = deltas.1 ∨ index ∈ c.unslashedParticipatingIndices ∧
        s.isInInactivityLeak = false ∧ ∃ reward rewardNumerator, deltas.1[index]? = some reward ∧
          deltas'.1 = deltas.1.set index
            (reward + rewardNumerator / (c.activeIncrements * WEIGHT_DENOMINATOR))) ∧
      (deltas'.2 = deltas.2 ∨ index ∉ c.unslashedParticipatingIndices ∧
        c.flagIndex ≠ TIMELY_HEAD_FLAG_INDEX ∧ ∃ penalty, deltas'.2 = deltas.2.set index penalty) := by
  obtain ⟨rewards, penalties⟩ := deltas
  unfold flagDeltaStep at h
  obtain ⟨baseReward, hbase, h⟩ := Except.bind_eq_ok.mp h
  refine ⟨BeaconState.getBaseReward_lt hbase, ?_⟩
  split at h
  case isTrue hparticipant =>
    split at h
    case isTrue hleak =>
      obtain ⟨reward, hreward, h⟩ := Except.bind_eq_ok.mp h
      obtain ⟨rewards', hset, h⟩ := Except.bind_eq_ok.mp h
      cases Except.pure_eq_ok.mp h
      obtain ⟨-, rfl⟩ := vecSet_eq_ok.mp hset
      exact ⟨.inr ⟨hparticipant, by simpa using hleak, reward, _, vecIndex_eq_ok.mp hreward, rfl⟩,
        .inl rfl⟩
    case isFalse =>
      cases Except.pure_eq_ok.mp h
      exact ⟨.inl rfl, .inl rfl⟩
  case isFalse hmissed =>
    split at h
    case isTrue hhead =>
      obtain ⟨penalty, -, h⟩ := Except.bind_eq_ok.mp h
      obtain ⟨penalties', hset, h⟩ := Except.bind_eq_ok.mp h
      cases Except.pure_eq_ok.mp h
      obtain ⟨-, rfl⟩ := vecSet_eq_ok.mp hset
      exact ⟨.inl rfl, .inr ⟨hmissed, hhead, _, rfl⟩⟩
    case isFalse =>
      cases Except.pure_eq_ok.mp h
      exact ⟨.inl rfl, .inl rfl⟩

theorem flagDeltaStep_ok {c : FlagContext} {deltas : List UInt64 × List UInt64} {index : Nat}
    (hindex : index < s.validators.length) (hrewards : deltas.1.length = s.validators.length)
    (hpenalties : deltas.2.length = s.validators.length) :
    ∃ deltas', flagDeltaStep s c deltas index = .ok deltas' := by
  obtain ⟨rewards, penalties⟩ := deltas
  obtain ⟨baseReward, hbase⟩ := s.getBaseReward_ok c.baseRewardPerIncrement hindex
  have hreward : index < rewards.length := hrewards ▸ hindex
  have hpenalty : index < penalties.length := hpenalties ▸ hindex
  unfold flagDeltaStep
  dsimp only
  rw [hbase, Except.ok_bind]
  split
  · split
    · rw [vecIndex_of_lt 0 hreward, Except.ok_bind, vecSet_of_lt _ hreward]
      exact ⟨_, rfl⟩
    · exact ⟨_, rfl⟩
  · split
    · rw [vecIndex_of_lt 0 hpenalty, Except.ok_bind, vecSet_of_lt _ hpenalty]
      exact ⟨_, rfl⟩
    · exact ⟨_, rfl⟩

/-- One pass of `get_inactivity_penalty_deltas` writes at most the penalty of its validator, when
it missed the target. -/
theorem inactivityPenaltyStep_cases {matchingTargetIndices : List Nat}
    {penalties penalties' : List UInt64} {index : Nat}
    (h : inactivityPenaltyStep s matchingTargetIndices penalties index = .ok penalties') :
    penalties' = penalties ∨
      index ∉ matchingTargetIndices ∧ ∃ penalty, penalties' = penalties.set index penalty := by
  unfold inactivityPenaltyStep at h
  split at h
  case isTrue hmissed =>
    obtain ⟨_, -, h⟩ := Except.bind_eq_ok.mp h
    obtain ⟨_, -, h⟩ := Except.bind_eq_ok.mp h
    obtain ⟨_, -, h⟩ := Except.bind_eq_ok.mp h
    obtain ⟨-, rfl⟩ := vecSet_eq_ok.mp h
    exact .inr ⟨hmissed, _, rfl⟩
  case isFalse => exact .inl (Except.pure_eq_ok.mp h).symm

theorem inactivityPenaltyStep_ok {matchingTargetIndices : List Nat} {penalties : List UInt64}
    {index : Nat} (hindex : index < s.validators.length)
    (hscores : s.inactivityScores.length = s.validators.length)
    (hpenalties : penalties.length = s.validators.length) :
    ∃ penalties', inactivityPenaltyStep s matchingTargetIndices penalties index = .ok penalties' := by
  unfold inactivityPenaltyStep
  split
  · rw [vecIndex_of_lt ⟨0, 0, 0, false, 0, 0, 0, 0⟩ hindex, Except.ok_bind,
      vecIndex_of_lt 0 (hscores ▸ hindex), Except.ok_bind, vecIndex_of_lt 0 (hpenalties ▸ hindex),
      Except.ok_bind, vecSet_of_lt _ (hpenalties ▸ hindex)]
    exact ⟨_, rfl⟩
  · exact ⟨_, rfl⟩

theorem flagDeltaStep_length {c : FlagContext} {deltas deltas' : List UInt64 × List UInt64}
    {index : Nat} (h : flagDeltaStep s c deltas index = .ok deltas') :
    deltas'.1.length = deltas.1.length ∧ deltas'.2.length = deltas.2.length := by
  obtain ⟨-, hrewards, hpenalties⟩ := flagDeltaStep_cases h
  constructor
  · rcases hrewards with hsame | ⟨-, -, reward, rewardNumerator, -, hset⟩
    · rw [hsame]
    · rw [hset, List.length_set]
  · rcases hpenalties with hsame | ⟨-, -, penalty, hset⟩
    · rw [hsame]
    · rw [hset, List.length_set]

theorem inactivityPenaltyStep_length {matchingTargetIndices : List Nat}
    {penalties penalties' : List UInt64} {index : Nat}
    (h : inactivityPenaltyStep s matchingTargetIndices penalties index = .ok penalties') :
    penalties'.length = penalties.length := by
  rcases inactivityPenaltyStep_cases h with hsame | ⟨-, penalty, hset⟩
  · rw [hsame]
  · rw [hset, List.length_set]

/-- What one pass of the inner loop of `process_rewards_and_penalties` does to a balance: the
reward is added, then the penalty taken off, stopping at zero. -/
def applyDeltaAt (index : Nat) (balance : UInt64) (deltas : List UInt64 × List UInt64) : UInt64 :=
  saturatingSub (balance + deltas.1.getD index 0) (deltas.2.getD index 0)

theorem applyDeltaStep_eq {deltas : List UInt64 × List UInt64} {index : Nat}
    (h : applyDeltaStep deltas s index = .ok t) :
    index < s.balances.length ∧
      t = { s with balances := s.balances.modify index fun balance =>
        applyDeltaAt index balance deltas } := by
  unfold applyDeltaStep at h
  obtain ⟨reward, hreward, h⟩ := Except.bind_eq_ok.mp h
  obtain ⟨u, hu, h⟩ := Except.bind_eq_ok.mp h
  obtain ⟨penalty, hpenalty, h⟩ := Except.bind_eq_ok.mp h
  obtain ⟨hindex, rfl⟩ := BeaconState.increaseBalance_eq hu
  obtain ⟨-, rfl⟩ := BeaconState.decreaseBalance_eq h
  have hr : deltas.1.getD index 0 = reward := by
    rw [List.getD_eq_getElem?_getD, vecIndex_eq_ok.mp hreward, Option.getD_some]
  have hp : deltas.2.getD index 0 = penalty := by
    rw [List.getD_eq_getElem?_getD, vecIndex_eq_ok.mp hpenalty, Option.getD_some]
  refine ⟨hindex, ?_⟩
  show { s with balances := _ } = { s with balances := _ }
  rw [List.modify_modify_eq]
  simp only [applyDeltaAt, hr, hp, saturatingSub]
  rfl

theorem applyDeltaStep_ok {deltas : List UInt64 × List UInt64} {index : Nat}
    (hindex : index < s.balances.length) (hrewards : index < deltas.1.length)
    (hpenalties : index < deltas.2.length) : ∃ t, applyDeltaStep deltas s index = .ok t := by
  unfold applyDeltaStep
  rw [vecIndex_of_lt 0 hrewards, Except.ok_bind, BeaconState.increaseBalance, if_pos hindex,
    Except.ok_bind, vecIndex_of_lt 0 hpenalties, Except.ok_bind, BeaconState.decreaseBalance,
    if_pos (by simpa using hindex)]
  exact ⟨_, rfl⟩

/-! ## The loops over the eligible validators -/

/-- What a run of the loop of `get_flag_index_deltas` writes: a reward only to a participant of
the list outside a leak, and a penalty only to a validator of the list that missed a flag other
than the head. -/
theorem flagDeltas_written {c : FlagContext} {l : List Nat}
    {init deltas : List UInt64 × List UInt64}
    (h : l.foldlM (flagDeltaStep s c) init = .ok deltas) (i : Nat) :
    (deltas.1[i]? = init.1[i]? ∨
        i ∈ l ∧ i ∈ c.unslashedParticipatingIndices ∧ s.isInInactivityLeak = false) ∧
      (deltas.2[i]? = init.2[i]? ∨
        i ∈ l ∧ i ∉ c.unslashedParticipatingIndices ∧ c.flagIndex ≠ TIMELY_HEAD_FLAG_INDEX) := by
  refine Loop.foldlM_mem_invariant (fun acc : List UInt64 × List UInt64 =>
      (acc.1[i]? = init.1[i]? ∨
        i ∈ l ∧ i ∈ c.unslashedParticipatingIndices ∧ s.isInInactivityLeak = false) ∧
      (acc.2[i]? = init.2[i]? ∨
        i ∈ l ∧ i ∉ c.unslashedParticipatingIndices ∧ c.flagIndex ≠ TIMELY_HEAD_FLAG_INDEX))
    (fun acc x acc' hx hacc hstep => ?_) ⟨.inl rfl, .inl rfl⟩ h
  obtain ⟨-, hrewards, hpenalties⟩ := flagDeltaStep_cases hstep
  constructor
  · rcases hrewards with hsame | ⟨hparticipant, hleak, reward, rewardNumerator, hreward, hset⟩
    · exact hsame ▸ hacc.1
    · by_cases hix : i = x
      · subst hix
        exact .inr ⟨hx, hparticipant, hleak⟩
      · rw [hset, List.getElem?_set_ne (Ne.symm hix)]
        exact hacc.1
  · rcases hpenalties with hsame | ⟨hmissed, hhead, penalty, hset⟩
    · exact hsame ▸ hacc.2
    · by_cases hix : i = x
      · subst hix
        exact .inr ⟨hx, hmissed, hhead⟩
      · rw [hset, List.getElem?_set_ne (Ne.symm hix)]
        exact hacc.2

/-- Over distinct indices from zeroed lists, each reward is written once, as one quotient by the
active increments: it stays below `2 ^ 58`. -/
theorem flagDeltas_reward_lt {c : FlagContext} {l : List Nat} {n : Nat}
    {deltas : List UInt64 × List UInt64} (hl : l.Nodup)
    (hc : c.activeIncrements = s.getTotalActiveBalance / EFFECTIVE_BALANCE_INCREMENT)
    (h : l.foldlM (flagDeltaStep s c) (List.replicate n 0, List.replicate n 0) = .ok deltas)
    (i : Nat) : (deltas.1.getD i 0).toNat < 2 ^ 58 := by
  have hrun := Loop.foldlM_index_invariant (fun k (acc : List UInt64 × List UInt64) =>
      ∀ j, (j ∉ l.take k → acc.1.getD j 0 = 0) ∧ (acc.1.getD j 0).toNat < 2 ^ 58)
    (fun j => by simp) (fun k hk acc acc' hacc hstep => ?_) h
  · exact (hrun i).2
  obtain ⟨-, hrewards, -⟩ := flagDeltaStep_cases hstep
  have htake : l.take (k + 1) = l.take k ++ [l[k]] := List.take_succ_eq_append_getElem hk
  intro j
  rcases hrewards with hsame | ⟨-, -, reward, rewardNumerator, hreward, hset⟩
  · rw [hsame]
    refine ⟨fun hj => (hacc j).1 fun hjk => hj ?_, (hacc j).2⟩
    rw [htake]
    exact List.mem_append_left _ hjk
  · have hzero : reward = 0 := by
      have hfresh := (hacc l[k]).1 (List.getElem_not_mem_take hl hk)
      rwa [List.getD_eq_getElem?_getD, hreward, Option.getD_some] at hfresh
    have hlt : l[k] < acc.1.length := (List.getElem?_eq_some_iff.mp hreward).1
    rw [hset]
    by_cases hj : j = l[k]
    · subst hj
      refine ⟨fun hj => absurd (htake ▸ List.mem_append_right _ (List.mem_singleton_self _)) hj,
        ?_⟩
      rw [List.getD_eq_getElem?_getD, List.getElem?_set_self hlt, Option.getD_some, hzero,
        UInt64.zero_add, hc]
      exact s.div_activeIncrements_lt rewardNumerator
    · rw [List.getD_eq_getElem?_getD, List.getElem?_set_ne (Ne.symm hj),
        ← List.getD_eq_getElem?_getD]
      refine ⟨fun hjk => (hacc j).1 fun hj' => hjk ?_, (hacc j).2⟩
      rw [htake]
      exact List.mem_append_left _ hj'

/-- A run of the loop of `get_inactivity_penalty_deltas` penalizes only validators of the list
that missed the target. -/
theorem inactivityPenalties_written {matchingTargetIndices l : List Nat}
    {init penalties : List UInt64}
    (h : l.foldlM (inactivityPenaltyStep s matchingTargetIndices) init = .ok penalties) (i : Nat) :
    penalties[i]? = init[i]? ∨ i ∈ l ∧ i ∉ matchingTargetIndices := by
  refine Loop.foldlM_mem_invariant (fun acc : List UInt64 =>
      acc[i]? = init[i]? ∨ i ∈ l ∧ i ∉ matchingTargetIndices)
    (fun acc x acc' hx hacc hstep => ?_) (.inl rfl) h
  rcases inactivityPenaltyStep_cases hstep with hsame | ⟨hmissed, penalty, hset⟩
  · exact hsame ▸ hacc
  · by_cases hix : i = x
    · subst hix
      exact .inr ⟨hx, hmissed⟩
    · rw [hset, List.getElem?_set_ne (Ne.symm hix)]
      exact hacc

namespace BeaconState

theorem getFlagIndexDeltas_eq {flagIndex : UInt8} {deltas : List UInt64 × List UInt64}
    (h : s.getFlagIndexDeltas flagIndex = .ok deltas) :
    ∃ c : FlagContext, c.flagIndex = flagIndex ∧
      c.activeIncrements = s.getTotalActiveBalance / EFFECTIVE_BALANCE_INCREMENT ∧
      s.getUnslashedParticipatingIndices flagIndex s.getPreviousEpoch =
        .ok c.unslashedParticipatingIndices ∧
      s.getEligibleValidatorIndices.foldlM (flagDeltaStep s c)
        (List.replicate s.validators.length 0, List.replicate s.validators.length 0) = .ok deltas := by
  unfold getFlagIndexDeltas at h
  obtain ⟨indices, hindices, h⟩ := Except.bind_eq_ok.mp h
  obtain ⟨weight, -, h⟩ := Except.bind_eq_ok.mp h
  obtain ⟨balance, -, h⟩ := Except.bind_eq_ok.mp h
  exact ⟨_, rfl, rfl, hindices, h⟩

theorem getInactivityPenaltyDeltas_eq {deltas : List UInt64 × List UInt64}
    (h : s.getInactivityPenaltyDeltas = .ok deltas) :
    ∃ matchingTargetIndices,
      s.getUnslashedParticipatingIndices TIMELY_TARGET_FLAG_INDEX s.getPreviousEpoch =
        .ok matchingTargetIndices ∧
      deltas.1 = List.replicate s.validators.length 0 ∧
      s.getEligibleValidatorIndices.foldlM (inactivityPenaltyStep s matchingTargetIndices)
        (List.replicate s.validators.length 0) = .ok deltas.2 := by
  unfold getInactivityPenaltyDeltas at h
  obtain ⟨indices, hindices, h⟩ := Except.bind_eq_ok.mp h
  obtain ⟨penalties, hpenalties, h⟩ := Except.bind_eq_ok.mp h
  cases Except.pure_eq_ok.mp h
  exact ⟨indices, hindices, rfl, hpenalties⟩

/-- The deltas of one flag at one validator: a reward only for an eligible participant outside a
leak, and then below `2 ^ 58`; a penalty only for an eligible validator that missed a flag other
than the head. -/
theorem getFlagIndexDeltas_getD {flagIndex : UInt8} {deltas : List UInt64 × List UInt64}
    (h : s.getFlagIndexDeltas flagIndex = .ok deltas) (i : Nat) :
    ∃ indices, s.getUnslashedParticipatingIndices flagIndex s.getPreviousEpoch = .ok indices ∧
      (deltas.1.getD i 0 = 0 ∨ i ∈ s.getEligibleValidatorIndices ∧ i ∈ indices ∧
        s.isInInactivityLeak = false) ∧
      (deltas.2.getD i 0 = 0 ∨ i ∈ s.getEligibleValidatorIndices ∧ i ∉ indices ∧
        flagIndex ≠ TIMELY_HEAD_FLAG_INDEX) ∧
      (deltas.1.getD i 0).toNat < 2 ^ 58 := by
  obtain ⟨c, rfl, hc, hindices, hloop⟩ := getFlagIndexDeltas_eq h
  obtain ⟨hrewards, hpenalties⟩ := flagDeltas_written hloop i
  refine ⟨_, hindices, ?_, ?_, flagDeltas_reward_lt getEligibleValidatorIndices_nodup hc hloop i⟩
  · refine hrewards.imp_left fun hsame => ?_
    rw [List.getD_eq_getElem?_getD, hsame]
    simp
  · refine hpenalties.imp_left fun hsame => ?_
    rw [List.getD_eq_getElem?_getD, hsame]
    simp

/-- The inactivity deltas at one validator: no reward, and a penalty only for an eligible
validator that missed the target. -/
theorem getInactivityPenaltyDeltas_getD {deltas : List UInt64 × List UInt64}
    (h : s.getInactivityPenaltyDeltas = .ok deltas) (i : Nat) :
    ∃ matchingTargetIndices,
      s.getUnslashedParticipatingIndices TIMELY_TARGET_FLAG_INDEX s.getPreviousEpoch =
        .ok matchingTargetIndices ∧
      deltas.1.getD i 0 = 0 ∧
      (deltas.2.getD i 0 = 0 ∨ i ∈ s.getEligibleValidatorIndices ∧ i ∉ matchingTargetIndices) := by
  obtain ⟨m, hm, hrewards, hloop⟩ := getInactivityPenaltyDeltas_eq h
  refine ⟨m, hm, by simp [hrewards], (inactivityPenalties_written hloop i).imp_left fun hsame => ?_⟩
  rw [List.getD_eq_getElem?_getD, hsame]
  simp

end BeaconState

/-! ## Applying the deltas -/

/-- The inner loop applies each validator's pair of deltas to its own balance, and writes nothing
else. -/
theorem applyDeltas_eq {deltas : List UInt64 × List UInt64} (h : applyDeltas s deltas = .ok t) :
    t = { s with balances := t.balances } ∧ t.balances.length = s.balances.length ∧
      ∀ i, t.balances[i]? = if i < s.validators.length
        then (s.balances[i]?).map (applyDeltaAt i · deltas) else s.balances[i]? := by
  unfold applyDeltas at h
  have hrun := Loop.foldlM_index_invariant (fun k u => ∃ balances, u = { s with balances } ∧
      balances.length = s.balances.length ∧
      ∀ i, balances[i]? = if i < k then (s.balances[i]?).map (applyDeltaAt i · deltas)
        else s.balances[i]?)
    ⟨s.balances, rfl, rfl, fun i => by simp⟩ (fun k hk u u' hu hstep => ?_) h
  · obtain ⟨balances, rfl, hlength, hbalances⟩ := hrun
    rw [List.length_range] at hbalances
    exact ⟨rfl, hlength, hbalances⟩
  obtain ⟨balances, rfl, hlength, hbalances⟩ := hu
  rw [List.getElem_range] at hstep
  obtain ⟨-, rfl⟩ := applyDeltaStep_eq hstep
  refine ⟨_, rfl, by rw [List.length_modify, hlength], fun i => ?_⟩
  by_cases hik : i = k
  · subst hik
    rw [List.getElem?_modify_eq, hbalances, if_neg (Nat.lt_irrefl i), if_pos (Nat.lt_succ_self i)]
    rfl
  · rw [List.getElem?_modify_ne _ _ (Ne.symm hik), hbalances]
    have hiff : i < k ↔ i < k + 1 := by omega
    simp only [hiff]

/-- The pairs applied one after another, read at one balance: the balance goes through each
pair's update in turn. -/
theorem foldlM_applyDeltas : ∀ {D : List (List UInt64 × List UInt64)} {s t : BeaconState},
    D.foldlM applyDeltas s = .ok t →
      t = { s with balances := t.balances } ∧ t.balances.length = s.balances.length ∧
        ∀ i, t.balances[i]? = if i < s.validators.length
          then (s.balances[i]?).map (D.foldl (applyDeltaAt i)) else s.balances[i]?
  | [], s, t, h => by
    cases Except.pure_eq_ok.mp h
    refine ⟨rfl, rfl, fun i => ?_⟩
    split <;> simp
  | d :: D, s, t, h => by
    rw [List.foldlM_cons] at h
    obtain ⟨u, hu, hrest⟩ := Except.bind_eq_ok.mp h
    obtain ⟨hframe, hlength, hbalances⟩ := applyDeltas_eq hu
    obtain ⟨hframe', hlength', hbalances'⟩ := foldlM_applyDeltas hrest
    have hvalidators : u.validators = s.validators := by rw [hframe]
    refine ⟨?_, hlength'.trans hlength, fun i => ?_⟩
    · rw [hframe', hframe]
    · rw [hbalances', hvalidators, hbalances]
      split
      · rw [Option.map_map]
        rfl
      · rfl

theorem foldl_applyDeltaAt_of_zero {i : Nat} :
    ∀ {D : List (List UInt64 × List UInt64)} (balance : UInt64),
      (∀ d ∈ D, d.1.getD i 0 = 0 ∧ d.2.getD i 0 = 0) → D.foldl (applyDeltaAt i) balance = balance
  | [], _, _ => rfl
  | d :: D, balance, hD => by
    obtain ⟨hreward, hpenalty⟩ := hD d List.mem_cons_self
    rw [List.foldl_cons, applyDeltaAt, hreward, hpenalty, UInt64.add_zero, saturatingSub_zero]
    exact foldl_applyDeltaAt_of_zero balance fun d' hd' => hD d' (List.mem_cons_of_mem d hd')

theorem foldl_applyDeltaAt_le {i : Nat} :
    ∀ {D : List (List UInt64 × List UInt64)} (balance : UInt64),
      (∀ d ∈ D, d.1.getD i 0 = 0) → D.foldl (applyDeltaAt i) balance ≤ balance
  | [], _, _ => UInt64.le_refl _
  | d :: D, balance, hD => by
    rw [List.foldl_cons]
    have hstep : applyDeltaAt i balance d ≤ balance := by
      rw [applyDeltaAt, hD d List.mem_cons_self, UInt64.add_zero]
      exact saturatingSub_le _ _
    exact UInt64.le_trans
      (foldl_applyDeltaAt_le _ fun d' hd' => hD d' (List.mem_cons_of_mem d hd')) hstep

/-- With no penalty and rewards below `2 ^ 58` at a validator, its balance can only go up, as
long as the rewards cannot wrap it. -/
theorem le_foldl_applyDeltaAt {i : Nat} :
    ∀ {D : List (List UInt64 × List UInt64)} (balance : UInt64),
      (∀ d ∈ D, d.2.getD i 0 = 0 ∧ (d.1.getD i 0).toNat < 2 ^ 58) →
        balance.toNat + D.length * 2 ^ 58 < 2 ^ 64 →
        balance.toNat ≤ (D.foldl (applyDeltaAt i) balance).toNat
  | [], _, _, _ => le_rfl
  | d :: D, balance, hD, hfit => by
    obtain ⟨hpenalty, hreward⟩ := hD d List.mem_cons_self
    rw [List.length_cons] at hfit
    have hadd : (balance + d.1.getD i 0).toNat = balance.toNat + (d.1.getD i 0).toNat := by
      rw [UInt64.toNat_add, Nat.mod_eq_of_lt (by omega)]
    have hstep : (applyDeltaAt i balance d).toNat = balance.toNat + (d.1.getD i 0).toNat := by
      rw [applyDeltaAt, hpenalty, saturatingSub_zero, hadd]
    rw [List.foldl_cons]
    calc balance.toNat ≤ (applyDeltaAt i balance d).toNat := by omega
      _ ≤ _ := le_foldl_applyDeltaAt _ (fun d' hd' => hD d' (List.mem_cons_of_mem d hd'))
          (by omega)

theorem applyDeltas_ok (deltas : List UInt64 × List UInt64)
    (hbalances : s.balances.length = s.validators.length)
    (hrewards : s.validators.length ≤ deltas.1.length)
    (hpenalties : s.validators.length ≤ deltas.2.length) :
    ∃ t, applyDeltas s deltas = .ok t ∧ t = { s with balances := t.balances } ∧
      t.balances.length = s.balances.length := by
  have hstep : ∀ u k, k ∈ List.range s.validators.length →
      (∃ balances, u = { s with balances } ∧ balances.length = s.balances.length) →
      ∃ u', applyDeltaStep deltas u k = .ok u' ∧
        ∃ balances, u' = { s with balances } ∧ balances.length = s.balances.length := by
    rintro u k hk ⟨balances, rfl, hlength⟩
    have hk' : k < s.validators.length := List.mem_range.mp hk
    obtain ⟨u', hu'⟩ : ∃ u', applyDeltaStep deltas { s with balances } k = .ok u' :=
      applyDeltaStep_ok (by show k < balances.length; omega) (by omega) (by omega)
    obtain ⟨-, rfl⟩ := applyDeltaStep_eq hu'
    exact ⟨_, hu', _, rfl, by simpa using hlength⟩
  obtain ⟨t, ht, balances, rfl, hlength⟩ := Loop.foldlM_ok _ hstep ⟨s.balances, rfl, rfl⟩
  exact ⟨_, ht, rfl, hlength⟩

namespace BeaconState

theorem getFlagIndexDeltas_length {flagIndex : UInt8} {deltas : List UInt64 × List UInt64}
    (h : s.getFlagIndexDeltas flagIndex = .ok deltas) :
    deltas.1.length = s.validators.length ∧ deltas.2.length = s.validators.length := by
  obtain ⟨c, -, -, -, hloop⟩ := getFlagIndexDeltas_eq h
  refine Loop.foldlM_invariant (fun acc : List UInt64 × List UInt64 =>
      acc.1.length = s.validators.length ∧ acc.2.length = s.validators.length)
    (fun acc x acc' hacc hstep => ?_) (by simp) hloop
  obtain ⟨hrewards, hpenalties⟩ := flagDeltaStep_length hstep
  exact ⟨hrewards.trans hacc.1, hpenalties.trans hacc.2⟩

theorem getInactivityPenaltyDeltas_length {deltas : List UInt64 × List UInt64}
    (h : s.getInactivityPenaltyDeltas = .ok deltas) :
    deltas.1.length = s.validators.length ∧ deltas.2.length = s.validators.length := by
  obtain ⟨m, -, hrewards, hloop⟩ := getInactivityPenaltyDeltas_eq h
  refine ⟨by simp [hrewards], Loop.foldlM_invariant
    (fun acc : List UInt64 => acc.length = s.validators.length)
    (fun acc x acc' hacc hstep => (inactivityPenaltyStep_length hstep).trans hacc) (by simp) hloop⟩

theorem getFlagIndexDeltas_ok (hs : s.RegistryWellFormed) {flagIndex : UInt8}
    (hflag : flagIndex.toNat < PARTICIPATION_FLAG_WEIGHTS.length) :
    ∃ deltas, s.getFlagIndexDeltas flagIndex = .ok deltas := by
  obtain ⟨indices, hindices, hmem⟩ := s.getUnslashedParticipatingIndices_ok hs flagIndex
  obtain ⟨total, htotal⟩ : ∃ total, s.getTotalBalance indices = .ok total :=
    s.getTotalBalance_ok fun i hi => by
      obtain ⟨v, hv, -⟩ := (hmem i).mp hi
      exact (List.getElem?_eq_some_iff.mp hv).1
  have hstep : ∀ (c : FlagContext) (acc : List UInt64 × List UInt64) x,
      x ∈ s.getEligibleValidatorIndices →
      acc.1.length = s.validators.length ∧ acc.2.length = s.validators.length →
      ∃ acc', flagDeltaStep s c acc x = .ok acc' ∧
        acc'.1.length = s.validators.length ∧ acc'.2.length = s.validators.length := by
    intro c acc x hx hacc
    obtain ⟨v, hv, -⟩ := mem_getEligibleValidatorIndices hx
    obtain ⟨acc', hacc'⟩ := flagDeltaStep_ok (c := c) (List.getElem?_eq_some_iff.mp hv).1
      hacc.1 hacc.2
    obtain ⟨hrewards, hpenalties⟩ := flagDeltaStep_length hacc'
    exact ⟨acc', hacc', hrewards.trans hacc.1, hpenalties.trans hacc.2⟩
  unfold getFlagIndexDeltas
  dsimp only
  rw [hindices, Except.ok_bind, vecIndex_of_lt 0 hflag, Except.ok_bind, htotal, Except.ok_bind]
  exact (Loop.foldlM_ok _ (hstep _) (by simp)).imp fun _ hdeltas => hdeltas.1

theorem getInactivityPenaltyDeltas_ok (hs : s.RegistryWellFormed) :
    ∃ deltas, s.getInactivityPenaltyDeltas = .ok deltas := by
  obtain ⟨indices, hindices, -⟩ := s.getUnslashedParticipatingIndices_ok hs TIMELY_TARGET_FLAG_INDEX
  have hstep : ∀ (acc : List UInt64) x, x ∈ s.getEligibleValidatorIndices →
      acc.length = s.validators.length →
      ∃ acc', inactivityPenaltyStep s indices acc x = .ok acc' ∧
        acc'.length = s.validators.length := by
    intro acc x hx hacc
    obtain ⟨v, hv, -⟩ := mem_getEligibleValidatorIndices hx
    obtain ⟨acc', hacc'⟩ : ∃ acc', inactivityPenaltyStep s indices acc x = .ok acc' :=
      inactivityPenaltyStep_ok (List.getElem?_eq_some_iff.mp hv).1 hs.inactivityScores_length hacc
    exact ⟨acc', hacc', (inactivityPenaltyStep_length hacc').trans hacc⟩
  unfold getInactivityPenaltyDeltas
  dsimp only
  rw [hindices, Except.ok_bind]
  obtain ⟨penalties, hpenalties, -⟩ : ∃ penalties, s.getEligibleValidatorIndices.foldlM
      (inactivityPenaltyStep s indices) (List.replicate s.validators.length 0) = .ok penalties ∧
      penalties.length = s.validators.length :=
    Loop.foldlM_ok _ hstep (by simp)
  rw [hpenalties, Except.ok_bind]
  exact ⟨_, rfl⟩

/-- What `process_rewards_and_penalties` does: nothing at the genesis epoch; otherwise the three
flags' deltas and the inactivity deltas, all got from the state it starts from, go through the
registry one pair after another. -/
theorem processRewardsAndPenalties_eq (h : s.processRewardsAndPenalties = .ok t) :
    s.getCurrentEpoch = GENESIS_EPOCH ∧ t = s ∨
      s.getCurrentEpoch ≠ GENESIS_EPOCH ∧ ∃ flagDeltas inactivityPenaltyDeltas,
        (List.range PARTICIPATION_FLAG_WEIGHTS.length).mapM
          (fun flagIndex => s.getFlagIndexDeltas flagIndex.toUInt8) = .ok flagDeltas ∧
        s.getInactivityPenaltyDeltas = .ok inactivityPenaltyDeltas ∧
        (flagDeltas ++ [inactivityPenaltyDeltas]).foldlM applyDeltas s = .ok t := by
  unfold processRewardsAndPenalties at h
  split at h
  case isTrue hgenesis => exact .inl ⟨hgenesis, (Except.pure_eq_ok.mp h).symm⟩
  case isFalse hgenesis =>
    obtain ⟨flagDeltas, hflags, h⟩ := Except.bind_eq_ok.mp h
    obtain ⟨inactivityPenaltyDeltas, hinactivity, h⟩ := Except.bind_eq_ok.mp h
    exact .inr ⟨hgenesis, flagDeltas, inactivityPenaltyDeltas, hflags, hinactivity, h⟩

/-- `process_rewards_and_penalties` writes the balances alone, and no more of them than there
were. -/
theorem processRewardsAndPenalties_frame (h : s.processRewardsAndPenalties = .ok t) :
    t = { s with balances := t.balances } ∧ t.balances.length = s.balances.length := by
  rcases processRewardsAndPenalties_eq h with
    ⟨-, rfl⟩ | ⟨-, flagDeltas, inactivityPenaltyDeltas, -, -, hloop⟩
  · exact ⟨rfl, rfl⟩
  · obtain ⟨hframe, hlength, -⟩ := foldlM_applyDeltas hloop
    exact ⟨hframe, hlength⟩

theorem processRewardsAndPenalties_wellFormed (h : s.processRewardsAndPenalties = .ok t)
    (hs : s.RegistryWellFormed) : t.RegistryWellFormed := by
  obtain ⟨hframe, hlength⟩ := processRewardsAndPenalties_frame h
  rw [hframe]
  exact hs.of_lengths rfl hlength rfl rfl rfl

theorem getPreviousEpoch_ne (h : s.getCurrentEpoch ≠ GENESIS_EPOCH) :
    s.getPreviousEpoch ≠ s.getCurrentEpoch := by
  unfold getPreviousEpoch
  have hgenesis : GENESIS_EPOCH = 0 := rfl
  simp only [if_neg h]
  omega

/-- Read at each balance, `process_rewards_and_penalties` puts it through at most four pairs of
deltas of the state it starts from, each the deltas of a flag or the inactivity deltas, and at
the genesis epoch through none. -/
theorem processRewardsAndPenalties_getElem? (h : s.processRewardsAndPenalties = .ok t) :
    t = { s with balances := t.balances } ∧
      ∃ D : List (List UInt64 × List UInt64), D.length ≤ 4 ∧
        (D ≠ [] → s.getCurrentEpoch ≠ GENESIS_EPOCH) ∧
        (∀ d ∈ D, (∃ flagIndex < PARTICIPATION_FLAG_WEIGHTS.length,
            s.getFlagIndexDeltas flagIndex.toUInt8 = .ok d) ∨
          s.getInactivityPenaltyDeltas = .ok d) ∧
        ∀ i, t.balances[i]? = if i < s.validators.length
          then (s.balances[i]?).map (D.foldl (applyDeltaAt i)) else s.balances[i]? := by
  rcases processRewardsAndPenalties_eq h with
    ⟨-, rfl⟩ | ⟨hgenesis, flagDeltas, inactivityPenaltyDeltas, hflags, hinactivity, hloop⟩
  · refine ⟨rfl, [], by simp, fun hne => absurd rfl hne, by simp, fun i => ?_⟩
    split <;> simp
  · obtain ⟨hframe, -, hbalances⟩ := foldlM_applyDeltas hloop
    have hlength : flagDeltas.length = 3 := by
      rw [Loop.length_of_mapM_eq_ok hflags, List.length_range]
      rfl
    refine ⟨hframe, flagDeltas ++ [inactivityPenaltyDeltas], by simp [hlength], fun _ => hgenesis,
      fun d hd => ?_, hbalances⟩
    rcases List.mem_append.mp hd with hflag | hinactivity'
    · obtain ⟨flagIndex, hmem, hd'⟩ := Loop.mem_of_mapM_eq_ok hflags d hflag
      exact .inl ⟨flagIndex, List.mem_range.mp hmem, hd'⟩
    · rw [List.mem_singleton.mp hinactivity']
      exact .inr hinactivity

end BeaconState

/-! ## Five validators at epoch 3 -/

/-- A validator of 32 ETH, active from genesis on. -/
def attester (publicKey : Nat) : Validator :=
  ⟨publicKey, 0, 32000000000, false, 0, 0, FAR_FUTURE_EPOCH, FAR_FUTURE_EPOCH⟩

/-- At epoch 3, validator 0 made every flag in the previous epoch, validator 1 none, validator 2
the source only; validator 3 is slashed and validator 4 not yet active. -/
def rewardState : BeaconState :=
  { emptyRegistry with
    slot := 96
    validators := [attester 0, attester 1, attester 2,
      { attester 3 with slashed := true, exitEpoch := 10, withdrawableEpoch := 100 },
      { attester 4 with activationEpoch := FAR_FUTURE_EPOCH }]
    balances := List.replicate 5 32000000000
    previousEpochParticipation := [7, 0, 1, 7, 7]
    currentEpochParticipation := List.replicate 5 0
    inactivityScores := [0, 8, 4, 4, 4] }

/-- The same registry at epoch 6, five epochs after the last finalized one: a leak. -/
def leakingRewardState : BeaconState := { rewardState with slot := 192 }

theorem rewardState_wellFormed : rewardState.RegistryWellFormed := by decide

/-- In an inactivity leak no flag rewards anyone, so `process_rewards_and_penalties` raises no
balance. -/
theorem BeaconState.processRewardsAndPenalties_leak_raises_none (h : s.processRewardsAndPenalties = .ok t)
    (hleak : s.isInInactivityLeak = true) {i : Nat} {balance balance' : UInt64}
    (hbalance : s.balances[i]? = some balance) (hbalance' : t.balances[i]? = some balance') :
    balance' ≤ balance := by
  obtain ⟨-, D, -, -, hD, hbalances⟩ := processRewardsAndPenalties_getElem? h
  rw [hbalances, hbalance] at hbalance'
  split at hbalance'
  · have hnoreward : ∀ d ∈ D, d.1.getD i 0 = 0 := fun d hd => by
      rcases hD d hd with ⟨flagIndex, -, hflag⟩ | hinactivity
      · obtain ⟨indices, -, hreward, -, -⟩ := getFlagIndexDeltas_getD hflag i
        refine hreward.resolve_right fun hrewarded => ?_
        rw [hleak] at hrewarded
        cases hrewarded.2.2
      · obtain ⟨m, -, hreward, -⟩ := getInactivityPenaltyDeltas_getD hinactivity i
        exact hreward
    rw [Option.map_some, Option.some.injEq] at hbalance'
    rw [← hbalance']
    exact foldl_applyDeltaAt_le balance hnoreward
  · rw [← Option.some.inj hbalance']
    exact UInt64.le_refl _

/-- In the leak the validator that made every flag gets nothing for it. -/
theorem leakingAttester_not_raised :
    ∃ t, leakingRewardState.processRewardsAndPenalties = .ok t ∧
      ∃ balance', t.balances[0]? = some balance' ∧ balance' ≤ 32000000000 :=
  ⟨_, rfl, _, rfl, BeaconState.processRewardsAndPenalties_leak_raises_none
    (s := leakingRewardState) (i := 0) rfl (by decide) rfl rfl⟩

/-- A validator neither active in the previous epoch nor slashed and still to become
withdrawable is not eligible: `process_rewards_and_penalties` leaves its balance as it is. -/
theorem BeaconState.processRewardsAndPenalties_ineligible_unchanged (h : s.processRewardsAndPenalties = .ok t)
    {i : Nat} {v : Validator} (hv : s.validators[i]? = some v)
    (hinactive : v.isActiveValidator s.getPreviousEpoch = false)
    (hwithdrawable : v.slashed = true → v.withdrawableEpoch ≤ s.getPreviousEpoch + 1) :
    t.balances[i]? = s.balances[i]? := by
  have hineligible : i ∉ s.getEligibleValidatorIndices := fun heligible => by
    obtain ⟨w, hw, hcondition⟩ := mem_getEligibleValidatorIndices heligible
    rw [hv, Option.some.injEq] at hw
    subst hw
    rcases hcondition with hactive | ⟨hslashed, hlt⟩
    · rw [hinactive] at hactive
      cases hactive
    · have hle := hwithdrawable hslashed
      omega
  obtain ⟨-, D, -, -, hD, hbalances⟩ := processRewardsAndPenalties_getElem? h
  have hzero : ∀ d ∈ D, d.1.getD i 0 = 0 ∧ d.2.getD i 0 = 0 := fun d hd => by
    rcases hD d hd with ⟨flagIndex, -, hflag⟩ | hinactivity
    · obtain ⟨indices, -, hreward, hpenalty, -⟩ := getFlagIndexDeltas_getD hflag i
      exact ⟨hreward.resolve_right fun hw => hineligible hw.1,
        hpenalty.resolve_right fun hw => hineligible hw.1⟩
    · obtain ⟨m, -, hreward, hpenalty⟩ := getInactivityPenaltyDeltas_getD hinactivity i
      exact ⟨hreward, hpenalty.resolve_right fun hw => hineligible hw.1⟩
  rw [hbalances]
  split
  · cases s.balances[i]? with
    | none => rfl
    | some balance => rw [Option.map_some, foldl_applyDeltaAt_of_zero balance hzero]
  · rfl

theorem pendingValidator_unchanged :
    ∃ t, rewardState.processRewardsAndPenalties = .ok t ∧
      t.balances[4]? = rewardState.balances[4]? :=
  ⟨_, rfl, BeaconState.processRewardsAndPenalties_ineligible_unchanged rfl rfl rfl (by decide)⟩

/-- A validator that made the timely source and target in the previous epoch, unslashed and
active then, is penalized by no flag and by no inactivity penalty: `process_rewards_and_penalties`
does not lower its balance, as long as the balance is below `2 ^ 63` and the rewards cannot wrap
it. -/
theorem BeaconState.processRewardsAndPenalties_timely_never_loses (h : s.processRewardsAndPenalties = .ok t)
    (hs : s.RegistryWellFormed) {i : Nat} {v : Validator} {flags : UInt8} {balance : UInt64}
    (hv : s.validators[i]? = some v) (hactive : v.isActiveValidator s.getPreviousEpoch = true)
    (hunslashed : v.slashed = false) (hflags : s.previousEpochParticipation[i]? = some flags)
    (hsource : Ream.Beacon.BeaconState.hasFlag flags TIMELY_SOURCE_FLAG_INDEX = true)
    (htarget : Ream.Beacon.BeaconState.hasFlag flags TIMELY_TARGET_FLAG_INDEX = true)
    (hbalance : s.balances[i]? = some balance) (hfit : balance.toNat < 2 ^ 63) :
    ∃ balance', t.balances[i]? = some balance' ∧ balance.toNat ≤ balance'.toNat := by
  obtain ⟨-, D, hlength, hgenesis, hD, hbalances⟩ := processRewardsAndPenalties_getElem? h
  have hi : i < s.validators.length := (List.getElem?_eq_some_iff.mp hv).1
  refine ⟨_, by rw [hbalances, if_pos hi, hbalance, Option.map_some], ?_⟩
  have hmember : D ≠ [] → ∀ (flagIndex : UInt8) indices,
      s.getUnslashedParticipatingIndices flagIndex s.getPreviousEpoch = .ok indices →
      Ream.Beacon.BeaconState.hasFlag flags flagIndex = true → i ∈ indices := by
    intro hne flagIndex indices hindices hflag
    obtain ⟨indices', hindices', hmem⟩ := s.getUnslashedParticipatingIndices_ok hs flagIndex
    rw [hindices, Except.ok.injEq] at hindices'
    subst hindices'
    have hprevious : s.previousParticipation = s.previousEpochParticipation :=
      if_neg (getPreviousEpoch_ne (hgenesis hne))
    refine (hmem i).mpr ⟨v, hv, hactive, hunslashed, ?_⟩
    rw [hprevious, List.getD_eq_getElem?_getD, hflags, Option.getD_some]
    exact hflag
  have hdeltas : ∀ d ∈ D, d.2.getD i 0 = 0 ∧ (d.1.getD i 0).toNat < 2 ^ 58 := fun d hd => by
    have hne : D ≠ [] := List.ne_nil_of_mem hd
    rcases hD d hd with ⟨flagIndex, hflagIndex, hflag⟩ | hinactivity
    · obtain ⟨indices, hindices, -, hpenalty, hreward⟩ := getFlagIndexDeltas_getD hflag i
      refine ⟨hpenalty.resolve_right ?_, hreward⟩
      rintro ⟨-, hmissed, hhead⟩
      have hflags3 : PARTICIPATION_FLAG_WEIGHTS.length = 3 := rfl
      have hcases : flagIndex = 0 ∨ flagIndex = 1 ∨ flagIndex = 2 := by omega
      rcases hcases with rfl | rfl | rfl
      · exact hmissed (hmember hne _ _ hindices hsource)
      · exact hmissed (hmember hne _ _ hindices htarget)
      · exact hhead rfl
    · obtain ⟨m, hm, hreward, hpenalty⟩ := getInactivityPenaltyDeltas_getD hinactivity i
      refine ⟨hpenalty.resolve_right fun hmissed => hmissed.2 (hmember hne _ _ hm htarget), ?_⟩
      rw [hreward]
      decide
  exact le_foldl_applyDeltaAt balance hdeltas (by omega)

theorem timelyAttester_keeps_balance :
    ∃ t, rewardState.processRewardsAndPenalties = .ok t ∧
      ∃ balance', t.balances[0]? = some balance' ∧
        (32000000000 : UInt64).toNat ≤ balance'.toNat :=
  ⟨_, rfl, BeaconState.processRewardsAndPenalties_timely_never_loses rfl rewardState_wellFormed
    rfl rfl rfl rfl (by decide) (by decide) rfl (by decide)⟩

/-- On a well-formed registry `process_rewards_and_penalties` always succeeds: every index its
loops read is a registry position and every list they index has one entry per validator. -/
theorem BeaconState.processRewardsAndPenalties_succeeds (hs : s.RegistryWellFormed) :
    ∃ t, s.processRewardsAndPenalties = .ok t := by
  unfold processRewardsAndPenalties
  split
  · exact ⟨s, rfl⟩
  · obtain ⟨flagDeltas, hflags⟩ := Loop.mapM_ok
      (f := fun flagIndex : Nat => s.getFlagIndexDeltas flagIndex.toUInt8)
      (l := List.range PARTICIPATION_FLAG_WEIGHTS.length) fun flagIndex hflagIndex =>
        s.getFlagIndexDeltas_ok hs (by
          have hlt : flagIndex < 3 := List.mem_range.mp hflagIndex
          show flagIndex.toUInt8.toNat < 3
          simp
          omega)
    obtain ⟨inactivityPenaltyDeltas, hinactivity⟩ := s.getInactivityPenaltyDeltas_ok hs
    rw [hflags, Except.ok_bind, hinactivity, Except.ok_bind]
    have hstep : ∀ u d, d ∈ flagDeltas ++ [inactivityPenaltyDeltas] →
        (∃ balances, u = { s with balances } ∧ balances.length = s.validators.length) →
        ∃ u', applyDeltas u d = .ok u' ∧
          ∃ balances, u' = { s with balances } ∧ balances.length = s.validators.length := by
      rintro u d hd ⟨balances, rfl, hlength⟩
      have hd' : d.1.length = s.validators.length ∧ d.2.length = s.validators.length := by
        rcases List.mem_append.mp hd with hflag | hinactivity'
        · obtain ⟨flagIndex, -, hflagIndex⟩ := Loop.mem_of_mapM_eq_ok hflags d hflag
          exact getFlagIndexDeltas_length hflagIndex
        · rw [List.mem_singleton.mp hinactivity']
          exact getInactivityPenaltyDeltas_length hinactivity
      obtain ⟨u', hu', hframe, hlength'⟩ := applyDeltas_ok (s := { s with balances }) d hlength
        hd'.1.symm.le hd'.2.symm.le
      exact ⟨u', hu', u'.balances, hframe, hlength'.trans hlength⟩
    exact (Loop.foldlM_ok _ hstep ⟨s.balances, rfl, hs.balances_length⟩).imp fun _ h => h.1

theorem rewardState_succeeds :
    rewardState.RegistryWellFormed ∧ ∃ t, rewardState.processRewardsAndPenalties = .ok t :=
  ⟨rewardState_wellFormed, BeaconState.processRewardsAndPenalties_succeeds rewardState_wellFormed⟩

end Ream.Beacon.Electra
