import Ream.Beacon.Registry
import Ream.Lib.Loop

/-!
# The withdrawal sweep

`get_expected_withdrawals` and `process_withdrawals` of the Electra `BeaconState`: the matured
partial withdrawals, then a sweep from `next_withdrawal_validator_index`, both `for` loops with
`break` (`Loop.breakLoop`). The cursor update `latest.validator_index + 1 % len` is kept as written.
-/

namespace Ream.Beacon.Electra

open Ream.Consensus (B256)

def MAX_WITHDRAWALS_PER_PAYLOAD : Nat := 16

def MAX_VALIDATORS_PER_WITHDRAWALS_SWEEP : Nat := 16384

def MAX_PENDING_PARTIALS_PER_WITHDRAWALS_SWEEP : Nat := 8

structure Withdrawal where
  index : Nat
  validatorIndex : Nat
  address : Nat
  amount : UInt64
  deriving DecidableEq, Repr

/-- Rust's `a % n`: a panic when `n` is zero. -/
def rustRem (a n : Nat) : Except String Nat :=
  if n = 0 then .error "attempt to calculate the remainder with a divisor of zero"
  else .ok (a % n)

/-- What the withdrawals so far take from one validator, summed as `u64`. -/
def withdrawnFrom (withdrawals : List Withdrawal) (validatorIndex : Nat) : UInt64 :=
  ((withdrawals.filter (·.validatorIndex = validatorIndex)).map (·.amount)).sum

/-- The same total as a number. -/
def withdrawnTotal (withdrawals : List Withdrawal) (validatorIndex : Nat) : Nat :=
  ((withdrawals.filter (·.validatorIndex = validatorIndex)).map (·.amount.toNat)).sum

/-- The accumulators of `get_expected_withdrawals`. -/
structure SweepState where
  withdrawalIndex : Nat
  validatorIndex : Nat
  withdrawals : List Withdrawal
  processedPartialWithdrawalsCount : Nat

/-- `withdrawals.push(..)` with the next withdrawal index, which then moves on. -/
def SweepState.push (acc : SweepState) (validatorIndex address : Nat) (amount : UInt64) :
    SweepState :=
  { acc with
    withdrawals := acc.withdrawals ++ [⟨acc.withdrawalIndex, validatorIndex, address, amount⟩]
    withdrawalIndex := acc.withdrawalIndex + 1 }

/-- A withdrawal pushed when there is one to make. -/
def SweepState.pushIf (acc : SweepState) (validatorIndex address : Nat) :
    Option UInt64 → SweepState
  | some amount => acc.push validatorIndex address amount
  | none => acc

/-- The amount a matured partial withdrawal pays from a validator with `balance` left: what
lies above `MIN_ACTIVATION_BALANCE`, up to the request, for an active validator that is not
exiting. -/
def partialWithdrawalAmount (validator : Validator) (balance : UInt64)
    (withdrawal : PendingPartialWithdrawal) : Option UInt64 :=
  if validator.exitEpoch = FAR_FUTURE_EPOCH ∧
      MIN_ACTIVATION_BALANCE ≤ validator.effectiveBalance ∧ MIN_ACTIVATION_BALANCE < balance
  then some (min (balance - MIN_ACTIVATION_BALANCE) withdrawal.amount)
  else none

/-- The amount the sweep withdraws from a validator with `balance` left: all of it when the
validator is fully withdrawable, the excess over its maximum effective balance when it is
partially withdrawable. -/
def sweepWithdrawalAmount (validator : Validator) (balance : UInt64) (epoch : Nat) :
    Option UInt64 :=
  if validator.isFullyWithdrawableValidator balance epoch then some balance
  else if validator.isPartiallyWithdrawableValidator balance then
    some (balance - validator.getMaxEffectiveBalance)
  else none

namespace BeaconState

variable (s : BeaconState) (epoch : Nat)

/-- One pass of the loop over `pending_partial_withdrawals`: stop at the first entry not yet
withdrawable or once the partials fill their share, else pay what `partialWithdrawalAmount`
says and count the entry. -/
def partialWithdrawalStep (acc : SweepState) (withdrawal : PendingPartialWithdrawal) :
    Except String (SweepState × Bool) :=
  if epoch < withdrawal.withdrawableEpoch ∨
      acc.withdrawals.length = MAX_PENDING_PARTIALS_PER_WITHDRAWALS_SWEEP then .ok (acc, true)
  else
    match s.validators[withdrawal.validatorIndex]? with
    | none => .error s!"Validator index out of bounds: {withdrawal.validatorIndex}"
    | some validator =>
      let totalWithdrawn := withdrawnFrom acc.withdrawals withdrawal.validatorIndex
      match s.balances[withdrawal.validatorIndex]? with
      | none => .error s!"Balance index out of bounds: {withdrawal.validatorIndex}"
      | some balance =>
        let balance := balance - totalWithdrawn
        let acc := acc.pushIf withdrawal.validatorIndex
          (credentialAddress validator.withdrawalCredentials)
          (partialWithdrawalAmount validator balance withdrawal)
        .ok ({ acc with processedPartialWithdrawalsCount := acc.processedPartialWithdrawalsCount + 1 },
          false)

/-- One pass of the sweep: withdraw what `sweepWithdrawalAmount` says from the validator at the
cursor, then stop at a full payload or move the cursor on, around the registry. -/
def sweepStep (acc : SweepState) (_ : Nat) : Except String (SweepState × Bool) :=
  match s.validators[acc.validatorIndex]? with
  | none => .error s!"Validator index out of bounds: {acc.validatorIndex}"
  | some validator =>
    let partiallyWithdrawnBalance := withdrawnFrom acc.withdrawals acc.validatorIndex
    match s.balances[acc.validatorIndex]? with
    | none => .error s!"Balance index out of bounds: {acc.validatorIndex}"
    | some balance =>
      let balance := balance - partiallyWithdrawnBalance
      let acc := acc.pushIf acc.validatorIndex (credentialAddress validator.withdrawalCredentials)
        (sweepWithdrawalAmount validator balance epoch)
      if acc.withdrawals.length = MAX_WITHDRAWALS_PER_PAYLOAD then .ok (acc, true)
      else .ok ({ acc with validatorIndex := (acc.validatorIndex + 1) % s.validators.length }, false)

/-- `get_expected_withdrawals`: the withdrawals and how many pending partial withdrawals the
first loop processed. -/
def getExpectedWithdrawals : Except String (List Withdrawal × Nat) := do
  let epoch := s.getCurrentEpoch
  let acc ← Loop.breakLoop (s.partialWithdrawalStep epoch)
    ⟨s.nextWithdrawalIndex, s.nextWithdrawalValidatorIndex, [], 0⟩ s.pendingPartialWithdrawals
  let bound := min s.validators.length MAX_VALIDATORS_PER_WITHDRAWALS_SWEEP
  let acc ← Loop.breakLoop (s.sweepStep epoch) acc (List.range bound)
  pure (acc.withdrawals, acc.processedPartialWithdrawalsCount)

/-- The end of `process_withdrawals`: drop the processed partial withdrawals, number on from
the last withdrawal, and move the sweep cursor. -/
def updateWithdrawalCursors (expectedWithdrawals : List Withdrawal)
    (processedPartialWithdrawalsCount : Nat) : Except String BeaconState := do
  let nextWithdrawalIndex := match expectedWithdrawals.getLast? with
    | some latestWithdrawal => latestWithdrawal.index + 1
    | none => s.nextWithdrawalIndex
  let nextWithdrawalValidatorIndex ←
    if expectedWithdrawals.length = MAX_WITHDRAWALS_PER_PAYLOAD then do
      let latestValidatorIndex := (expectedWithdrawals.getLast?.map (·.validatorIndex)).getD 0
      -- `latest.validator_index + 1 % self.validators.len()`: the remainder is of `1`
      pure (latestValidatorIndex + (← rustRem 1 s.validators.length))
    else
      rustRem (s.nextWithdrawalValidatorIndex + MAX_VALIDATORS_PER_WITHDRAWALS_SWEEP)
        s.validators.length
  pure { s with
    pendingPartialWithdrawals := s.pendingPartialWithdrawals.drop processedPartialWithdrawalsCount
    nextWithdrawalIndex := nextWithdrawalIndex
    nextWithdrawalValidatorIndex := nextWithdrawalValidatorIndex }

/-- `process_withdrawals`: the payload must carry exactly the expected withdrawals; pay them,
then `updateWithdrawalCursors`. -/
def processWithdrawals (payloadWithdrawals : List Withdrawal) : Except String BeaconState := do
  let (expectedWithdrawals, processedPartialWithdrawalsCount) ← s.getExpectedWithdrawals
  if payloadWithdrawals ≠ expectedWithdrawals then
    throw "Withdrawals do not match expected withdrawals"
  let s ← expectedWithdrawals.foldlM
    (fun s withdrawal => s.decreaseBalance withdrawal.validatorIndex withdrawal.amount) s
  s.updateWithdrawalCursors expectedWithdrawals processedPartialWithdrawalsCount

end BeaconState

/-! ## Totals, pushes and amounts -/

theorem toNat_withdrawnFrom (withdrawals : List Withdrawal) (v : Nat) :
    (withdrawnFrom withdrawals v).toNat = withdrawnTotal withdrawals v % 2 ^ 64 := by
  rw [withdrawnFrom, toNat_sum, List.map_map]
  rfl

@[simp] theorem withdrawnTotal_nil (v : Nat) : withdrawnTotal [] v = 0 := rfl

theorem withdrawnTotal_append (withdrawals : List Withdrawal) (w : Withdrawal) (v : Nat) :
    withdrawnTotal (withdrawals ++ [w]) v =
      withdrawnTotal withdrawals v + if w.validatorIndex = v then w.amount.toNat else 0 := by
  unfold withdrawnTotal
  rw [List.filter_append, List.map_append, List.sum_append]
  by_cases hv : w.validatorIndex = v <;> simp [hv]

theorem withdrawnTotal_cons (w : Withdrawal) (withdrawals : List Withdrawal) (v : Nat) :
    withdrawnTotal (w :: withdrawals) v =
      (if w.validatorIndex = v then w.amount.toNat else 0) + withdrawnTotal withdrawals v := by
  unfold withdrawnTotal
  by_cases hv : w.validatorIndex = v <;> simp [hv]

namespace SweepState

variable (acc : SweepState) (validatorIndex address : Nat)

@[simp] theorem pushIf_withdrawals (o : Option UInt64) :
    (acc.pushIf validatorIndex address o).withdrawals =
      acc.withdrawals ++ (o.map fun amount => ⟨acc.withdrawalIndex, validatorIndex, address, amount⟩).toList := by
  cases o <;> simp [pushIf, push]

@[simp] theorem pushIf_validatorIndex (o : Option UInt64) :
    (acc.pushIf validatorIndex address o).validatorIndex = acc.validatorIndex := by
  cases o <;> rfl

@[simp] theorem pushIf_processed (o : Option UInt64) :
    (acc.pushIf validatorIndex address o).processedPartialWithdrawalsCount =
      acc.processedPartialWithdrawalsCount := by
  cases o <;> rfl

theorem length_pushIf_le (o : Option UInt64) :
    (acc.pushIf validatorIndex address o).withdrawals.length ≤ acc.withdrawals.length + 1 := by
  cases o <;> simp

end SweepState

theorem partialWithdrawalAmount_le {validator : Validator} {balance amount : UInt64}
    {withdrawal : PendingPartialWithdrawal}
    (h : partialWithdrawalAmount validator balance withdrawal = some amount) :
    amount.toNat ≤ balance.toNat := by
  unfold partialWithdrawalAmount at h
  split at h
  · rename_i hpay
    cases h
    have hmin : MIN_ACTIVATION_BALANCE ≤ balance := UInt64.le_of_lt hpay.2.2
    rw [UInt64.toNat_min, UInt64.toNat_sub_of_le _ _ hmin]
    omega
  · cases h

theorem sweepWithdrawalAmount_le {validator : Validator} {balance amount : UInt64} {epoch : Nat}
    (h : sweepWithdrawalAmount validator balance epoch = some amount) :
    amount.toNat ≤ balance.toNat := by
  unfold sweepWithdrawalAmount at h
  split at h
  · cases h
    exact le_rfl
  · split at h
    · rename_i hpartial
      cases h
      have hmax : validator.getMaxEffectiveBalance < balance := by
        simp only [Validator.isPartiallyWithdrawableValidator, Bool.and_eq_true, beq_iff_eq,
          decide_eq_true_eq] at hpartial
        exact hpartial.2
      rw [UInt64.toNat_sub_of_le _ _ (UInt64.le_of_lt hmax)]
      omega
    · cases h

/-! ## What both loops keep -/

/-- The withdrawal indices run on from `next_withdrawal_index`, every withdrawal names a
validator with a registry entry and a balance, and no validator has more taken than its
balance. -/
structure SweepState.Sound (s : BeaconState) (acc : SweepState) : Prop where
  indices : acc.withdrawals.map (·.index) = List.range' s.nextWithdrawalIndex acc.withdrawals.length
  withdrawalIndex_eq : acc.withdrawalIndex = s.nextWithdrawalIndex + acc.withdrawals.length
  validator_lt : ∀ w ∈ acc.withdrawals, w.validatorIndex < s.validators.length
  balance_lt : ∀ w ∈ acc.withdrawals, w.validatorIndex < s.balances.length
  within : ∀ v, withdrawnTotal acc.withdrawals v ≤ (s.balances.getD v 0).toNat

namespace SweepState.Sound

variable {s : BeaconState} {acc : SweepState} {v : Nat} {balance : UInt64}

theorem start : (⟨s.nextWithdrawalIndex, s.nextWithdrawalValidatorIndex, [], 0⟩ : SweepState).Sound s where
  indices := rfl
  withdrawalIndex_eq := rfl
  validator_lt := by simp
  balance_lt := by simp
  within := by simp

/-- What is left of a balance after the withdrawals so far is the exact difference: the `u64`
total does not wrap and the subtraction does not underflow. -/
theorem remaining (h : acc.Sound s) (hb : s.balances[v]? = some balance) :
    (balance - withdrawnFrom acc.withdrawals v).toNat =
      balance.toNat - withdrawnTotal acc.withdrawals v := by
  have hle : withdrawnTotal acc.withdrawals v ≤ balance.toNat := by
    simpa [List.getD_eq_getElem?_getD, hb] using h.within v
  have hfrom : (withdrawnFrom acc.withdrawals v).toNat = withdrawnTotal acc.withdrawals v := by
    rw [toNat_withdrawnFrom, Nat.mod_eq_of_lt (lt_of_le_of_lt hle balance.toNat_lt)]
  rw [UInt64.toNat_sub_of_le _ _ (UInt64.le_iff_toNat_le.mpr (hfrom ▸ hle)), hfrom]

theorem pushIf (h : acc.Sound s) (hv : s.validators[v]? ≠ none) (hb : s.balances[v]? = some balance)
    (address : Nat) (o : Option UInt64)
    (hle : ∀ amount ∈ o, amount.toNat ≤ balance.toNat - withdrawnTotal acc.withdrawals v) :
    (acc.pushIf v address o).Sound s := by
  cases o with
  | none => exact h
  | some amount =>
    have hvlt : v < s.validators.length := by
      by_contra hge
      exact hv (List.getElem?_eq_none (by omega))
    have hblt : v < s.balances.length := (List.getElem?_eq_some_iff.mp hb).1
    have hamount := hle amount rfl
    constructor
    · simp [SweepState.pushIf, SweepState.push, List.map_append, h.indices,
        List.range'_1_concat, h.withdrawalIndex_eq]
    · simp [SweepState.pushIf, SweepState.push, h.withdrawalIndex_eq]
      omega
    · intro w hw
      simp only [SweepState.pushIf_withdrawals, Option.map_some, Option.toList_some,
        List.mem_append, List.mem_singleton] at hw
      rcases hw with hw | rfl
      · exact h.validator_lt w hw
      · exact hvlt
    · intro w hw
      simp only [SweepState.pushIf_withdrawals, Option.map_some, Option.toList_some,
        List.mem_append, List.mem_singleton] at hw
      rcases hw with hw | rfl
      · exact h.balance_lt w hw
      · exact hblt
    · intro v'
      simp only [SweepState.pushIf_withdrawals, Option.map_some, Option.toList_some]
      rw [withdrawnTotal_append]
      have hold := h.within v'
      by_cases hv' : v = v'
      · subst hv'
        have hbal : (s.balances.getD v 0).toNat = balance.toNat := by
          simp [List.getD_eq_getElem?_getD, hb]
        simp only [if_true]
        omega
      · simpa [hv'] using hold

end SweepState.Sound

namespace SweepState.Sound

variable {s : BeaconState} {acc acc' : SweepState}

theorem congr (h : acc.Sound s) (hw : acc'.withdrawals = acc.withdrawals)
    (hi : acc'.withdrawalIndex = acc.withdrawalIndex) : acc'.Sound s where
  indices := by rw [hw]; exact h.indices
  withdrawalIndex_eq := by rw [hi, hw]; exact h.withdrawalIndex_eq
  validator_lt := by rw [hw]; exact h.validator_lt
  balance_lt := by rw [hw]; exact h.balance_lt
  within := by rw [hw]; exact h.within

end SweepState.Sound

/-- Two positions of one walk around a registry of `n` validators, fewer than `n` apart, are
different validators. -/
theorem add_mod_ne_add_mod {c j i n : Nat} (hji : j < i) (hin : i < n) :
    (c + j) % n ≠ (c + i) % n := by
  intro h
  have hzero := Nat.sub_mod_eq_zero_of_mod_eq h.symm
  rw [show c + i - (c + j) = i - j by omega, Nat.mod_eq_of_lt (by omega)] at hzero
  omega

namespace BeaconState

variable {s : BeaconState} {epoch : Nat}

/-- What one pass of the partial-withdrawal loop can do: break with the accumulators as they
were, or pay the entry's amount and count it. -/
theorem partialWithdrawalStep_ok {acc acc' : SweepState} {w : PendingPartialWithdrawal}
    {done : Bool} (h : s.partialWithdrawalStep epoch acc w = .ok (acc', done)) :
    (done = true ∧ acc' = acc) ∨
      (done = false ∧ acc.withdrawals.length ≠ MAX_PENDING_PARTIALS_PER_WITHDRAWALS_SWEEP ∧
        ∃ validator balance, s.validators[w.validatorIndex]? = some validator ∧
          s.balances[w.validatorIndex]? = some balance ∧
          acc' = { acc.pushIf w.validatorIndex (credentialAddress validator.withdrawalCredentials)
              (partialWithdrawalAmount validator
                (balance - withdrawnFrom acc.withdrawals w.validatorIndex) w) with
            processedPartialWithdrawalsCount := acc.processedPartialWithdrawalsCount + 1 }) := by
  unfold partialWithdrawalStep at h
  split at h
  · cases h
    exact .inl ⟨rfl, rfl⟩
  · rename_i hgo
    split at h
    · cases h
    · rename_i validator hvalidator
      split at h
      · cases h
      · rename_i balance hbalance
        cases h
        refine .inr ⟨rfl, fun heq => hgo (.inr heq), validator, balance, hvalidator, hbalance, ?_⟩
        simp

/-- What one pass of the sweep can do: read the validator at the cursor and its balance, pay
what `sweepWithdrawalAmount` says, then break at a full payload or move the cursor on. -/
theorem sweepStep_ok {acc acc' : SweepState} {x : Nat} {done : Bool}
    (h : s.sweepStep epoch acc x = .ok (acc', done)) :
    ∃ validator balance paid, s.validators[acc.validatorIndex]? = some validator ∧
      s.balances[acc.validatorIndex]? = some balance ∧
      paid = acc.pushIf acc.validatorIndex (credentialAddress validator.withdrawalCredentials)
        (sweepWithdrawalAmount validator
          (balance - withdrawnFrom acc.withdrawals acc.validatorIndex) epoch) ∧
      (done = true ∧ paid.withdrawals.length = MAX_WITHDRAWALS_PER_PAYLOAD ∧ acc' = paid ∨
        done = false ∧ paid.withdrawals.length ≠ MAX_WITHDRAWALS_PER_PAYLOAD ∧
          acc' = { paid with validatorIndex := (acc.validatorIndex + 1) % s.validators.length }) := by
  unfold sweepStep at h
  split at h
  · cases h
  · rename_i validator hvalidator
    split at h
    · cases h
    · rename_i balance hbalance
      refine ⟨validator, balance, _, hvalidator, hbalance, rfl, ?_⟩
      dsimp only at h
      split at h
      · rename_i hfull
        cases h
        exact .inl ⟨rfl, hfull, rfl⟩
      · rename_i hgo
        cases h
        exact .inr ⟨rfl, hgo, by simp⟩

/-- The partial-withdrawal loop after `k` entries that went on. -/
structure PartialsInv (s : BeaconState) (k : Nat) (acc : SweepState) : Prop where
  sound : acc.Sound s
  count : acc.processedPartialWithdrawalsCount = k
  length_le : acc.withdrawals.length ≤ MAX_PENDING_PARTIALS_PER_WITHDRAWALS_SWEEP
  cursor : acc.validatorIndex = s.nextWithdrawalValidatorIndex

theorem partialWithdrawalStep_inv {k : Nat} {acc acc' : SweepState} {w : PendingPartialWithdrawal}
    (hinv : PartialsInv s k acc) (h : s.partialWithdrawalStep epoch acc w = .ok (acc', false)) :
    PartialsInv s (k + 1) acc' := by
  rcases partialWithdrawalStep_ok h with ⟨hdone, -⟩ | ⟨-, hlen, validator, balance, hv, hb, rfl⟩
  · cases hdone
  · have hpaid := hinv.sound.pushIf (by simp [hv]) hb
      (credentialAddress validator.withdrawalCredentials)
      (partialWithdrawalAmount validator (balance - withdrawnFrom acc.withdrawals w.validatorIndex) w)
      (fun amount hmem => (partialWithdrawalAmount_le hmem).trans
        (le_of_eq (hinv.sound.remaining hb)))
    have hgrow := acc.length_pushIf_le w.validatorIndex
      (credentialAddress validator.withdrawalCredentials)
      (partialWithdrawalAmount validator (balance - withdrawnFrom acc.withdrawals w.validatorIndex) w)
    have hle := hinv.length_le
    refine ⟨hpaid.congr rfl rfl, by simp [hinv.count], ?_, by simp [hinv.cursor]⟩
    show (acc.pushIf _ _ _).withdrawals.length ≤ MAX_PENDING_PARTIALS_PER_WITHDRAWALS_SWEEP
    simp only [MAX_PENDING_PARTIALS_PER_WITHDRAWALS_SWEEP] at hlen hle ⊢
    omega

/-- The partial-withdrawal loop counts at most the queue's entries and leaves sound
accumulators with at most `MAX_PENDING_PARTIALS_PER_WITHDRAWALS_SWEEP` withdrawals. -/
theorem partialsLoop_ok {acc : SweepState}
    (h : Loop.breakLoop (s.partialWithdrawalStep epoch)
      ⟨s.nextWithdrawalIndex, s.nextWithdrawalValidatorIndex, [], 0⟩ s.pendingPartialWithdrawals = .ok acc) :
    ∃ k ≤ s.pendingPartialWithdrawals.length, PartialsInv s k acc := by
  refine Loop.breakLoop_spec (fun k acc => PartialsInv s k acc)
    (fun acc => ∃ k ≤ s.pendingPartialWithdrawals.length, PartialsInv s k acc)
    s.pendingPartialWithdrawals ?_ ?_ ?_ _ _ ⟨SweepState.Sound.start, rfl, by simp, rfl⟩ h
  · intro k _ acc acc' hinv hstep
    exact partialWithdrawalStep_inv hinv hstep
  · intro k hk acc acc' hinv hstep
    rcases partialWithdrawalStep_ok hstep with ⟨-, rfl⟩ | ⟨hdone, -⟩
    · exact ⟨k, hk.le, hinv⟩
    · cases hdone
  · intro acc hinv
    exact ⟨_, le_rfl, hinv⟩

/-- The sweep after `i` passes that went on, from the accumulators the partial loop left with
the withdrawals `ps` and count `k`: the sweep appends to `ps`, and every sweep withdrawal names
one of the first `i` positions of the walk from the cursor, and no validator twice. -/
structure SweepInv (s : BeaconState) (ps : List Withdrawal) (k i : Nat) (acc : SweepState) :
    Prop where
  sound : acc.Sound s
  count : acc.processedPartialWithdrawalsCount = k
  partials : ps <+: acc.withdrawals
  length_lt : acc.withdrawals.length < MAX_WITHDRAWALS_PER_PAYLOAD
  cursor : acc.validatorIndex = s.nextWithdrawalValidatorIndex ∧ i = 0 ∨
    acc.validatorIndex = (s.nextWithdrawalValidatorIndex + i) % s.validators.length
  visited : ∀ w ∈ acc.withdrawals.drop ps.length, ∃ j < i,
    w.validatorIndex = (s.nextWithdrawalValidatorIndex + j) % s.validators.length
  nodup : ((acc.withdrawals.drop ps.length).map (·.validatorIndex)).Nodup

/-- What the sweep leaves. -/
structure SweepDone (s : BeaconState) (ps : List Withdrawal) (k : Nat) (acc : SweepState) :
    Prop where
  sound : acc.Sound s
  count : acc.processedPartialWithdrawalsCount = k
  partials : ps <+: acc.withdrawals
  length_le : acc.withdrawals.length ≤ MAX_WITHDRAWALS_PER_PAYLOAD
  nodup : ((acc.withdrawals.drop ps.length).map (·.validatorIndex)).Nodup

theorem SweepDone.partials_le {ps : List Withdrawal} {k : Nat} {acc : SweepState}
    (h : SweepDone s ps k acc) : ps.length ≤ acc.withdrawals.length :=
  h.partials.length_le

theorem SweepInv.done {ps : List Withdrawal} {k i : Nat} {acc : SweepState}
    (h : SweepInv s ps k i acc) : SweepDone s ps k acc :=
  ⟨h.sound, h.count, h.partials, h.length_lt.le, h.nodup⟩

theorem SweepInv.cursor_eq {ps : List Withdrawal} {k i : Nat} {acc : SweepState} {validator : Validator}
    (h : SweepInv s ps k i acc) (hv : s.validators[acc.validatorIndex]? = some validator) :
    acc.validatorIndex = (s.nextWithdrawalValidatorIndex + i) % s.validators.length := by
  have hlt : acc.validatorIndex < s.validators.length := (List.getElem?_eq_some_iff.mp hv).1
  rcases h.cursor with ⟨hc, rfl⟩ | hc
  · rw [Nat.add_zero, ← hc, Nat.mod_eq_of_lt hlt]
  · exact hc

theorem sweepStep_inv {ps : List Withdrawal} {k i x : Nat} {acc acc' : SweepState} {done : Bool}
    (hi : i < s.validators.length) (hinv : SweepInv s ps k i acc)
    (h : s.sweepStep epoch acc x = .ok (acc', done)) :
    (done = false → SweepInv s ps k (i + 1) acc') ∧ (done = true → SweepDone s ps k acc') := by
  obtain ⟨validator, balance, paid, hv, hb, hpaid, hcases⟩ := sweepStep_ok h
  have hvi := hinv.cursor_eq hv
  have hsound : paid.Sound s := by
    rw [hpaid]
    exact hinv.sound.pushIf (by simp [hv]) hb _ _ fun amount hmem =>
      (sweepWithdrawalAmount_le hmem).trans (le_of_eq (hinv.sound.remaining hb))
  have hdrop : paid.withdrawals.drop ps.length = acc.withdrawals.drop ps.length ++
      ((sweepWithdrawalAmount validator (balance - withdrawnFrom acc.withdrawals acc.validatorIndex)
        epoch).map fun amount => (⟨acc.withdrawalIndex, acc.validatorIndex,
          credentialAddress validator.withdrawalCredentials, amount⟩ : Withdrawal)).toList := by
    rw [hpaid, SweepState.pushIf_withdrawals, List.drop_append_of_le_length hinv.partials.length_le]
  have hfresh : ∀ w ∈ acc.withdrawals.drop ps.length, w.validatorIndex ≠ acc.validatorIndex := by
    intro w hw heq
    obtain ⟨j, hj, hwj⟩ := hinv.visited w hw
    exact add_mod_ne_add_mod hj hi (hwj ▸ hvi ▸ heq)
  have hnew : ∀ w ∈ ((sweepWithdrawalAmount validator
      (balance - withdrawnFrom acc.withdrawals acc.validatorIndex) epoch).map fun amount =>
        (⟨acc.withdrawalIndex, acc.validatorIndex,
          credentialAddress validator.withdrawalCredentials, amount⟩ : Withdrawal)).toList,
      w.validatorIndex = acc.validatorIndex := by
    intro w hw
    obtain ⟨amount, -, rfl⟩ := Option.map_eq_some_iff.mp (Option.mem_toList.mp hw)
    rfl
  have hnodup : ((paid.withdrawals.drop ps.length).map (·.validatorIndex)).Nodup := by
    rw [hdrop, List.map_append]
    refine List.Nodup.append hinv.nodup ?_ ?_
    · cases sweepWithdrawalAmount validator _ epoch <;> simp
    · intro a ha hb'
      obtain ⟨w, hw, rfl⟩ := List.mem_map.mp ha
      obtain ⟨w', hw', heq⟩ := List.mem_map.mp hb'
      exact hfresh w hw (heq ▸ hnew w' hw')
  have hgrow : paid.withdrawals.length ≤ acc.withdrawals.length + 1 := by
    rw [hpaid]
    exact SweepState.length_pushIf_le _ _ _ _
  have hpartials : ps <+: paid.withdrawals := by
    rw [hpaid, SweepState.pushIf_withdrawals]
    exact hinv.partials.trans (List.prefix_append _ _)
  have hcount : paid.processedPartialWithdrawalsCount = k := by
    rw [hpaid, SweepState.pushIf_processed]
    exact hinv.count
  rcases hcases with ⟨rfl, hfull, rfl⟩ | ⟨rfl, hgo, rfl⟩
  · exact ⟨(fun hd => nomatch hd), fun _ => ⟨hsound, hcount, hpartials, hfull.le, hnodup⟩⟩
  · refine ⟨fun _ => ?_, fun hd => nomatch hd⟩
    have hlt := hinv.length_lt
    refine ⟨hsound.congr rfl rfl, hcount, hpartials, ?_, .inr ?_, ?_, hnodup⟩
    · simp only [MAX_WITHDRAWALS_PER_PAYLOAD] at hgo hlt ⊢
      omega
    · show (acc.validatorIndex + 1) % s.validators.length = _
      rw [hvi, Nat.mod_add_mod, Nat.add_assoc]
    · intro w hw
      rw [show ({ paid with validatorIndex := (acc.validatorIndex + 1) % s.validators.length } :
        SweepState).withdrawals = paid.withdrawals from rfl, hdrop] at hw
      rcases List.mem_append.mp hw with hw | hw
      · obtain ⟨j, hj, hwj⟩ := hinv.visited w hw
        exact ⟨j, by omega, hwj⟩
      · exact ⟨i, by omega, by rw [hnew w hw, hvi]⟩

theorem PartialsInv.sweepStart {k : Nat} {acc : SweepState} (h : PartialsInv s k acc) :
    SweepInv s acc.withdrawals k 0 acc where
  sound := h.sound
  count := h.count
  partials := List.prefix_refl _
  length_lt := by
    have := h.length_le
    simp only [MAX_PENDING_PARTIALS_PER_WITHDRAWALS_SWEEP, MAX_WITHDRAWALS_PER_PAYLOAD] at this ⊢
    omega
  cursor := .inl ⟨h.cursor, rfl⟩
  visited := by simp
  nodup := by simp

/-- The sweep over `min len MAX_VALIDATORS_PER_WITHDRAWALS_SWEEP` passes: fewer passes than
validators, so the walk from the cursor never comes back to a validator. -/
theorem sweepLoop_ok {ps : List Withdrawal} {k : Nat} {acc acc' : SweepState}
    (hstart : SweepInv s ps k 0 acc)
    (h : Loop.breakLoop (s.sweepStep epoch) acc
      (List.range (min s.validators.length MAX_VALIDATORS_PER_WITHDRAWALS_SWEEP)) = .ok acc') :
    SweepDone s ps k acc' := by
  refine Loop.breakLoop_spec (fun i acc => SweepInv s ps k i acc) (SweepDone s ps k) _ ?_ ?_ ?_
    _ _ hstart h
  · intro i hi acc acc' hinv hstep
    exact (sweepStep_inv (by simp at hi; omega) hinv hstep).1 rfl
  · intro i hi acc acc' hinv hstep
    exact (sweepStep_inv (by simp at hi; omega) hinv hstep).2 rfl
  · intro acc hinv
    exact hinv.done

/-- What a successful `get_expected_withdrawals` returns: the withdrawals of the sweep's last
accumulator, after a partial loop that made at most `MAX_PENDING_PARTIALS_PER_WITHDRAWALS_SWEEP`
of them and processed at most the queued partial withdrawals. -/
theorem getExpectedWithdrawals_ok {ws : List Withdrawal} {k : Nat}
    (h : s.getExpectedWithdrawals = .ok (ws, k)) :
    k ≤ s.pendingPartialWithdrawals.length ∧ ∃ accP : SweepState,
      Loop.breakLoop (s.partialWithdrawalStep s.getCurrentEpoch)
        ⟨s.nextWithdrawalIndex, s.nextWithdrawalValidatorIndex, [], 0⟩ s.pendingPartialWithdrawals =
          .ok accP ∧
      accP.withdrawals.length ≤ MAX_PENDING_PARTIALS_PER_WITHDRAWALS_SWEEP ∧
      ∃ acc : SweepState, SweepDone s accP.withdrawals k acc ∧ acc.withdrawals = ws := by
  unfold getExpectedWithdrawals at h
  obtain ⟨accP, hP, h⟩ := Except.bind_eq_ok.mp h
  obtain ⟨accS, hS, h⟩ := Except.bind_eq_ok.mp h
  rw [Except.pure_eq_ok, Prod.mk.injEq] at h
  obtain ⟨rfl, rfl⟩ := h
  obtain ⟨k, hk, hinv⟩ := partialsLoop_ok hP
  have hdone := sweepLoop_ok hinv.sweepStart hS
  obtain rfl := hdone.count
  exact ⟨hk, accP, hP, hinv.length_le, accS, hdone, rfl⟩

/-- The expected withdrawals are numbered on from `next_withdrawal_index`, and no validator's
total is above its balance. -/
theorem getExpectedWithdrawals_within {ws : List Withdrawal} {k : Nat}
    (h : s.getExpectedWithdrawals = .ok (ws, k)) :
    ws.map (·.index) = List.range' s.nextWithdrawalIndex ws.length ∧
      ∀ v, withdrawnTotal ws v ≤ (s.balances.getD v 0).toNat := by
  obtain ⟨-, accP, hP, hle, acc, hdone, rfl⟩ := getExpectedWithdrawals_ok h
  exact ⟨hdone.sound.indices, hdone.sound.within⟩

theorem getExpectedWithdrawals_sound {ws : List Withdrawal} {k : Nat}
    (h : s.getExpectedWithdrawals = .ok (ws, k)) :
    ∀ w ∈ ws, w.validatorIndex < s.balances.length := by
  obtain ⟨-, accP, hP, hle, acc, hdone, rfl⟩ := getExpectedWithdrawals_ok h
  exact hdone.sound.balance_lt

theorem getExpectedWithdrawals_validators {ws : List Withdrawal} {k : Nat}
    (h : s.getExpectedWithdrawals = .ok (ws, k)) :
    ∀ w ∈ ws, w.validatorIndex < s.validators.length := by
  obtain ⟨-, accP, hP, hle, acc, hdone, rfl⟩ := getExpectedWithdrawals_ok h
  exact hdone.sound.validator_lt

/-! ## Paying the withdrawals and moving the cursors -/

/-- Paying withdrawals whose totals fit the balances subtracts each total exactly: no
`decrease_balance` saturates. -/
theorem foldlM_decreaseBalance : ∀ (ws : List Withdrawal) (t : BeaconState),
    (∀ w ∈ ws, w.validatorIndex < t.balances.length) →
    (∀ v, withdrawnTotal ws v ≤ (t.balances.getD v 0).toNat) →
    ∃ t', ws.foldlM (fun s w => s.decreaseBalance w.validatorIndex w.amount) t = .ok t' ∧
      t' = { t with balances := t'.balances } ∧
      ∀ v, (t'.balances.getD v 0).toNat + withdrawnTotal ws v = (t.balances.getD v 0).toNat
  | [], t, _, _ => ⟨t, rfl, rfl, by simp⟩
  | w :: ws, t, hin, hwithin => by
    have hfirst := hwithin w.validatorIndex
    rw [withdrawnTotal_cons, if_pos rfl] at hfirst
    have hle : w.amount.toNat ≤ (t.balances.getD w.validatorIndex 0).toNat := by omega
    obtain ⟨t1, h1, ht1, hlen1, hbal1⟩ := t.decreaseBalance_of_le (hin w List.mem_cons_self) hle
    have hrest : ∀ v, withdrawnTotal ws v ≤ (t1.balances.getD v 0).toNat := by
      intro v
      have := hwithin v
      rw [withdrawnTotal_cons] at this
      rw [hbal1 v]
      by_cases hv : v = w.validatorIndex
      · rw [if_pos hv.symm] at this
        rw [if_pos hv]
        omega
      · rw [if_neg (Ne.symm hv)] at this
        rw [if_neg hv]
        omega
    obtain ⟨t', h', ht', hbal'⟩ := foldlM_decreaseBalance ws t1
      (fun w' hw' => hlen1 ▸ hin w' (List.mem_cons_of_mem _ hw')) hrest
    refine ⟨t', by rw [List.foldlM_cons, h1]; exact h', ht'.trans (by rw [ht1]), fun v => ?_⟩
    have hv := hbal' v
    have hall := hwithin v
    rw [hbal1 v] at hv
    rw [withdrawnTotal_cons] at hall ⊢
    by_cases hvw : v = w.validatorIndex
    · rw [if_pos hvw] at hv
      rw [if_pos hvw.symm] at hall ⊢
      omega
    · rw [if_neg hvw] at hv
      rw [if_neg (Ne.symm hvw)] at hall ⊢
      omega

/-- What `updateWithdrawalCursors` writes: the queue's processed prefix is dropped, the index
numbers on from the last withdrawal, and the sweep cursor moves as the source computes it. -/
theorem updateWithdrawalCursors_ok {ws : List Withdrawal} {k : Nat} {t : BeaconState}
    (h : s.updateWithdrawalCursors ws k = .ok t) :
    t = { s with
      pendingPartialWithdrawals := s.pendingPartialWithdrawals.drop k
      nextWithdrawalIndex := match ws.getLast? with
        | some latestWithdrawal => latestWithdrawal.index + 1
        | none => s.nextWithdrawalIndex
      nextWithdrawalValidatorIndex := t.nextWithdrawalValidatorIndex } ∧
      0 < s.validators.length ∧
      t.nextWithdrawalValidatorIndex =
        if ws.length = MAX_WITHDRAWALS_PER_PAYLOAD then
          (ws.getLast?.map (·.validatorIndex)).getD 0 + 1 % s.validators.length
        else (s.nextWithdrawalValidatorIndex + MAX_VALIDATORS_PER_WITHDRAWALS_SWEEP) %
          s.validators.length := by
  unfold updateWithdrawalCursors rustRem at h
  have hn : s.validators.length ≠ 0 := by
    intro hn
    by_cases hfull : ws.length = MAX_WITHDRAWALS_PER_PAYLOAD <;> simp [hn, hfull] at h
  by_cases hfull : ws.length = MAX_WITHDRAWALS_PER_PAYLOAD
  · simp only [hn, hfull, if_true, if_false, Except.ok_bind, pure_bind, Except.pure_eq_ok] at h
    subst h
    exact ⟨rfl, Nat.pos_of_ne_zero hn, by simp [hfull]⟩
  · simp only [hn, hfull, if_false, Except.ok_bind, pure_bind, Except.pure_eq_ok] at h
    subst h
    exact ⟨rfl, Nat.pos_of_ne_zero hn, by simp [hfull]⟩

/-- A successful `process_withdrawals` pays exactly the expected withdrawals, each balance
losing exactly what was withdrawn from it, numbers on from `next_withdrawal_index` by their
count, and leaves the registry alone. -/
theorem processWithdrawals_ok {payload ws : List Withdrawal} {k : Nat} {s' : BeaconState}
    (hexp : s.getExpectedWithdrawals = .ok (ws, k)) (h : s.processWithdrawals payload = .ok s') :
    payload = ws ∧ s'.validators = s.validators ∧
      s'.nextWithdrawalIndex = s.nextWithdrawalIndex + ws.length ∧
      s'.pendingPartialWithdrawals = s.pendingPartialWithdrawals.drop k ∧
      (∀ v, (s'.balances.getD v 0).toNat + withdrawnTotal ws v = (s.balances.getD v 0).toNat) ∧
      0 < s.validators.length ∧
      s'.nextWithdrawalValidatorIndex =
        if ws.length = MAX_WITHDRAWALS_PER_PAYLOAD then
          (ws.getLast?.map (·.validatorIndex)).getD 0 + 1 % s.validators.length
        else (s.nextWithdrawalValidatorIndex + MAX_VALIDATORS_PER_WITHDRAWALS_SWEEP) %
          s.validators.length := by
  obtain ⟨hindices, hwithin⟩ := getExpectedWithdrawals_within hexp
  have hsound := getExpectedWithdrawals_sound hexp
  unfold processWithdrawals at h
  rw [hexp, Except.ok_bind] at h
  by_cases hpay : payload = ws
  · subst hpay
    simp only [ne_eq, not_true_eq_false, if_false] at h
    obtain ⟨paid, hpaid, hpaidEq, hbal⟩ := foldlM_decreaseBalance payload s hsound hwithin
    rw [hpaid, Except.ok_bind] at h
    obtain ⟨ht, hlen, hcursor⟩ := paid.updateWithdrawalCursors_ok h
    have hfields : paid.validators = s.validators ∧
        paid.nextWithdrawalValidatorIndex = s.nextWithdrawalValidatorIndex ∧
        paid.nextWithdrawalIndex = s.nextWithdrawalIndex ∧
        paid.pendingPartialWithdrawals = s.pendingPartialWithdrawals := by
      rw [hpaidEq]
      exact ⟨rfl, rfl, rfl, rfl⟩
    have hnext : (match payload.getLast? with
        | some latestWithdrawal => latestWithdrawal.index + 1
        | none => paid.nextWithdrawalIndex) = s.nextWithdrawalIndex + payload.length := by
      cases hlast : payload.getLast? with
      | none =>
        rw [List.getLast?_eq_none_iff] at hlast
        simp [hlast, hfields.2.2.1]
      | some latest =>
        obtain ⟨init, hinit⟩ := List.getLast?_eq_some_iff.mp hlast
        rw [hinit, List.map_append, List.length_append, List.length_singleton,
          List.range'_1_concat] at hindices
        have hlatest := (List.append_inj hindices (by simp)).2
        simp only [List.map_cons, List.map_nil, List.cons.injEq, and_true] at hlatest
        show latest.index + 1 = _
        rw [hlatest, hinit, List.length_append, List.length_singleton]
        omega
    rw [ht]
    refine ⟨rfl, hfields.1, hnext, by rw [hfields.2.2.2], fun v => by rw [← hbal v], ?_, ?_⟩
    · rwa [hfields.1] at hlen
    · rw [hcursor, hfields.1, hfields.2.1]
  · simp [hpay] at h

/-- After a successful `process_withdrawals` the sweep cursor is inside the registry, except
after a full payload whose last withdrawal is the last validator's, where it is the registry's
length. -/
theorem processWithdrawals_cursor {payload ws : List Withdrawal} {k : Nat} {s' : BeaconState}
    (hexp : s.getExpectedWithdrawals = .ok (ws, k)) (h : s.processWithdrawals payload = .ok s') :
    s'.nextWithdrawalValidatorIndex < s.validators.length ∨
      (ws.length = MAX_WITHDRAWALS_PER_PAYLOAD ∧ 2 ≤ s.validators.length ∧
        (ws.getLast?.map (·.validatorIndex)) = some (s.validators.length - 1) ∧
        s'.nextWithdrawalValidatorIndex = s.validators.length) := by
  obtain ⟨-, -, -, -, -, hpos, hcursor⟩ := processWithdrawals_ok hexp h
  have hsound := getExpectedWithdrawals_sound hexp
  rw [hcursor]
  split
  · rename_i hfull
    cases hlast : ws.getLast? with
    | none =>
      rw [List.getLast?_eq_none_iff] at hlast
      simp [hlast, MAX_WITHDRAWALS_PER_PAYLOAD] at hfull
    | some latest =>
      have hlt := (getExpectedWithdrawals_validators hexp) latest (List.mem_of_getLast? hlast)
      simp only [Option.map_some, Option.getD_some]
      by_cases hone : s.validators.length = 1
      · left
        rw [hone] at hlt ⊢
        simp
        omega
      · rw [Nat.one_mod_eq_one.mpr hone]
        by_cases hend : latest.validatorIndex + 1 = s.validators.length
        · right
          exact ⟨hfull, by omega, by simp; omega, hend⟩
        · left
          omega
  · left
    exact Nat.mod_lt _ hpos

end BeaconState

/-! ## A full payload that ends at the last validator -/

/-- Execution credentials with the `0x01` prefix and the zero address. -/
def eth1Credentials : B256 := (2 ^ 248 : Fin (2 ^ 256))

/-- A validator at the minimum activation balance with `0x01` credentials, not exiting. -/
def sweepValidator (i : Nat) : Validator :=
  ⟨i, eth1Credentials, 32000000000, false, 0, 0, FAR_FUTURE_EPOCH, FAR_FUTURE_EPOCH⟩

/-- Sixteen such validators, each with one Gwei-billion above its maximum effective balance,
the cursor at validator 0 and no pending partial withdrawal. -/
def fullSweepState : BeaconState where
  slot := 0
  validators := (List.range 16).map sweepValidator
  balances := List.replicate 16 33000000000
  previousEpochParticipation := List.replicate 16 0
  currentEpochParticipation := List.replicate 16 0
  inactivityScores := List.replicate 16 0
  finalizedCheckpoint := ⟨0, 0⟩
  eth1DepositIndex := 0
  depositRequestsStartIndex := 0
  depositBalanceToConsume := 0
  exitBalanceToConsume := 0
  earliestExitEpoch := 0
  consolidationBalanceToConsume := 0
  earliestConsolidationEpoch := 0
  pendingDeposits := []
  pendingPartialWithdrawals := []
  nextWithdrawalIndex := 0
  nextWithdrawalValidatorIndex := 0
  currentSyncCommittee := []

/-- The sixteen excess withdrawals of the sweep, one per validator. -/
def fullSweepWithdrawals : List Withdrawal :=
  (List.range 16).map fun i => ⟨i, i, 0, 1000000000⟩

/-- After the full payload of `fullSweepState`, whose last withdrawal is validator 15's, the
cursor is 16, the length of the registry, and the next sweep fails on its first lookup. This is
the one case `processWithdrawals_cursor` leaves outside the registry. -/
theorem withdrawal_cursor_leaves_registry :
    0 < fullSweepState.validators.length ∧
      fullSweepState.nextWithdrawalValidatorIndex < fullSweepState.validators.length ∧
      fullSweepState.getExpectedWithdrawals = .ok (fullSweepWithdrawals, 0) ∧
      (fullSweepState.processWithdrawals fullSweepWithdrawals).map
          (fun s => (s.nextWithdrawalValidatorIndex, s.validators.length)) = .ok (16, 16) ∧
      (fullSweepState.processWithdrawals fullSweepWithdrawals >>=
          BeaconState.getExpectedWithdrawals) = .error "Validator index out of bounds: 16" := by
  decide +kernel

end Ream.Beacon.Electra
