import Ream.Beacon.Registry
import Ream.Lib.Loop

/-!
# Pending deposits

`process_pending_deposits` walks the deposit queue as a `for` loop with `break`, and every
deposit it goes past takes the `Disposition` its validator state gives. The deposit signature
check and the Fulu fork epoch are parameters.
-/

namespace Ream.Beacon.Electra

open Ream.Consensus (B256)

def MAX_PENDING_DEPOSITS_PER_EPOCH : Nat := 16

/-- `get_validator_from_deposit`: a new validator whose effective balance is the deposit rounded
down to an increment, at most the maximum its credentials allow. -/
def getValidatorFromDeposit (publicKey : PublicKey) (withdrawalCredentials : B256)
    (amount : UInt64) : Validator :=
  let validator : Validator := ⟨publicKey, withdrawalCredentials, 0, false, FAR_FUTURE_EPOCH,
    FAR_FUTURE_EPOCH, FAR_FUTURE_EPOCH, FAR_FUTURE_EPOCH⟩
  let maxEffectiveBalance := validator.getMaxEffectiveBalance
  { validator with
    effectiveBalance := min (amount - amount % EFFECTIVE_BALANCE_INCREMENT) maxEffectiveBalance }

namespace BeaconState

variable (s : BeaconState)

/-- `add_validator_to_registry`: the five registry lists grow together. -/
def addValidatorToRegistry (publicKey : PublicKey) (withdrawalCredentials : B256)
    (amount : UInt64) : BeaconState :=
  { s with
    validators := s.validators ++ [getValidatorFromDeposit publicKey withdrawalCredentials amount]
    balances := s.balances ++ [amount]
    previousEpochParticipation := s.previousEpochParticipation ++ [0]
    currentEpochParticipation := s.currentEpochParticipation ++ [0]
    inactivityScores := s.inactivityScores ++ [0] }

/-- `apply_pending_deposit`. -/
def applyPendingDeposit (isValidDepositSignature : PendingDeposit → Bool)
    (deposit : PendingDeposit) : Except String BeaconState :=
  match s.validators.zipIdx.find? (fun (validator, _) => validator.publicKey = deposit.publicKey) with
  | some (_, index) => s.increaseBalance index deposit.amount
  | none =>
    if isValidDepositSignature deposit then
      .ok (s.addValidatorToRegistry deposit.publicKey deposit.withdrawalCredentials deposit.amount)
    else .ok s

/-- The validator state `process_pending_deposits` reads for a deposit: whether the first
validator with its key is exiting, and whether it is withdrawable by the next epoch. -/
def readValidatorState (nextEpoch : Nat) (deposit : PendingDeposit) : Bool × Bool :=
  match s.validators.find? (fun validator => validator.publicKey = deposit.publicKey) with
  | some validator =>
    (decide (validator.exitEpoch < FAR_FUTURE_EPOCH), decide (validator.withdrawableEpoch < nextEpoch))
  | none => (false, false)

end BeaconState

/-- The local variables of the loop in `process_pending_deposits`, with the state it changes. -/
structure PendingDepositsSweep where
  state : BeaconState
  processedAmount : UInt64
  nextDepositIndex : Nat
  depositsToPostpone : List PendingDeposit
  isChurnLimitReached : Bool

/-- One pass of the loop; the flag says whether it breaks. -/
def pendingDepositStep (fuluForkEpoch : Nat) (isValidDepositSignature : PendingDeposit → Bool)
    (nextEpoch : Nat) (availableForProcessing : UInt64) (finalizedSlot : Nat)
    (acc : PendingDepositsSweep) (deposit : PendingDeposit) :
    Except String (PendingDepositsSweep × Bool) := do
  let s := acc.state
  let isFuluOrLater := decide (fuluForkEpoch ≤ s.getCurrentEpoch)
  if !isFuluOrLater && decide (deposit.slot > GENESIS_SLOT) &&
      decide (s.eth1DepositIndex < s.depositRequestsStartIndex) then
    return (acc, true)
  if deposit.slot > finalizedSlot then return (acc, true)
  if acc.nextDepositIndex ≥ MAX_PENDING_DEPOSITS_PER_EPOCH then return (acc, true)
  let (isValidatorExited, isValidatorWithdrawn) := s.readValidatorState nextEpoch deposit
  if isValidatorWithdrawn then
    -- the deposit never becomes active: it is applied without consuming churn
    let s ← s.applyPendingDeposit isValidDepositSignature deposit
    return ({ acc with state := s, nextDepositIndex := acc.nextDepositIndex + 1 }, false)
  else if isValidatorExited then
    let depositsToPostpone := acc.depositsToPostpone ++ [deposit]
    return ({ acc with depositsToPostpone, nextDepositIndex := acc.nextDepositIndex + 1 }, false)
  else
    let isChurnLimitReached := acc.processedAmount + deposit.amount > availableForProcessing
    if isChurnLimitReached then return ({ acc with isChurnLimitReached }, true)
    let s ← s.applyPendingDeposit isValidDepositSignature deposit
    let processedAmount := acc.processedAmount + deposit.amount
    return ({ acc with
      state := s
      processedAmount
      nextDepositIndex := acc.nextDepositIndex + 1
      isChurnLimitReached }, false)

namespace BeaconState

variable (s : BeaconState)

/-- The budget of the churn for this epoch's deposits. -/
def availableForProcessing : UInt64 := s.depositBalanceToConsume + s.getActivationExitChurnLimit

/-- The walk through the queue. -/
def pendingDepositsLoop (fuluForkEpoch : Nat) (isValidDepositSignature : PendingDeposit → Bool) :
    Except String PendingDepositsSweep :=
  Loop.breakLoop
    (pendingDepositStep fuluForkEpoch isValidDepositSignature (s.getCurrentEpoch + 1)
      s.availableForProcessing (computeStartSlotAtEpoch s.finalizedCheckpoint.epoch))
    ⟨s, 0, 0, [], false⟩ s.pendingDeposits

/-- `process_pending_deposits`. -/
def processPendingDeposits (fuluForkEpoch : Nat) (isValidDepositSignature : PendingDeposit → Bool) :
    Except String BeaconState := do
  let availableForProcessing := s.availableForProcessing
  let acc ← s.pendingDepositsLoop fuluForkEpoch isValidDepositSignature
  let s := acc.state
  pure { s with
    pendingDeposits := s.pendingDeposits.drop acc.nextDepositIndex ++ acc.depositsToPostpone
    -- churn carries over only when it ran out
    depositBalanceToConsume :=
      if acc.isChurnLimitReached then availableForProcessing - acc.processedAmount else 0 }

end BeaconState

/-! ## The accounting -/

/-- What the walk did with a deposit it went past. -/
inductive Disposition where
  /-- applied against the churn -/
  | consumed
  /-- applied to a withdrawn validator, outside the churn -/
  | withdrawn
  /-- kept for after the exiting validator's withdrawable epoch -/
  | postponed
  deriving DecidableEq, Repr

namespace Disposition

/-- The deposits a walk applied, in the order it applied them. -/
def applied (done : List (PendingDeposit × Disposition)) : List PendingDeposit :=
  done.filterMap fun e => if e.2 = .postponed then none else some e.1

def postponedOf (done : List (PendingDeposit × Disposition)) : List PendingDeposit :=
  done.filterMap fun e => if e.2 = .postponed then some e.1 else none

def consumedOf (done : List (PendingDeposit × Disposition)) : List PendingDeposit :=
  done.filterMap fun e => if e.2 = .consumed then some e.1 else none

end Disposition

namespace BeaconState

variable (s : BeaconState)

/-- The disposition the loop gives a deposit from the validator state it reads: a withdrawn
validator first, then an exiting one, and otherwise against the churn. -/
def depositDisposition (nextEpoch : Nat) (deposit : PendingDeposit) : Disposition :=
  match s.readValidatorState nextEpoch deposit with
  | (_, true) => .withdrawn
  | (true, false) => .postponed
  | (false, false) => .consumed

end BeaconState

/-- The three checks that stop the loop before it reads the validator state: a bridge deposit
before Fulu while the bridge still drains, a deposit not yet finalized, and the per-epoch count
reached. -/
def StopsBefore (fuluForkEpoch finalizedSlot : Nat) (s : BeaconState) (nextDepositIndex : Nat)
    (deposit : PendingDeposit) : Prop :=
  (s.getCurrentEpoch < fuluForkEpoch ∧ GENESIS_SLOT < deposit.slot ∧
      s.eth1DepositIndex < s.depositRequestsStartIndex) ∨
    finalizedSlot < deposit.slot ∨ MAX_PENDING_DEPOSITS_PER_EPOCH ≤ nextDepositIndex

instance StopsBefore.instDecidable (fuluForkEpoch finalizedSlot : Nat) (s : BeaconState)
    (nextDepositIndex : Nat) (deposit : PendingDeposit) :
    Decidable (StopsBefore fuluForkEpoch finalizedSlot s nextDepositIndex deposit) :=
  inferInstanceAs (Decidable (_ ∨ _ ∨ _))

/-- The walk read as dispositions alone: each deposit takes the disposition of the validator
state read in the state the deposits before it leave, and is applied unless it is postponed. -/
def classifyStep (isValidDepositSignature : PendingDeposit → Bool) (nextEpoch : Nat)
    (acc : BeaconState × List Disposition) (deposit : PendingDeposit) :
    Except String (BeaconState × List Disposition) :=
  let x := acc.1.depositDisposition nextEpoch deposit
  if x = .postponed then .ok (acc.1, acc.2 ++ [x])
  else (acc.1.applyPendingDeposit isValidDepositSignature deposit).map fun t => (t, acc.2 ++ [x])

section Step

variable {fuluForkEpoch nextEpoch finalizedSlot : Nat} {isValidDepositSignature : PendingDeposit → Bool}
  {availableForProcessing : UInt64}

/-- What one pass does. One of the three checks stops it with the accumulator as it was;
past them it reads the validator state, and either breaks with the churn flag raised, for a
deposit against the churn that does not fit, or goes past the deposit with the disposition that
state gives it. -/
theorem pendingDepositStep_cases {acc acc' : PendingDepositsSweep} {deposit : PendingDeposit}
    {brk : Bool}
    (h : pendingDepositStep fuluForkEpoch isValidDepositSignature nextEpoch
      availableForProcessing finalizedSlot acc deposit = .ok (acc', brk)) :
    (StopsBefore fuluForkEpoch finalizedSlot acc.state acc.nextDepositIndex deposit ∧
        brk = true ∧ acc' = acc) ∨
    (¬ StopsBefore fuluForkEpoch finalizedSlot acc.state acc.nextDepositIndex deposit ∧
      ((brk = true ∧ acc.state.depositDisposition nextEpoch deposit = .consumed ∧
          availableForProcessing < acc.processedAmount + deposit.amount ∧
          acc' = { acc with isChurnLimitReached := true }) ∨
        (brk = false ∧
          ((acc.state.depositDisposition nextEpoch deposit = .withdrawn ∧
              ∃ t, acc.state.applyPendingDeposit isValidDepositSignature deposit = .ok t ∧
                acc' = { acc with state := t, nextDepositIndex := acc.nextDepositIndex + 1 }) ∨
            (acc.state.depositDisposition nextEpoch deposit = .postponed ∧
              acc' = { acc with
                depositsToPostpone := acc.depositsToPostpone ++ [deposit]
                nextDepositIndex := acc.nextDepositIndex + 1 }) ∨
            (acc.state.depositDisposition nextEpoch deposit = .consumed ∧
              ∃ t, acc.state.applyPendingDeposit isValidDepositSignature deposit = .ok t ∧
                ¬ availableForProcessing < acc.processedAmount + deposit.amount ∧
                acc' = { acc with
                  state := t
                  processedAmount := acc.processedAmount + deposit.amount
                  nextDepositIndex := acc.nextDepositIndex + 1
                  isChurnLimitReached := false }))))) := by
  unfold pendingDepositStep at h
  dsimp only at h
  split at h
  · rename_i hbridge
    rw [Except.pure_eq_ok] at h
    cases h
    refine .inl ⟨.inl ?_, rfl, rfl⟩
    simpa [and_assoc] using hbridge
  rename_i hbridge
  split at h
  · rename_i hfinal
    rw [Except.pure_eq_ok] at h
    cases h
    exact .inl ⟨.inr (.inl hfinal), rfl, rfl⟩
  rename_i hfinal
  split at h
  · rename_i hcount
    rw [Except.pure_eq_ok] at h
    cases h
    exact .inl ⟨.inr (.inr hcount), rfl, rfl⟩
  rename_i hcount
  have hgo : ¬ StopsBefore fuluForkEpoch finalizedSlot acc.state acc.nextDepositIndex deposit := by
    simp only [Bool.and_eq_true, Bool.not_eq_eq_eq_not, Bool.not_true, decide_eq_false_iff_not,
      decide_eq_true_eq, not_and, not_le] at hbridge
    simp only [StopsBefore, not_or, not_and, not_le]
    omega
  refine .inr ⟨hgo, ?_⟩
  rcases hst : acc.state.readValidatorState nextEpoch deposit with ⟨exited, withdrawn⟩
  rw [hst] at h
  dsimp only at h
  have hdisp : acc.state.depositDisposition nextEpoch deposit =
      if withdrawn then .withdrawn else if exited then .postponed else .consumed := by
    rw [BeaconState.depositDisposition, hst]
    cases exited <;> cases withdrawn <;> rfl
  split at h
  · rename_i hwithdrawn
    subst hwithdrawn
    simp only [Except.bind_eq_ok, Except.pure_eq_ok] at h
    obtain ⟨t, ht, heq⟩ := h
    cases heq
    exact .inr ⟨rfl, .inl ⟨by simp [hdisp], t, ht, rfl⟩⟩
  rename_i hwithdrawn
  split at h
  · rename_i hexited
    subst hexited
    rw [Except.pure_eq_ok] at h
    cases h
    exact .inr ⟨rfl, .inr (.inl ⟨by simp [hdisp, hwithdrawn], rfl⟩)⟩
  rename_i hexited
  have hconsumed : acc.state.depositDisposition nextEpoch deposit = .consumed := by
    simp [hdisp, hwithdrawn, hexited]
  split at h
  · rename_i hlimit
    rw [Except.pure_eq_ok] at h
    cases h
    exact .inl ⟨rfl, hconsumed, hlimit, by simp [hlimit]⟩
  · rename_i hfits
    simp only [Except.bind_eq_ok, Except.pure_eq_ok] at h
    obtain ⟨t, ht, heq⟩ := h
    cases heq
    exact .inr ⟨rfl, .inr (.inr ⟨hconsumed, t, ht, hfits, by simp [hfits]⟩)⟩

/-- What one pass can do to the accumulator: break with it as it was, or with the churn flag
raised when the deposit does not fit; or go past the deposit, applying it to a withdrawn
validator, postponing it, or applying it within the churn. -/
theorem pendingDepositStep_ok {acc acc' : PendingDepositsSweep} {deposit : PendingDeposit}
    {brk : Bool}
    (h : pendingDepositStep fuluForkEpoch isValidDepositSignature nextEpoch
      availableForProcessing finalizedSlot acc deposit = .ok (acc', brk)) :
    (brk = true ∧ (acc' = acc ∨ (acc' = { acc with isChurnLimitReached := true } ∧
        availableForProcessing < acc.processedAmount + deposit.amount))) ∨
    (brk = false ∧
      ((∃ t, acc.state.applyPendingDeposit isValidDepositSignature deposit = .ok t ∧
          acc' = { acc with state := t, nextDepositIndex := acc.nextDepositIndex + 1 }) ∨
        acc' = { acc with
          depositsToPostpone := acc.depositsToPostpone ++ [deposit]
          nextDepositIndex := acc.nextDepositIndex + 1 } ∨
        (∃ t, acc.state.applyPendingDeposit isValidDepositSignature deposit = .ok t ∧
          ¬ availableForProcessing < acc.processedAmount + deposit.amount ∧
          acc' = { acc with
            state := t
            processedAmount := acc.processedAmount + deposit.amount
            nextDepositIndex := acc.nextDepositIndex + 1
            isChurnLimitReached := false }))) := by
  rcases pendingDepositStep_cases h with ⟨-, rfl, rfl⟩ | ⟨-, ⟨rfl, -, hlimit, rfl⟩ |
    ⟨rfl, ⟨-, t, ht, rfl⟩ | ⟨-, rfl⟩ | ⟨-, t, ht, hfits, rfl⟩⟩⟩
  · exact .inl ⟨rfl, .inl rfl⟩
  · exact .inl ⟨rfl, .inr ⟨rfl, hlimit⟩⟩
  · exact .inr ⟨rfl, .inl ⟨t, ht, rfl⟩⟩
  · exact .inr ⟨rfl, .inr (.inl rfl)⟩
  · exact .inr ⟨rfl, .inr (.inr ⟨t, ht, hfits, rfl⟩)⟩

end Step

namespace BeaconState

variable {s : BeaconState} {isValidDepositSignature : PendingDeposit → Bool}

end BeaconState

/-- The accumulator after the walk went past the deposits of `done`: each took the disposition
of the validator state read for it, the applied ones were applied in order from the state the
walk began in, the postponed ones wait in order, and the churn consumed is the sum of the
consumed ones. -/
structure Accounted (isValidDepositSignature : PendingDeposit → Bool) (nextEpoch : Nat)
    (s : BeaconState) (done : List (PendingDeposit × Disposition)) (acc : PendingDepositsSweep) :
    Prop where
  index : acc.nextDepositIndex = done.length
  classified : (done.map Prod.fst).foldlM (classifyStep isValidDepositSignature nextEpoch) (s, []) =
    .ok (acc.state, done.map Prod.snd)
  applied : (Disposition.applied done).foldlM
    (fun t d => t.applyPendingDeposit isValidDepositSignature d) s = .ok acc.state
  postponed : acc.depositsToPostpone = Disposition.postponedOf done
  processed : acc.processedAmount = ((Disposition.consumedOf done).map (·.amount)).sum

namespace Accounted

variable {isValidDepositSignature : PendingDeposit → Bool} {nextEpoch : Nat} {s : BeaconState}
  {done : List (PendingDeposit × Disposition)} {acc : PendingDepositsSweep}

theorem start : Accounted isValidDepositSignature nextEpoch s [] ⟨s, 0, 0, [], false⟩ :=
  ⟨rfl, rfl, rfl, rfl, rfl⟩

end Accounted

section Walk

variable {fuluForkEpoch nextEpoch finalizedSlot : Nat} {isValidDepositSignature : PendingDeposit → Bool}
  {availableForProcessing : UInt64} {s : BeaconState} {queue : List PendingDeposit}

end Walk

section Sums

variable {queue : List PendingDeposit} {done : List (PendingDeposit × Disposition)}

end Sums

end Ream.Beacon.Electra
