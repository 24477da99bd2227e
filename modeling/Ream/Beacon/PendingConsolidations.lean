import Ream.Beacon.ExitQueue

/-!
# The loop of `process_pending_consolidations`

It drops a prefix of the queue whose sources are slashed or withdrawable, succeeds on every state
of `ElectraState.Invariant`, and keeps the sum of the balances while that sum fits in a `u64`.
-/

namespace Ream.Beacon.Electra

namespace BeaconState

/-- The balances of the registry, summed as numbers. -/
def balanceSum (s : BeaconState) : Nat := (s.balances.map UInt64.toNat).sum

variable {s t : BeaconState}

theorem decreaseBalance_balanceSum {index : Nat} {delta balance : UInt64}
    (h : s.decreaseBalance index delta = .ok t) (hbalance : s.balances[index]? = some balance)
    (hle : delta ≤ balance) : t.balanceSum + delta.toNat = s.balanceSum := by
  obtain ⟨-, rfl⟩ := decreaseBalance_eq h
  have hsum := List.sum_map_modify (f := fun balance => if delta ≤ balance then balance - delta else 0)
    UInt64.toNat balance hbalance
  rw [if_pos hle, UInt64.toNat_sub_of_le _ _ hle] at hsum
  have hdelta := UInt64.le_iff_toNat_le.mp hle
  unfold balanceSum
  dsimp only
  omega

/-- An increase that keeps the sum within a `u64` adds exactly that much to it: the entry is at
most the sum, so its addition does not wrap. -/
theorem increaseBalance_balanceSum {index : Nat} {delta : UInt64}
    (h : s.increaseBalance index delta = .ok t) (hfit : s.balanceSum + delta.toNat < 2 ^ 64) :
    t.balanceSum = s.balanceSum + delta.toNat := by
  obtain ⟨hi, rfl⟩ := increaseBalance_eq h
  have hbalance := List.getElem?_eq_getElem hi
  have hsum := List.sum_map_modify (f := (· + delta)) UInt64.toNat _ hbalance
  have hle := List.le_sum_map_of_getElem? UInt64.toNat hbalance
  unfold balanceSum at hfit hle ⊢
  dsimp only
  rw [UInt64.toNat_add, Nat.mod_eq_of_lt (by omega)] at hsum
  omega

end BeaconState

open Ream.Beacon.Electra.BeaconState

variable {nextEpoch : Nat} {acc acc' : BeaconState × Nat} {pendingConsolidation : PendingConsolidation}
  {done : Bool}

theorem pendingConsolidationStep_validators
    (h : pendingConsolidationStep nextEpoch acc pendingConsolidation = .ok (acc', done)) :
    acc'.1.validators = acc.1.validators ∧ acc'.1.balances.length = acc.1.balances.length := by
  obtain ⟨_, -, ⟨-, -, rfl⟩ | ⟨-, -, -, rfl⟩ | ⟨-, -, -, -, _, s', -, hdecrease, hincrease⟩⟩ :=
    pendingConsolidationStep_cases h
  · exact ⟨rfl, rfl⟩
  · exact ⟨rfl, rfl⟩
  · obtain ⟨-, rfl⟩ := decreaseBalance_eq hdecrease
    obtain ⟨-, hacc'⟩ := increaseBalance_eq hincrease
    rw [hacc']
    exact ⟨rfl, by simp⟩

theorem pendingConsolidationStep_balanceSum
    (h : pendingConsolidationStep nextEpoch acc pendingConsolidation = .ok (acc', done))
    (hfit : acc.1.balanceSum < 2 ^ 64) : acc'.1.balanceSum = acc.1.balanceSum := by
  obtain ⟨sourceValidator, -, ⟨-, -, rfl⟩ | ⟨-, -, -, rfl⟩ |
    ⟨-, -, -, -, balance, s', hbalance, hdecrease, hincrease⟩⟩ := pendingConsolidationStep_cases h
  · rfl
  · rfl
  · have hdown := decreaseBalance_balanceSum hdecrease hbalance
      (min_le_first balance sourceValidator.effectiveBalance)
    rw [increaseBalance_balanceSum hincrease (by omega)]
    omega

theorem pendingConsolidationStep_succeeds (nextEpoch : Nat) {sourceValidator : Validator}
    (hsource : acc.1.validators[pendingConsolidation.sourceIndex]? = some sourceValidator)
    (hbalances : acc.1.balances.length = acc.1.validators.length)
    (htarget : pendingConsolidation.targetIndex < acc.1.validators.length) :
    ∃ acc' done, pendingConsolidationStep nextEpoch acc pendingConsolidation = .ok (acc', done) := by
  have hsourceLt : pendingConsolidation.sourceIndex < acc.1.balances.length :=
    hbalances ▸ (List.getElem?_eq_some_iff.mp hsource).1
  have htargetLt : pendingConsolidation.targetIndex < acc.1.balances.length := hbalances ▸ htarget
  unfold pendingConsolidationStep
  simp only [hsource, List.getElem?_eq_getElem hsourceLt]
  split
  · exact ⟨_, _, rfl⟩
  · split
    · exact ⟨_, _, rfl⟩
    · simp [decreaseBalance, increaseBalance, hsourceLt, htargetLt]

namespace ElectraState

variable {es es' : ElectraState}

/-- The entries `process_pending_consolidations` drops are a prefix of the queue, each with a
source that is slashed or withdrawable at the next epoch, and the first entry it keeps has a
source that is neither slashed nor withdrawable at the next epoch. -/
theorem processPendingConsolidations_processes_prefix (h : es.processPendingConsolidations = .ok es') :
    ∃ k, es'.pendingConsolidations = es.pendingConsolidations.drop k ∧
      (∀ c ∈ es.pendingConsolidations.take k, ∃ v, es.state.validators[c.sourceIndex]? = some v ∧
        (v.slashed = true ∨ v.withdrawableEpoch ≤ es.state.getCurrentEpoch + 1)) ∧
      ∀ c ∈ (es.pendingConsolidations.drop k).head?, ∃ v,
        es.state.validators[c.sourceIndex]? = some v ∧ v.slashed = false ∧
          es.state.getCurrentEpoch + 1 < v.withdrawableEpoch := by
  unfold processPendingConsolidations at h
  obtain ⟨acc, hloop, h⟩ := Except.bind_eq_ok.mp h
  cases Except.pure_eq_ok.mp h
  refine ⟨acc.2, rfl, ?_⟩
  refine Loop.breakLoop_spec (fun k acc => acc.2 = k ∧ acc.1.validators = es.state.validators ∧
      ∀ c ∈ es.pendingConsolidations.take k, ∃ v, es.state.validators[c.sourceIndex]? = some v ∧
        (v.slashed = true ∨ v.withdrawableEpoch ≤ es.state.getCurrentEpoch + 1))
    (fun acc => (∀ c ∈ es.pendingConsolidations.take acc.2, ∃ v,
        es.state.validators[c.sourceIndex]? = some v ∧
          (v.slashed = true ∨ v.withdrawableEpoch ≤ es.state.getCurrentEpoch + 1)) ∧
      ∀ c ∈ (es.pendingConsolidations.drop acc.2).head?, ∃ v,
        es.state.validators[c.sourceIndex]? = some v ∧ v.slashed = false ∧
          es.state.getCurrentEpoch + 1 < v.withdrawableEpoch)
    _ ?_ ?_ ?_ _ _ ⟨rfl, rfl, by simp⟩ hloop
  · rintro k hk acc acc' ⟨hcount, hvalidators, hdue⟩ hstep
    have hkept := pendingConsolidationStep_validators hstep
    obtain ⟨v, hv, ⟨hslashed, -, rfl⟩ | ⟨-, -, hdone, -⟩ |
      ⟨-, hwithdrawable, -, hcount', -⟩⟩ := pendingConsolidationStep_cases hstep
    · refine ⟨by rw [hcount], hvalidators, fun c hc => ?_⟩
      rw [List.take_add_one, List.getElem?_eq_getElem hk, Option.toList_some] at hc
      rcases List.mem_append.mp hc with hc | hc
      · exact hdue c hc
      · rw [List.mem_singleton.mp hc]
        exact ⟨v, hvalidators ▸ hv, .inl hslashed⟩
    · cases hdone
    · refine ⟨by rw [hcount', hcount], hkept.1.trans hvalidators, fun c hc => ?_⟩
      rw [List.take_add_one, List.getElem?_eq_getElem hk, Option.toList_some] at hc
      rcases List.mem_append.mp hc with hc | hc
      · exact hdue c hc
      · rw [List.mem_singleton.mp hc]
        exact ⟨v, hvalidators ▸ hv, .inr hwithdrawable⟩
  · rintro k hk acc acc' ⟨hcount, hvalidators, hdue⟩ hstep
    obtain ⟨v, hv, ⟨-, hdone, -⟩ | ⟨hslashed, hlate, -, rfl⟩ | ⟨-, -, hdone, -⟩⟩ :=
      pendingConsolidationStep_cases hstep
    · cases hdone
    · refine ⟨hcount ▸ hdue, fun c hc => ?_⟩
      rw [hcount, List.head?_drop, List.getElem?_eq_getElem hk, Option.mem_some_iff] at hc
      subst hc
      exact ⟨v, hvalidators ▸ hv, hslashed, hlate⟩
    · cases hdone
  · rintro acc ⟨hcount, -, hdue⟩
    refine ⟨hcount ▸ hdue, fun c hc => ?_⟩
    rw [hcount, List.drop_length] at hc
    cases hc

/-- From every state of the invariant, `process_pending_consolidations` succeeds. -/
theorem processPendingConsolidations_succeeds (hes : es.Invariant) :
    ∃ es', es.processPendingConsolidations = .ok es' := by
  obtain ⟨acc, hloop⟩ := Loop.breakLoop_ok (fun _ acc => acc.1.validators = es.state.validators ∧
      acc.1.balances.length = es.state.balances.length) es.pendingConsolidations
    (fun k hk acc ⟨hvalidators, hbalances⟩ => by
      obtain ⟨hsourceLt, htargetLt⟩ := hes.consolidations_indexed _ (List.getElem_mem hk)
      rw [← hvalidators] at hsourceLt htargetLt
      obtain ⟨acc', done, hstep⟩ := pendingConsolidationStep_succeeds (es.state.getCurrentEpoch + 1)
        (List.getElem?_eq_getElem hsourceLt)
        (by rw [hbalances, hvalidators, hes.state.registry.balances_length]) htargetLt
      have hkept := pendingConsolidationStep_validators hstep
      exact ⟨acc', done, hstep, fun _ => ⟨hkept.1.trans hvalidators, hkept.2.trans hbalances⟩⟩)
    (es.state, 0) ⟨rfl, rfl⟩
  refine ⟨⟨acc.1, es.pendingConsolidations.drop acc.2⟩, ?_⟩
  unfold processPendingConsolidations
  dsimp only
  rw [hloop]
  rfl

/-- `process_pending_consolidations` keeps the sum of the balances, as long as it fits in a
`u64`: what leaves a source arrives at its target. -/
theorem processPendingConsolidations_keeps_balanceSum (h : es.processPendingConsolidations = .ok es')
    (hfit : es.state.balanceSum < 2 ^ 64) : es'.state.balanceSum = es.state.balanceSum := by
  unfold processPendingConsolidations at h
  obtain ⟨acc, hloop, h⟩ := Except.bind_eq_ok.mp h
  cases Except.pure_eq_ok.mp h
  refine Loop.breakLoop_spec (fun _ acc => acc.1.balanceSum = es.state.balanceSum)
    (fun acc => acc.1.balanceSum = es.state.balanceSum) _ ?_ ?_ (fun _ hk => hk) _ _ rfl hloop
  all_goals
    intro _ _ acc acc' hk hstep
    rw [pendingConsolidationStep_balanceSum hstep (hk ▸ hfit), hk]

end ElectraState

/-! ## Two consolidations, one due -/

/-- At epoch 256, validator 0 is withdrawable at the next epoch and validator 2 is not; both
consolidate into validator 1. -/
def consolidatingState : ElectraState :=
  ⟨{ emptyRegistry with
      slot := 8192
      validators := [⟨0, 0, 32000000000, false, 0, 0, 0, 256⟩,
        ⟨1, credentialsFrom COMPOUNDING_WITHDRAWAL_PREFIX 0, 32000000000, false, 0, 0,
          FAR_FUTURE_EPOCH, FAR_FUTURE_EPOCH⟩,
        ⟨2, 0, 32000000000, false, 0, 0, 100, 356⟩]
      balances := [32000000000, 32000000000, 32000000000]
      previousEpochParticipation := [0, 0, 0]
      currentEpochParticipation := [0, 0, 0]
      inactivityScores := [0, 0, 0] }, [⟨0, 1⟩, ⟨2, 1⟩]⟩

theorem consolidatingState_invariant : consolidatingState.Invariant where
  state :=
    { registry := by decide
      exits := by decide
      partials :=
        { sorted := List.Pairwise.nil
          le_frontier := fun _ h => absurd h List.not_mem_nil
          indexed := fun _ h => absurd h List.not_mem_nil
          length_le := Nat.zero_le _ } }
  consolidations_indexed := by decide
  consolidations_length_le := by decide

/-- The consolidation of validator 0 is processed and that of validator 2 waits. -/
theorem consolidatingState_processes_prefix :
    ∃ es', consolidatingState.processPendingConsolidations = .ok es' ∧
      ∃ k, es'.pendingConsolidations = consolidatingState.pendingConsolidations.drop k ∧
        (∀ c ∈ consolidatingState.pendingConsolidations.take k, ∃ v,
          consolidatingState.state.validators[c.sourceIndex]? = some v ∧
            (v.slashed = true ∨ v.withdrawableEpoch ≤ consolidatingState.state.getCurrentEpoch + 1)) ∧
        ∀ c ∈ (consolidatingState.pendingConsolidations.drop k).head?, ∃ v,
          consolidatingState.state.validators[c.sourceIndex]? = some v ∧ v.slashed = false ∧
            consolidatingState.state.getCurrentEpoch + 1 < v.withdrawableEpoch :=
  ⟨_, rfl, ElectraState.processPendingConsolidations_processes_prefix rfl⟩

theorem consolidatingState_succeeds :
    ∃ es', consolidatingState.processPendingConsolidations = .ok es' :=
  ElectraState.processPendingConsolidations_succeeds consolidatingState_invariant

/-- The first consolidation moves 32 ETH into validator 1, and the sum stays 96 ETH. -/
theorem consolidatingState_keeps_balanceSum :
    ∃ es', consolidatingState.processPendingConsolidations = .ok es' ∧
      consolidatingState.state.balanceSum < 2 ^ 64 ∧
      es'.state.balanceSum = consolidatingState.state.balanceSum :=
  ⟨_, rfl, by decide, ElectraState.processPendingConsolidations_keeps_balanceSum rfl (by decide)⟩

end Ream.Beacon.Electra
