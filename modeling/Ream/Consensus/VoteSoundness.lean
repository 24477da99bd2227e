import Ream.Consensus.Tallies

/-!
# Justification needs two thirds of distinct votes

After `k` attestations every set bit of every tally is a vote the pre-state recorded or the bit
of an earlier attestation of the call that passed every filter (`VoteSource`), so a step that
justifies has two thirds of distinct attributed voters.
-/

namespace Ream.Consensus

open Ssz

/-- The loop state after the first `k` attestations of a call on `s`. -/
def loopPrefix (s : LeanState) (atts : List AggregatedAttestation) (k : Nat) :
    Except String AttestationLoop := do
  let σ ← attestationLoopStart s
  (atts.take k).foldlM (processAttestation s.rootToSlot) σ

/-- The pre-state records validator `v` for `root`: some position holding `root` has bit `v`
of its segment set. -/
def LeanState.PendingVote (s : LeanState) (root : B256) (v : Nat) : Prop :=
  ∃ m, s.justificationsRoots.data[m]? = some root ∧ (s.voteSegment m).getD v false = true

/-- Attestation `j` of the call passed every filter in the state it met, targets `root`, and
carries the bit of validator `v`. -/
def CountedVote (s : LeanState) (atts : List AggregatedAttestation) (j : Nat) (root : B256)
    (v : Nat) : Prop :=
  ∃ a σ, atts[j]? = some a ∧ loopPrefix s atts j = .ok σ ∧ FilterPass σ.state a ∧
    a.target.root = root ∧ a.aggregationBits.getD v = true

/-- Where a vote counted after `k` attestations may come from. -/
def VoteSource (s : LeanState) (atts : List AggregatedAttestation) (k : Nat) (root : B256)
    (v : Nat) : Prop :=
  s.PendingVote root v ∨ ∃ j < k, CountedVote s atts j root v

theorem VoteSource.mono {s : LeanState} {atts : List AggregatedAttestation} {k k' : Nat}
    {root : B256} {v : Nat} (hk : k ≤ k') (h : VoteSource s atts k root v) :
    VoteSource s atts k' root v := by
  rcases h with hpre | ⟨j, hj, hc⟩
  · exact .inl hpre
  · exact .inr ⟨j, by omega, hc⟩

/-- Every tally of a map has `n` bits and each of its votes is attributed. -/
def TalliesAttributed (s : LeanState) (atts : List AggregatedAttestation) (k : Nat)
    (justifications : AssocMap B256 Tally) : Prop :=
  ∀ root t, justifications.get? root = some t →
    t.len = s.validators.len ∧ ∀ v, t.getD v = true → VoteSource s atts k root v

section Attributed

variable {s : LeanState} {atts : List AggregatedAttestation} {k : Nat}
  {J J' : AssocMap B256 Tally}

theorem TalliesAttributed.mono {k' : Nat} (hk : k ≤ k') (h : TalliesAttributed s atts k J) :
    TalliesAttributed s atts k' J := fun root t ht =>
  ⟨(h root t ht).1, fun v hv => ((h root t ht).2 v hv).mono hk⟩

theorem TalliesAttributed.of_sub (h : TalliesAttributed s atts k J)
    (hsub : ∀ root t, J'.get? root = some t → J.get? root = some t) :
    TalliesAttributed s atts k J' := fun root t ht => h root t (hsub root t ht)

theorem TalliesAttributed.insert (h : TalliesAttributed s atts k J) {root : B256} {t : Tally}
    (hlen : t.len = s.validators.len) (hvotes : ∀ v, t.getD v = true → VoteSource s atts k root v) :
    TalliesAttributed s atts k (J.insert root t) := by
  intro root' t' ht'
  rw [AssocMap.get?_insert] at ht'
  by_cases hr : root' = root
  · rw [if_pos hr, Option.some_inj] at ht'
    subst hr ht'
    exact ⟨hlen, hvotes⟩
  · rw [if_neg hr] at ht'
    exact h root' t' ht'

end Attributed

/-- The tallies a justification leaves are tallies it started from, for other roots than
its target. -/
theorem JustifyEffect.get?_sub {ρ : AssocMap B256 Nat} {σ σ' : AttestationLoop}
    {a : AggregatedAttestation} (h : JustifyEffect ρ σ σ' a) (root : B256) (t : Tally)
    (ht : σ'.justifications.get? root = some t) :
    root ≠ a.target.root ∧ σ.justifications.get? root = some t := by
  have herase : (σ.justifications.erase a.target.root).get? root = some t →
      root ≠ a.target.root ∧ σ.justifications.get? root = some t := by
    rw [AssocMap.get?_erase]
    split
    · intro h; cases h
    · rename_i hne
      exact fun h => ⟨hne, h⟩
  rw [h.justifications] at ht
  split at ht
  · rw [AssocMap.get?_retain, Option.filter_eq_some_iff] at ht
    exact herase ht.1
  · exact herase ht

theorem JustifyEffect.validators {ρ : AssocMap B256 Nat} {σ σ' : AttestationLoop}
    {a : AggregatedAttestation} (h : JustifyEffect ρ σ σ' a) :
    σ'.state.validators = σ.state.validators := by
  rw [h.frame]

/-! ## The loop invariant -/

theorem loopPrefix_succ {s : LeanState} {atts : List AggregatedAttestation} {k : Nat}
    {σ : AttestationLoop} {a : AggregatedAttestation} (ha : atts[k]? = some a)
    (h : loopPrefix s atts k = .ok σ) :
    loopPrefix s atts (k + 1) = processAttestation s.rootToSlot σ a := by
  unfold loopPrefix at h ⊢
  rw [Except.bind_eq_ok] at h
  obtain ⟨σ0, h0, hk⟩ := h
  have hlt : k < atts.length := (List.getElem?_eq_some_iff.mp ha).1
  have hget : atts[k] = a := (List.getElem?_eq_some_iff.mp ha).2
  rw [h0]
  change (atts.take (k + 1)).foldlM (processAttestation s.rootToSlot) σ0 = _
  rw [Loop.foldlM_take_succ _ _ _ _ hlt, hk, hget]
  rfl

/-- The loop state after `k` steps: it is the prefix run, it keeps the validators, and its
tallies are attributed. -/
structure LoopAttributed (s : LeanState) (atts : List AggregatedAttestation) (k : Nat)
    (σ : AttestationLoop) : Prop where
  run : loopPrefix s atts k = .ok σ
  validators : σ.state.validators = s.validators
  tallies : TalliesAttributed s atts k σ.justifications

theorem loopAttributed_zero {s : LeanState} {atts : List AggregatedAttestation}
    {σ : AttestationLoop} (h : attestationLoopStart s = .ok σ) : LoopAttributed s atts 0 σ := by
  have hstart := attestationLoopStart_ok h
  refine ⟨by simp [loopPrefix, h], by rw [hstart.state], fun root t ht => ?_⟩
  obtain ⟨hlen, m, -, hm, hbits⟩ := hstart.tally_len ht
  refine ⟨hlen, fun v hv => .inl ⟨m, hm, ?_⟩⟩
  rw [← hbits]
  exact hv

/-- The tally a passing attestation leaves for its target root is attributed one step
later. -/
theorem addVotes_attributed {s : LeanState} {atts : List AggregatedAttestation} {k : Nat}
    {σ : AttestationLoop} {a : AggregatedAttestation} {fresh tally : Tally}
    (hσ : LoopAttributed s atts k σ) (ha : atts[k]? = some a) (hpass : FilterPass σ.state a)
    (hfresh : BitList.withCapacity σ.state.validators.len = .ok fresh)
    (htally : addVotes (σ.justifications.getD a.target.root fresh) 0 a.aggregationBits.bits =
      .ok tally) :
    tally.len = s.validators.len ∧
      ∀ v, tally.getD v = true → VoteSource s atts (k + 1) a.target.root v := by
  obtain ⟨hlen, hget, -⟩ := addVotes_ok htally
  have hbase : (σ.justifications.getD a.target.root fresh).len = s.validators.len ∧
      ∀ v, (σ.justifications.getD a.target.root fresh).getD v = true →
        VoteSource s atts k a.target.root v := by
    rw [AssocMap.getD_eq]
    cases hj : σ.justifications.get? a.target.root with
    | some t => exact hσ.tallies a.target.root t hj
    | none =>
      refine ⟨by rw [Option.getD_none, BitList.len_withCapacity hfresh, hσ.validators], ?_⟩
      intro v hv
      rw [Option.getD_none, BitList.getD_withCapacity hfresh] at hv
      cases hv
  refine ⟨hlen.trans hbase.1, fun v hv => ?_⟩
  rw [hget v] at hv
  by_cases hold : (σ.justifications.getD a.target.root fresh).getD v = true
  · exact (hbase.2 v hold).mono (Nat.le_succ k)
  · have hbit : a.aggregationBits.getD v = true := by
      simp only [hold, Bool.false_or, zero_le, decide_true, Bool.true_and, Nat.sub_zero] at hv
      exact hv
    exact .inr ⟨k, Nat.lt_succ_self k, a, σ, ha, hσ.run, hpass, rfl, hbit⟩

theorem processAttestation_attributed {s : LeanState} {atts : List AggregatedAttestation}
    {k : Nat} {σ σ' : AttestationLoop} {a : AggregatedAttestation}
    (hσ : LoopAttributed s atts k σ) (ha : atts[k]? = some a)
    (h : processAttestation s.rootToSlot σ a = .ok σ') : LoopAttributed s atts (k + 1) σ' := by
  have hrun : loopPrefix s atts (k + 1) = .ok σ' := by rw [loopPrefix_succ ha hσ.run, h]
  rcases processAttestation_cases h with ⟨_, rfl⟩ | ⟨hpass, fresh, tally, hfresh, htally, hstep⟩
  · exact ⟨hrun, hσ.validators, hσ.tallies.mono (Nat.le_succ k)⟩
  · obtain ⟨hlen, hvotes⟩ := addVotes_attributed hσ ha hpass hfresh htally
    have hins : TalliesAttributed s atts (k + 1)
        (σ.justifications.insert a.target.root tally) :=
      (hσ.tallies.mono (Nat.le_succ k)).insert hlen hvotes
    rcases hstep with ⟨_, rfl⟩ | ⟨_, hjustify⟩
    · exact ⟨hrun, hσ.validators, hins⟩
    · have heff := justify_effect hpass.slot_order hjustify
      exact ⟨hrun, heff.validators.trans hσ.validators,
        hins.of_sub fun root t ht => (heff.get?_sub root t ht).2⟩

theorem loopPrefix_attributed {s : LeanState} {atts : List AggregatedAttestation} {k : Nat}
    {σ : AttestationLoop} (h : loopPrefix s atts k = .ok σ) :
    LoopAttributed s atts (min k atts.length) σ := by
  unfold loopPrefix at h
  rw [Except.bind_eq_ok] at h
  obtain ⟨σ0, h0, hk⟩ := h
  refine Loop.foldlM_take_invariant (LoopAttributed s atts) (loopAttributed_zero h0)
    (fun j hj σj σj' hσj hstep => ?_) k σ hk
  exact processAttestation_attributed hσj (List.getElem?_eq_getElem hj) hstep

theorem loopPrefix_of_processAttestations {T : TreeHash} {s s' : LeanState}
    {atts : List AggregatedAttestation} (h : processAttestations T s atts = .ok s') (k : Nat) :
    ∃ σ, loopPrefix s atts k = .ok σ := by
  unfold processAttestations at h
  dsimp only at h
  split at h
  · cases h
  · rw [Except.bind_eq_ok] at h
    obtain ⟨σ0, h0, h⟩ := h
    rw [Except.bind_eq_ok] at h
    obtain ⟨σ, hloop, -⟩ := h
    obtain ⟨σk, hk⟩ := Loop.foldlM_take_ok hloop k
    exact ⟨σk, by simp [loopPrefix, h0, hk]⟩

/-! ## Justification soundness -/

/-- A step whose state differs from the one before is a justification of its target, on
the tally ored for that target, which then holds two thirds of the validators. -/
theorem processAttestation_state_change {s : LeanState} {atts : List AggregatedAttestation}
    {k : Nat} {σ σ' : AttestationLoop} {a : AggregatedAttestation}
    (hσ : LoopAttributed s atts k σ) (ha : atts[k]? = some a)
    (h : processAttestation s.rootToSlot σ a = .ok σ') (hchange : σ'.state ≠ σ.state) :
    ∃ tally : Tally, tally.len = s.validators.len ∧
      2 * s.validators.len ≤ 3 * tally.numSetBits ∧
      (∀ v, tally.getD v = true → VoteSource s atts (k + 1) a.target.root v) ∧
      JustifyEffect s.rootToSlot
        { σ with justifications := σ.justifications.insert a.target.root tally } σ' a := by
  rcases processAttestation_cases h with ⟨_, rfl⟩ | ⟨hpass, fresh, tally, hfresh, htally, hstep⟩
  · exact absurd rfl hchange
  · rcases hstep with ⟨_, rfl⟩ | ⟨hq, hjustify⟩
    · exact absurd rfl hchange
    · obtain ⟨hlen, hvotes⟩ := addVotes_attributed hσ ha hpass hfresh htally
      have heff := justify_effect hpass.slot_order hjustify
      exact ⟨tally, hlen, by rw [← hσ.validators]; exact hq, hvotes, heff⟩

/-- A loop step that moves `latest_justified` or marks a slot justifies its target with two
thirds of distinct attributed voters; a successful call runs every such step
(`loopPrefix_of_processAttestations`). -/
theorem justification_has_supermajority {s : LeanState} {atts : List AggregatedAttestation}
    {k : Nat} {a : AggregatedAttestation} {σ σ' : AttestationLoop} (ha : atts[k]? = some a)
    (hrun : loopPrefix s atts k = .ok σ) (hrun' : loopPrefix s atts (k + 1) = .ok σ')
    (hchange : σ'.state.latestJustified ≠ σ.state.latestJustified ∨
      ∃ t, σ'.state.marked t = true ∧ σ.state.marked t = false) :
    (σ'.state.latestJustified ≠ σ.state.latestJustified →
        σ'.state.latestJustified = a.target) ∧
      (∀ t, σ'.state.marked t = true → σ.state.marked t = false → t = a.target.slot) ∧
      ∃ voters : Finset Nat, 2 * s.validators.len ≤ 3 * voters.card ∧
        ∀ v ∈ voters, v < s.validators.len ∧ VoteSource s atts (k + 1) a.target.root v := by
  have hk : k < atts.length := (List.getElem?_eq_some_iff.mp ha).1
  have hσ : LoopAttributed s atts k σ := by
    simpa [Nat.min_eq_left hk.le] using loopPrefix_attributed hrun
  have hstep : processAttestation s.rootToSlot σ a = .ok σ' := by
    rw [← loopPrefix_succ ha hrun, hrun']
  have hne : σ'.state ≠ σ.state := by
    rintro heq
    rcases hchange with hJ | ⟨t, ht, ht'⟩
    · exact hJ (by rw [heq])
    · rw [heq, ht'] at ht
      cases ht
  obtain ⟨tally, hlen, hq, hvotes, heff⟩ := processAttestation_state_change hσ ha hstep hne
  refine ⟨fun hJ => ?_, fun t ht ht' => ?_, ?_⟩
  · have hJ' := heff.justified
    dsimp only at hJ'
    rw [hJ'] at hJ ⊢
    split
    · rfl
    · rename_i hnot
      exact absurd (if_neg hnot) hJ
  · have hm := heff.marked t
    dsimp only at hm
    rw [hm, ht'] at ht
    simp only [Bool.false_or, Bool.and_eq_true, decide_eq_true_eq] at ht
    exact ht.2
  · refine ⟨(Finset.range tally.len).filter fun v => tally.getD v = true, ?_, fun v hv => ?_⟩
    · rw [← BitList.numSetBits_eq_card]
      exact hq
    · rw [Finset.mem_filter, Finset.mem_range] at hv
      exact ⟨hlen ▸ hv.1, hvotes v hv.2⟩

/-- One validator, blocks at slots 0 and 1, nothing justified past the genesis slot. -/
def twoSlotState : LeanState :=
  { config := ⟨0⟩, slot := 2
    latestBlockHeader :=
      { slot := 2, proposerIndex := 0, parentRoot := 2, stateRoot := 0, bodyRoot := 0 }
    latestJustified := ⟨1, 0⟩
    latestFinalized := ⟨1, 0⟩
    historicalBlockHashes := ⟨[1, 2], by decide⟩
    justifiedSlots := ⟨[false], by decide⟩
    validators := ⟨[⟨[], [], 0⟩], by decide⟩
    justificationsRoots := ⟨[], by decide⟩
    justificationsValidators := ⟨[], by decide⟩ }

theorem single_participant_le_limit : [true].length ≤ VALIDATOR_REGISTRY_LIMIT := by decide

/-- The single validator's vote from slot 0 to slot 1. -/
def twoSlotVote : AggregatedAttestation :=
  { aggregationBits := ⟨[true], single_participant_le_limit⟩
    message := { slot := 1, head := ⟨2, 1⟩, target := ⟨2, 1⟩, source := ⟨1, 0⟩ } }

def twoSlotLoop : AttestationLoop := ⟨twoSlotState, AssocMap.empty⟩

/-- The loop after the vote: slot 1 justified, its tally dropped. -/
def twoSlotJustified : AttestationLoop :=
  ⟨{ twoSlotState with latestJustified := ⟨2, 1⟩, justifiedSlots := ⟨[true], by decide⟩ },
    AssocMap.empty⟩

theorem twoSlotVote_has_supermajority :
    [twoSlotVote][0]? = some twoSlotVote ∧
    loopPrefix twoSlotState [twoSlotVote] 0 = .ok twoSlotLoop ∧
    loopPrefix twoSlotState [twoSlotVote] 1 = .ok twoSlotJustified ∧
    twoSlotJustified.state.latestJustified ≠ twoSlotLoop.state.latestJustified ∧
    ((twoSlotJustified.state.latestJustified ≠ twoSlotLoop.state.latestJustified →
        twoSlotJustified.state.latestJustified = twoSlotVote.target) ∧
      (∀ t, twoSlotJustified.state.marked t = true → twoSlotLoop.state.marked t = false →
        t = twoSlotVote.target.slot) ∧
      ∃ voters : Finset Nat, 2 * twoSlotState.validators.len ≤ 3 * voters.card ∧
        ∀ v ∈ voters, v < twoSlotState.validators.len ∧
          VoteSource twoSlotState [twoSlotVote] 1 twoSlotVote.target.root v) :=
  ⟨rfl, rfl, rfl, by decide,
    justification_has_supermajority rfl rfl rfl (.inl (by decide))⟩

end Ream.Consensus
