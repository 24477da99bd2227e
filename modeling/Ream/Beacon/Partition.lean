import Ream.Beacon.Committee
import Ream.Lib.SwapOrNot
import Ream.Lib.Slices
import Ream.Lib.Loop

/-!
# The committees of an epoch partition its active validators

Swap-or-not rounds permute `[0, n)` and the committee slices tile it, so the committees of an
epoch laid end to end are a permutation of the active validators (`epochCommittees_perm`).
`get_committee_assignment` finds a validator's one committee exactly when it is active.
-/

namespace Ream.Beacon

open Ream.Consensus

/-! ## The shuffle -/

/-- `compute_shuffled_index` as a function: its rounds in order. -/
def shuffledIndex (hash : List UInt8 → B256) (indexCount : Nat) (seed : B256) : Nat → Nat :=
  SwapOrNot.rounds indexCount (shufflePivot hash indexCount seed) (shuffleBit hash seed)
    (List.range SHUFFLE_ROUND_COUNT)

variable {hash : List UInt8 → B256} {seed : B256}

theorem computeShuffledIndex_of_lt {index indexCount : Nat} (h : index < indexCount) :
    computeShuffledIndex hash index indexCount seed =
      .ok (shuffledIndex hash indexCount seed index) := by
  rw [computeShuffledIndex, if_pos h]
  rfl

theorem shuffledIndex_lt {indexCount index : Nat} (h : index < indexCount) :
    shuffledIndex hash indexCount seed index < indexCount :=
  SwapOrNot.rounds_lt (Nat.lt_of_le_of_lt (Nat.zero_le _) h) _ h

theorem map_shuffledIndex_perm (n : Nat) :
    (List.range n).map (shuffledIndex hash n seed) |>.Perm (List.range n) := by
  rcases Nat.eq_zero_or_pos n with rfl | hn
  · rfl
  · exact SwapOrNot.map_rounds_perm (fun _ => Nat.mod_lt _ hn) _

/-! ## One committee -/

/-- The validators at the shuffled positions of slice `index` of `count`. -/
def shuffledSlice (hash : List UInt8 → B256) (indices : List Nat) (seed : B256)
    (index count : Nat) : List Nat :=
  (Slices.slice indices.length count index).map fun i =>
    indices.getD (shuffledIndex hash indices.length seed i) 0

theorem computeCommittee_eq {indices : List Nat} {index count : Nat} (h : index < count) :
    computeCommittee hash indices seed index count =
      .ok (shuffledSlice hash indices seed index count) := by
  rw [computeCommittee, if_neg (by omega)]
  refine Loop.mapM_eq_ok fun i hi => ?_
  have hin : i < indices.length := Slices.mem_slice_lt h hi
  have hlt : shuffledIndex hash indices.length seed i < indices.length := shuffledIndex_lt hin
  rw [computeShuffledIndex_of_lt hin]
  simp only [bind, Except.bind, List.getElem?_eq_getElem hlt, List.getD_eq_getElem _ _ hlt]

theorem map_getD_range (l : List Nat) : (List.range l.length).map (fun i => l.getD i 0) = l := by
  apply List.ext_getElem (by simp)
  intro i _ hi
  simp [List.getElem?_eq_getElem hi]

theorem flatten_shuffledSlice_perm (indices : List Nat) {count : Nat} (hc : 0 < count) :
    ((List.range count).map fun j => shuffledSlice hash indices seed j count).flatten
      |>.Perm indices := by
  have hflat : ((List.range count).map fun j => shuffledSlice hash indices seed j count).flatten =
      ((List.range indices.length).map (shuffledIndex hash indices.length seed)).map
        (fun i => indices.getD i 0) := by
    rw [List.map_map, ← @Slices.flatMap_slice indices.length count hc, List.flatMap_def,
      List.map_flatten, List.map_map]
    rfl
  rw [hflat]
  have hperm := (@map_shuffledIndex_perm hash seed indices.length).map
    fun i => indices.getD i 0
  rwa [map_getD_range] at hperm


/-! ## The committees of an epoch -/

theorem getActiveValidatorIndices_nodup (s : BeaconState) (epoch : Nat) :
    (s.getActiveValidatorIndices epoch).Nodup := by
  have hsub : List.Sublist (s.getActiveValidatorIndices epoch)
      (s.validators.zipIdx.map Prod.snd) := by
    refine Loop.filterMap_sublist_map (fun ⟨validator, i⟩ b h => ?_) _
    dsimp only at h
    split at h
    · exact (Option.some.inj h).symm
    · cases h
  rw [List.zipIdx_map_snd] at hsub
  exact hsub.nodup List.nodup_range'

theorem getCommitteeCountPerSlot_pos (s : BeaconState) (epoch : Nat) :
    0 < s.getCommitteeCountPerSlot epoch := by
  unfold BeaconState.getCommitteeCountPerSlot
  dsimp only
  split_ifs with hlow
  · exact Nat.one_pos
  · decide
  · omega

/-- `slot` lies in `epoch` and `index` is one of its committees. -/
def InEpoch (s : BeaconState) (epoch slot index : Nat) : Prop :=
  computeEpochAtSlot slot = epoch ∧ index < s.getCommitteeCountPerSlot epoch

/-- The committee index `get_beacon_committee` passes to `compute_committee`. -/
def committeeIndex (committeesPerSlot slot index : Nat) : Nat :=
  (slot % SLOTS_PER_EPOCH) * committeesPerSlot + index

theorem committeeIndex_lt {committeesPerSlot index : Nat} (slot : Nat)
    (h : index < committeesPerSlot) :
    committeeIndex committeesPerSlot slot index < committeesPerSlot * SLOTS_PER_EPOCH := by
  have hslot : slot % SLOTS_PER_EPOCH + 1 ≤ SLOTS_PER_EPOCH := Nat.mod_lt _ (by decide)
  calc (slot % SLOTS_PER_EPOCH) * committeesPerSlot + index
      < (slot % SLOTS_PER_EPOCH) * committeesPerSlot + committeesPerSlot := by omega
    _ = (slot % SLOTS_PER_EPOCH + 1) * committeesPerSlot := (Nat.succ_mul _ _).symm
    _ ≤ SLOTS_PER_EPOCH * committeesPerSlot := Nat.mul_le_mul_right _ hslot
    _ = committeesPerSlot * SLOTS_PER_EPOCH := Nat.mul_comm _ _

theorem committeeIndex_inj {s : BeaconState} {epoch slot₁ index₁ slot₂ index₂ : Nat}
    (h₁ : InEpoch s epoch slot₁ index₁) (h₂ : InEpoch s epoch slot₂ index₂)
    (h : committeeIndex (s.getCommitteeCountPerSlot epoch) slot₁ index₁ =
      committeeIndex (s.getCommitteeCountPerSlot epoch) slot₂ index₂) :
    slot₁ = slot₂ ∧ index₁ = index₂ := by
  obtain ⟨he₁, hi₁⟩ := h₁
  obtain ⟨he₂, hi₂⟩ := h₂
  unfold committeeIndex at h
  have hc := getCommitteeCountPerSlot_pos s epoch
  generalize s.getCommitteeCountPerSlot epoch = C at h hi₁ hi₂ hc
  have hmod := congrArg (· % C) h
  have hdiv := congrArg (· / C) h
  simp only [Nat.add_comm _ index₁, Nat.add_comm _ index₂, Nat.add_mul_mod_self_right,
    Nat.mod_eq_of_lt hi₁, Nat.mod_eq_of_lt hi₂, Nat.add_mul_div_right _ _ hc,
    Nat.div_eq_of_lt hi₁, Nat.div_eq_of_lt hi₂, Nat.zero_add] at hmod hdiv
  unfold computeEpochAtSlot SLOTS_PER_EPOCH at he₁ he₂
  unfold SLOTS_PER_EPOCH at hdiv
  exact ⟨by omega, hmod⟩

theorem committeeIndex_surj {s : BeaconState} {epoch j : Nat}
    (hj : j < s.getCommitteeCountPerSlot epoch * SLOTS_PER_EPOCH) :
    ∃ slot index, InEpoch s epoch slot index ∧
      committeeIndex (s.getCommitteeCountPerSlot epoch) slot index = j := by
  have hc := getCommitteeCountPerSlot_pos s epoch
  unfold InEpoch
  generalize s.getCommitteeCountPerSlot epoch = C at hj hc ⊢
  have hq : j / C < SLOTS_PER_EPOCH := Nat.div_lt_of_lt_mul hj
  have hj' : j / C * C + j % C = j := Nat.div_add_mod' j C
  generalize j / C = q at hq hj'
  refine ⟨epoch * SLOTS_PER_EPOCH + q, j % C, ⟨?_, Nat.mod_lt _ hc⟩, ?_⟩
  · unfold computeEpochAtSlot SLOTS_PER_EPOCH at *
    omega
  · have hslot : (epoch * SLOTS_PER_EPOCH + q) % SLOTS_PER_EPOCH = q := by
      unfold SLOTS_PER_EPOCH at *
      omega
    rw [committeeIndex, hslot]
    exact hj'

variable (H : BeaconHash)

/-- The committees of `epoch` in committee-index order. -/
def epochCommittees (s : BeaconState) (epoch : Nat) : List (List Nat) :=
  let count := s.getCommitteeCountPerSlot epoch * SLOTS_PER_EPOCH
  (List.range count).map fun j =>
    shuffledSlice H.hash (s.getActiveValidatorIndices epoch)
      (s.getSeed H epoch DOMAIN_BEACON_ATTESTER) j count

theorem getBeaconCommittee_eq {s : BeaconState} {epoch slot index : Nat}
    (h : InEpoch s epoch slot index) :
    s.getBeaconCommittee H slot index = .ok ((epochCommittees H s epoch).getD
      (committeeIndex (s.getCommitteeCountPerSlot epoch) slot index) []) := by
  have hj := committeeIndex_lt slot h.2
  rw [BeaconState.getBeaconCommittee, h.1]
  refine (computeCommittee_eq hj).trans ?_
  rw [epochCommittees, List.getD_eq_getElem _ _ (by simpa using hj)]
  simp

theorem epochCommittees_perm (s : BeaconState) (epoch : Nat) :
    (epochCommittees H s epoch).flatten.Perm (s.getActiveValidatorIndices epoch) :=
  flatten_shuffledSlice_perm _ (Nat.mul_pos (getCommitteeCountPerSlot_pos s epoch) (by decide))

theorem epochCommittees_nodup (s : BeaconState) (epoch : Nat) :
    (epochCommittees H s epoch).flatten.Nodup :=
  (epochCommittees_perm H s epoch).nodup_iff.mpr (getActiveValidatorIndices_nodup s epoch)


theorem length_epochCommittees (s : BeaconState) (epoch : Nat) :
    (epochCommittees H s epoch).length = s.getCommitteeCountPerSlot epoch * SLOTS_PER_EPOCH := by
  simp [epochCommittees]

theorem committeeIndex_lt_length {s : BeaconState} {epoch slot index : Nat}
    (h : InEpoch s epoch slot index) :
    committeeIndex (s.getCommitteeCountPerSlot epoch) slot index <
      (epochCommittees H s epoch).length := by
  rw [length_epochCommittees]
  exact committeeIndex_lt slot h.2

theorem getBeaconCommittee_getElem {s : BeaconState} {epoch slot index : Nat}
    (h : InEpoch s epoch slot index) :
    ∃ hj : committeeIndex (s.getCommitteeCountPerSlot epoch) slot index <
        (epochCommittees H s epoch).length,
      s.getBeaconCommittee H slot index =
        .ok (epochCommittees H s epoch)[committeeIndex (s.getCommitteeCountPerSlot epoch) slot index] :=
  ⟨committeeIndex_lt_length H h, by rw [getBeaconCommittee_eq H h, List.getD_eq_getElem]⟩

theorem epochCommittees_disjoint {s : BeaconState} {epoch j₁ j₂ : Nat}
    (h₁ : j₁ < (epochCommittees H s epoch).length) (h₂ : j₂ < (epochCommittees H s epoch).length)
    (hne : j₁ ≠ j₂) :
    (epochCommittees H s epoch)[j₁].Disjoint (epochCommittees H s epoch)[j₂] := by
  have hpair := (List.nodup_flatten.mp (epochCommittees_nodup H s epoch)).2
  rcases Nat.lt_or_gt_of_ne hne with hlt | hlt
  · exact List.pairwise_iff_getElem.mp hpair j₁ j₂ h₁ h₂ hlt
  · exact (List.pairwise_iff_getElem.mp hpair j₂ j₁ h₂ h₁ hlt).symm

theorem length_epochCommittee {s : BeaconState} {epoch j : Nat}
    (hj : j < (epochCommittees H s epoch).length) :
    let count := s.getCommitteeCountPerSlot epoch * SLOTS_PER_EPOCH
    (epochCommittees H s epoch)[j].length = (s.getActiveValidatorIndices epoch).length / count ∨
      (epochCommittees H s epoch)[j].length =
        (s.getActiveValidatorIndices epoch).length / count + 1 := by
  simp only [epochCommittees, List.getElem_map, List.getElem_range, shuffledSlice,
    List.length_map]
  exact Slices.length_slice (Nat.mul_pos (getCommitteeCountPerSlot_pos s epoch) (by decide)) j

theorem mem_active_iff {s : BeaconState} {epoch v : Nat} :
    v ∈ s.getActiveValidatorIndices epoch ↔ ∃ slot index committee, InEpoch s epoch slot index ∧
      s.getBeaconCommittee H slot index = .ok committee ∧ v ∈ committee := by
  rw [← (epochCommittees_perm H s epoch).mem_iff, List.mem_flatten]
  constructor
  · rintro ⟨l, hl, hv⟩
    obtain ⟨j, hj, rfl⟩ := List.getElem_of_mem hl
    obtain ⟨slot, index, hin, hidx⟩ :=
      committeeIndex_surj (by rwa [length_epochCommittees] at hj)
    refine ⟨slot, index, _, hin, getBeaconCommittee_eq H hin, ?_⟩
    rw [hidx, List.getD_eq_getElem _ _ hj]
    exact hv
  · rintro ⟨slot, index, committee, hin, hc, hv⟩
    rw [getBeaconCommittee_eq H hin, Except.ok.injEq] at hc
    have hj := committeeIndex_lt slot hin.2
    rw [← length_epochCommittees H] at hj
    rw [List.getD_eq_getElem _ _ hj] at hc
    exact ⟨_, hc ▸ List.getElem_mem hj, hv⟩

/-! ## `get_committee_assignment` -/

theorem mem_assignmentPairs {s : BeaconState} {epoch slot index : Nat}
    (hroom : (epoch + 1) * SLOTS_PER_EPOCH < 2 ^ 64) :
    (slot, index) ∈ s.assignmentPairs epoch ↔ InEpoch s epoch slot index := by
  unfold BeaconState.assignmentPairs InEpoch computeStartSlotAtEpoch computeEpochAtSlot
  simp only [List.mem_flatMap, List.mem_range'_1, List.mem_map, List.mem_range,
    Prod.mk.injEq]
  unfold SLOTS_PER_EPOCH at hroom ⊢
  rw [Nat.mod_eq_of_lt (by omega : epoch * 32 < 2 ^ 64),
    Nat.mod_eq_of_lt (by omega : epoch * 32 + 32 < 2 ^ 64)]
  constructor
  · rintro ⟨slot', hslot, index', hindex, rfl, rfl⟩
    exact ⟨by omega, hindex⟩
  · rintro ⟨hslot, hindex⟩
    exact ⟨slot, by omega, index, hindex, rfl, rfl⟩

/-- The committee of a `(slot, index)` pair of the epoch. -/
def pairCommittee (s : BeaconState) (epoch : Nat) (p : Nat × Nat) : List Nat :=
  (epochCommittees H s epoch).getD (committeeIndex (s.getCommitteeCountPerSlot epoch) p.1 p.2) []

theorem getBeaconCommittee_pair {s : BeaconState} {epoch : Nat} {p : Nat × Nat}
    (hroom : (epoch + 1) * SLOTS_PER_EPOCH < 2 ^ 64) (hp : p ∈ s.assignmentPairs epoch) :
    s.getBeaconCommittee H p.1 p.2 = .ok (pairCommittee H s epoch p) :=
  getBeaconCommittee_eq H ((mem_assignmentPairs hroom).mp hp)

/-- The search finds the first committee of the list that holds the validator, and none
when no committee does. -/
theorem findAssignment_spec {s : BeaconState} {v : Nat} (committee : Nat × Nat → List Nat) :
    ∀ pairs : List (Nat × Nat), (∀ p ∈ pairs, s.getBeaconCommittee H p.1 p.2 = .ok (committee p)) →
      ∃ r, s.findAssignment H v pairs = .ok r ∧ (r.isSome ↔ ∃ p ∈ pairs, v ∈ committee p) ∧
        ∀ c index slot, r = some (c, index, slot) →
          (slot, index) ∈ pairs ∧ c = committee (slot, index) ∧ v ∈ c
  | [], _ => ⟨none, rfl, by simp, by simp⟩
  | (slot, index) :: rest, h => by
    have hc := h (slot, index) List.mem_cons_self
    rw [BeaconState.findAssignment, hc]
    by_cases hv : v ∈ committee (slot, index)
    · refine ⟨some (committee (slot, index), index, slot), ?_, ?_, ?_⟩
      · simp [bind, Except.bind, hv, pure, Except.pure]
      · simp only [Option.isSome_some, true_iff]
        exact ⟨(slot, index), List.mem_cons_self, hv⟩
      · rintro c index' slot' ⟨⟩
        exact ⟨List.mem_cons_self, rfl, hv⟩
    · obtain ⟨r, hr, hiff, hsome⟩ :=
        findAssignment_spec committee rest fun p hp => h p (List.mem_cons_of_mem _ hp)
      refine ⟨r, ?_, ?_, fun c index' slot' hr' => ?_⟩
      · have hnot : (committee (slot, index)).contains v = false := by
          rw [Bool.eq_false_iff]
          exact fun hcon => hv (List.contains_iff_mem.mp hcon)
        simp only [bind, Except.bind, hnot]
        exact hr
      · rw [hiff]
        constructor
        · rintro ⟨p, hp, hvp⟩
          exact ⟨p, List.mem_cons_of_mem _ hp, hvp⟩
        · rintro ⟨p, hp, hvp⟩
          rcases List.mem_cons.mp hp with rfl | hp
          · exact absurd hvp hv
          · exact ⟨p, hp, hvp⟩
      · obtain ⟨hmem, hc', hvc⟩ := hsome c index' slot' hr'
        exact ⟨List.mem_cons_of_mem _ hmem, hc', hvc⟩


/-! ## Committees partition the active validators -/

/-- The committees of an epoch partition its active validators. Each slot and committee index
of the epoch has a committee without repeats. Two committees differ in size by at most one
and share no validator. The active validators are exactly their members. Up to the next
epoch, and while the epoch's slot range fits a `u64`, `get_committee_assignment` returns a
validator's committee exactly when the validator is active; beyond the next epoch it fails. -/
theorem committees_partition (H : BeaconHash) (s : BeaconState) (epoch : Nat) :
    (∀ slot index, InEpoch s epoch slot index →
      ∃ committee, s.getBeaconCommittee H slot index = .ok committee ∧ committee.Nodup) ∧
    (∀ slot₁ index₁ slot₂ index₂ committee₁ committee₂,
      InEpoch s epoch slot₁ index₁ → InEpoch s epoch slot₂ index₂ →
      s.getBeaconCommittee H slot₁ index₁ = .ok committee₁ →
      s.getBeaconCommittee H slot₂ index₂ = .ok committee₂ →
      committee₁.length ≤ committee₂.length + 1 ∧
        ((slot₁, index₁) ≠ (slot₂, index₂) → committee₁.Disjoint committee₂)) ∧
    (∀ v, v ∈ s.getActiveValidatorIndices epoch ↔ ∃ slot index committee,
      InEpoch s epoch slot index ∧ s.getBeaconCommittee H slot index = .ok committee ∧
        v ∈ committee) ∧
    (epoch ≤ s.getCurrentEpoch + 1 → (epoch + 1) * SLOTS_PER_EPOCH < 2 ^ 64 → ∀ v, ∃ assignment,
      s.getCommitteeAssignment H epoch v = .ok assignment ∧
      (assignment.isSome ↔ v ∈ s.getActiveValidatorIndices epoch) ∧
      ∀ committee index slot, assignment = some (committee, index, slot) →
        InEpoch s epoch slot index ∧ s.getBeaconCommittee H slot index = .ok committee ∧
          v ∈ committee) ∧
    (s.getCurrentEpoch + 1 < epoch → ∀ v, s.getCommitteeAssignment H epoch v =
      .error ("Requested epoch " ++ toString epoch ++ " is beyond the allowed maximum (next epoch: " ++
        toString (s.getCurrentEpoch + 1) ++ ")")) := by
  have hflat := List.nodup_flatten.mp (epochCommittees_nodup H s epoch)
  refine ⟨fun slot index hin => ?_, fun slot₁ index₁ slot₂ index₂ c₁ c₂ hin₁ hin₂ hc₁ hc₂ => ?_,
    fun v => mem_active_iff H, fun hepoch hroom v => ?_, fun hbeyond v => ?_⟩
  · obtain ⟨hj, hc⟩ := getBeaconCommittee_getElem H hin
    exact ⟨_, hc, hflat.1 _ (List.getElem_mem hj)⟩
  · obtain ⟨hj₁, hc₁'⟩ := getBeaconCommittee_getElem H hin₁
    obtain ⟨hj₂, hc₂'⟩ := getBeaconCommittee_getElem H hin₂
    rw [hc₁', Except.ok.injEq] at hc₁
    rw [hc₂', Except.ok.injEq] at hc₂
    subst hc₁ hc₂
    refine ⟨?_, fun hne => epochCommittees_disjoint H hj₁ hj₂ fun hj => hne ?_⟩
    · rcases length_epochCommittee H hj₁ with h₁ | h₁ <;>
        rcases length_epochCommittee H hj₂ with h₂ | h₂ <;>
        omega
    · obtain ⟨rfl, rfl⟩ := committeeIndex_inj hin₁ hin₂ hj
      rfl
  · obtain ⟨r, hr, hiff, hsome⟩ :=
      @findAssignment_spec H s v (pairCommittee H s epoch) _ fun _ hp =>
        getBeaconCommittee_pair H hroom hp
    refine ⟨r, ?_, ?_, fun c index slot hrs => ?_⟩
    · rw [BeaconState.getCommitteeAssignment, if_pos hepoch]
      exact hr
    · rw [hiff, mem_active_iff H]
      constructor
      · rintro ⟨⟨slot, index⟩, hp, hv⟩
        have hc := getBeaconCommittee_pair H hroom hp
        exact ⟨slot, index, _, (mem_assignmentPairs hroom).mp hp, hc, hv⟩
      · rintro ⟨slot, index, c, hin, hc, hv⟩
        have hp := (mem_assignmentPairs hroom).mpr hin
        rw [getBeaconCommittee_pair H hroom hp, Except.ok.injEq] at hc
        exact ⟨(slot, index), hp, hc ▸ hv⟩
    · obtain ⟨hp, rfl, hv⟩ := hsome c index slot hrs
      have hc := getBeaconCommittee_pair H hroom hp
      exact ⟨(mem_assignmentPairs hroom).mp hp, hc, hv⟩
  · rw [BeaconState.getCommitteeAssignment, if_neg (Nat.not_le.mpr hbeyond)]
    rfl

/-- A state at slot 0 with one validator, active from genesis on. -/
def singleValidatorGenesis : BeaconState where
  slot := 0
  latestBlockHeader := ⟨0, 0, B256.ZERO, B256.ZERO, B256.ZERO⟩
  blockRoots := fun _ => B256.ZERO
  stateRoots := fun _ => B256.ZERO
  validators := [⟨32000000000, false, 0, FAR_FUTURE_EPOCH⟩]
  randaoMixes := fun _ => B256.ZERO
  previousEpochParticipation := [0]
  currentEpochParticipation := [0]
  justificationBits := ⟨[false, false, false, false], noJustificationBits_length⟩
  previousJustifiedCheckpoint := ⟨0, B256.ZERO⟩
  currentJustifiedCheckpoint := ⟨0, B256.ZERO⟩
  finalizedCheckpoint := ⟨0, B256.ZERO⟩

/-- The same validator at the last slot whose epoch has a full `u64` slot range below it. -/
def lastEpochState : BeaconState := { singleValidatorGenesis with slot := 2 ^ 64 - SLOTS_PER_EPOCH }

/-- Validator 0 is active at epoch 2, yet `get_committee_assignment` at epoch 2 of a state
in epoch 0 returns an error, not its committee; and at epoch `2^59 - 1`, its own, the slot
range `start_slot..start_slot + SLOTS_PER_EPOCH` wraps to empty and it finds no committee. -/
theorem assignment_beyond_next_epoch :
    (0 ∈ singleValidatorGenesis.getActiveValidatorIndices 2 ∧
      singleValidatorGenesis.getCommitteeAssignment zeroHash 2 0 =
        .error "Requested epoch 2 is beyond the allowed maximum (next epoch: 1)") ∧
    (lastEpochState.getCurrentEpoch = 2 ^ 59 - 1 ∧
      0 ∈ lastEpochState.getActiveValidatorIndices (2 ^ 59 - 1) ∧
      lastEpochState.getCommitteeAssignment zeroHash (2 ^ 59 - 1) 0 = .ok none) :=
  ⟨⟨by decide, rfl⟩, by decide, by decide, rfl⟩

end Ream.Beacon
