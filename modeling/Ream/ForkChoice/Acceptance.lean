import Ream.ForkChoice.Atomicity

/-!
# Accepting new attestations keeps exactly the latest votes

`accept_new_attestations` drains the new payloads into the known ones and drops every key some
key of the same validator outvotes; `lt_foldl_max_iff` turns the code's largest-slot search into
the existence of a later vote.
-/

namespace Ream.ForkChoice

open Ream.Consensus EStateM

/-- The slot of the data a key signed, `0` when the store does not hold that data. -/
def Store.attestationSlot (s : Store) (key : SignatureKey) : Nat :=
  ((s.attestationDataByRoot.get? key.dataRoot).map (·.slot)).getD 0

theorem lt_foldl_max_iff {x : Nat} :
    ∀ (l : List Nat) (a : Nat), x < l.foldl max a ↔ x < a ∨ ∃ y ∈ l, x < y
  | [], a => by simp
  | y :: l, a => by
    rw [List.foldl_cons, lt_foldl_max_iff l (max a y), lt_max_iff]
    simp only [List.mem_cons, exists_eq_or_imp]
    tauto

/-! ## The merge -/

/-- A loop whose every step writes the known payloads through `g` writes them through the loop
of `g`. -/
theorem foldl_known_eq {α : Type} {f : Store → α → Store}
    {g : AssocMap SignatureKey (List PayloadProof) → α → AssocMap SignatureKey (List PayloadProof)}
    (hf : ∀ t a, f t a =
      { t with latestKnownAggregatedPayloads := g t.latestKnownAggregatedPayloads a }) :
    ∀ (l : List α) (t : Store), l.foldl f t =
      { t with latestKnownAggregatedPayloads := l.foldl g t.latestKnownAggregatedPayloads }
  | [], _ => rfl
  | a :: l, t => by
    rw [List.foldl_cons, foldl_known_eq hf l, hf t a, List.foldl_cons]

theorem mergeNewPayloads_eq (s : Store) :
    s.mergeNewPayloads =
      { s with
        latestNewAggregatedPayloads := AssocMap.empty
        latestKnownAggregatedPayloads := s.latestNewAggregatedPayloads.entries.foldl
          (fun m e => m.insert e.1 (m.getD e.1 [] ++ e.2)) s.latestKnownAggregatedPayloads } := by
  unfold Store.mergeNewPayloads
  dsimp only
  exact @foldl_known_eq _ _
    (fun (m : AssocMap SignatureKey (List PayloadProof)) (e : SignatureKey × List PayloadProof) =>
      m.insert e.1 (m.getD e.1 [] ++ e.2)) (fun _ _ => rfl) _ _

theorem mergeNewPayloads_get? (s : Store) (key : SignatureKey) :
    s.mergeNewPayloads.latestKnownAggregatedPayloads.get? key =
      ((s.latestNewAggregatedPayloads.get? key).map fun newProofs =>
        s.latestKnownAggregatedPayloads.getD key [] ++ newProofs).or
        (s.latestKnownAggregatedPayloads.get? key) := by
  rw [mergeNewPayloads_eq]
  exact AssocMap.get?_foldl_insertAppend _ _ key

theorem mem_mergeNewPayloads_keys (s : Store) (key : SignatureKey) :
    key ∈ s.mergeNewPayloads.latestKnownAggregatedPayloads.keys ↔
      key ∈ s.latestKnownAggregatedPayloads.keys ∨ key ∈ s.latestNewAggregatedPayloads.keys := by
  rw [AssocMap.mem_keys, AssocMap.mem_keys, AssocMap.mem_keys, mergeNewPayloads_get?]
  cases s.latestNewAggregatedPayloads.get? key <;> simp

/-! ## Dropping superseded keys -/

theorem mem_superseded_iff (keys : List SignatureKey) (slotOf : SignatureKey → Nat)
    (key : SignatureKey) :
    (key ∈ keys.filter fun k =>
        slotOf k < ((keys.filter (·.validatorId = k.validatorId)).map slotOf).foldl max 0) ↔
      key ∈ keys ∧ ∃ k ∈ keys, k.validatorId = key.validatorId ∧ slotOf key < slotOf k := by
  rw [List.mem_filter, decide_eq_true_iff, lt_foldl_max_iff]
  constructor
  · rintro ⟨hkey, hlt | ⟨y, hy, hlt⟩⟩
    · exact absurd hlt (Nat.not_lt_zero _)
    · obtain ⟨k, hk, rfl⟩ := List.mem_map.mp hy
      rw [List.mem_filter, decide_eq_true_iff] at hk
      exact ⟨hkey, k, hk.1, hk.2, hlt⟩
  · rintro ⟨hkey, k, hk, hv, hlt⟩
    exact ⟨hkey, .inr ⟨_, List.mem_map.mpr ⟨k, List.mem_filter.mpr ⟨hk, decide_eq_true hv⟩, rfl⟩,
      hlt⟩⟩

theorem dropSupersededPayloads_get? (s : Store) (key : SignatureKey) (proofs : List PayloadProof) :
    s.dropSupersededPayloads.latestKnownAggregatedPayloads.get? key = some proofs ↔
      s.latestKnownAggregatedPayloads.get? key = some proofs ∧
        ¬ ∃ k ∈ s.latestKnownAggregatedPayloads.keys,
          k.validatorId = key.validatorId ∧ s.attestationSlot key < s.attestationSlot k := by
  have hknown : s.latestKnownAggregatedPayloads.get? key = some proofs →
      key ∈ s.latestKnownAggregatedPayloads.keys := fun h => by
    rw [AssocMap.mem_keys, h]
    rfl
  unfold Store.dropSupersededPayloads
  dsimp only
  split
  · rename_i hempty
    rw [List.isEmpty_iff] at hempty
    refine ⟨fun h => ⟨h, fun hlater => ?_⟩, fun h => h.1⟩
    exact List.not_mem_nil (hempty ▸ (mem_superseded_iff _ _ key).mpr ⟨hknown h, hlater⟩)
  · rw [AssocMap.get?_retain, Option.filter_eq_some_iff, decide_eq_true_iff, mem_superseded_iff]
    constructor
    · rintro ⟨hget, hnot⟩
      exact ⟨hget, fun hlater => hnot ⟨hknown hget, hlater⟩⟩
    · rintro ⟨hget, hnot⟩
      exact ⟨hget, fun h => hnot h.2⟩

/-! ## The whole operation -/

theorem acceptNewAttestations_run (s : Store) :
    acceptNewAttestations.run s = updateHead.run s.mergeNewPayloads.dropSupersededPayloads :=
  rfl

theorem updateHead_tables {t s' : Store} (h : updateHead.run t = .ok () s') :
    s'.latestKnownAggregatedPayloads = t.latestKnownAggregatedPayloads ∧
      s'.latestNewAggregatedPayloads = t.latestNewAggregatedPayloads ∧
      s'.attestationDataByRoot = t.attestationDataByRoot := by
  rw [updateHead_run] at h
  cases hr : t.headAndFinalized with
  | ok r =>
    rw [hr] at h
    cases h
    exact ⟨rfl, rfl, rfl⟩
  | error e =>
    rw [hr] at h
    cases h

theorem dropSupersededPayloads_tables (s : Store) :
    s.dropSupersededPayloads.latestNewAggregatedPayloads = s.latestNewAggregatedPayloads ∧
      s.dropSupersededPayloads.attestationDataByRoot = s.attestationDataByRoot := by
  unfold Store.dropSupersededPayloads
  dsimp only
  split <;> exact ⟨rfl, rfl⟩

/-- After `accept_new_attestations` returns `Ok`, no new payload is left; a key holds, if
anything, its old known proofs followed by its drained new ones; and a key is absent exactly
when, if it was in either table, some key of its validator in either table has a later
attestation slot. -/
theorem acceptNewAttestations_keeps_latest_votes {s s' : Store}
    (h : acceptNewAttestations.run s = .ok () s') :
    s'.latestNewAggregatedPayloads = AssocMap.empty ∧
    ∀ key : SignatureKey,
      (s'.latestKnownAggregatedPayloads.get? key = none ∨
        s'.latestKnownAggregatedPayloads.get? key = some
          (s.latestKnownAggregatedPayloads.getD key [] ++
            s.latestNewAggregatedPayloads.getD key [])) ∧
      (s'.latestKnownAggregatedPayloads.get? key = none ↔
        (key ∈ s.latestKnownAggregatedPayloads.keys ∨ key ∈ s.latestNewAggregatedPayloads.keys →
          ∃ k, (k ∈ s.latestKnownAggregatedPayloads.keys ∨
              k ∈ s.latestNewAggregatedPayloads.keys) ∧
            k.validatorId = key.validatorId ∧ s.attestationSlot key < s.attestationSlot k)) := by
  rw [acceptNewAttestations_run] at h
  obtain ⟨hknown, hnew, -⟩ := updateHead_tables h
  obtain ⟨hdropNew, hdropData⟩ := dropSupersededPayloads_tables s.mergeNewPayloads
  have hslot : s.mergeNewPayloads.attestationSlot = s.attestationSlot := by
    rw [mergeNewPayloads_eq]
    rfl
  refine ⟨by rw [hnew, hdropNew, mergeNewPayloads_eq], fun key => ⟨?_, ?_⟩⟩
  · cases hget : s'.latestKnownAggregatedPayloads.get? key with
    | none => exact .inl rfl
    | some proofs =>
      right
      rw [hknown, dropSupersededPayloads_get?, mergeNewPayloads_get?] at hget
      rw [AssocMap.getD_eq s.latestNewAggregatedPayloads]
      cases hn : s.latestNewAggregatedPayloads.get? key with
      | none =>
        rw [hn, Option.map_none, Option.none_or] at hget
        rw [AssocMap.getD_eq, hget.1, Option.getD_none, List.append_nil]
        rfl
      | some newProofs =>
        rw [hn, Option.map_some, Option.some_or] at hget
        rw [← Option.some.inj hget.1]
        rfl
  · rw [hknown, Option.eq_none_iff_forall_ne_some]
    simp only [ne_eq, dropSupersededPayloads_get?, hslot, not_and, not_not,
      mem_mergeNewPayloads_keys]
    constructor
    · intro habsent hpresent
      obtain ⟨proofs, hproofs⟩ : ∃ proofs,
          s.mergeNewPayloads.latestKnownAggregatedPayloads.get? key = some proofs := by
        rw [← Option.isSome_iff_exists, ← AssocMap.mem_keys, mem_mergeNewPayloads_keys]
        exact hpresent
      exact habsent proofs hproofs
    · intro hlater proofs hproofs
      have hpresent : key ∈ s.mergeNewPayloads.latestKnownAggregatedPayloads.keys := by
        rw [AssocMap.mem_keys, hproofs]
        rfl
      rw [mem_mergeNewPayloads_keys] at hpresent
      exact hlater hpresent

/-- A vote of validator `0` for the anchor at slot `1`, and one at slot `2`. -/
def voteAt (slot : Nat) : AttestationData :=
  { slot, head := ⟨polyRoot 5, 0⟩, target := ⟨polyRoot 5, 0⟩, source := ⟨polyRoot 5, 0⟩ }

def singleProof : PayloadProof := ⟨⟨[true], single_participant_le_limit⟩, []⟩

/-- A store whose known payload for the slot-1 vote is outvoted by a new payload for the
slot-2 vote of the same validator. -/
def supersededVoteStore : Store :=
  { Store.empty with
    childrenIndex := AssocMap.ofList [(polyRoot 5, ⟨0, B256.ZERO⟩)]
    states := AssocMap.ofList [(polyRoot 5, polyGenesis)]
    latestJustified := ⟨polyRoot 5, 0⟩
    attestationDataByRoot := AssocMap.ofList [(polyRoot 1, voteAt 1), (polyRoot 2, voteAt 2)]
    latestKnownAggregatedPayloads := AssocMap.ofList [(⟨0, polyRoot 1⟩, [singleProof])]
    latestNewAggregatedPayloads := AssocMap.ofList [(⟨0, polyRoot 2⟩, [singleProof])] }

/-- The store after: only the slot-2 payload is left, and the anchor is head and finalized. -/
def acceptedVoteStore : Store :=
  { supersededVoteStore with
    head := polyRoot 5
    latestFinalized := ⟨polyRoot 5, 0⟩
    latestKnownAggregatedPayloads := AssocMap.ofList [(⟨0, polyRoot 2⟩, [singleProof])]
    latestNewAggregatedPayloads := AssocMap.empty }

theorem supersededVote_dropped :
    acceptNewAttestations.run supersededVoteStore = .ok () acceptedVoteStore ∧
    acceptedVoteStore.latestNewAggregatedPayloads = AssocMap.empty ∧
    ∀ key : SignatureKey,
      (acceptedVoteStore.latestKnownAggregatedPayloads.get? key = none ∨
        acceptedVoteStore.latestKnownAggregatedPayloads.get? key = some
          (supersededVoteStore.latestKnownAggregatedPayloads.getD key [] ++
            supersededVoteStore.latestNewAggregatedPayloads.getD key [])) ∧
      (acceptedVoteStore.latestKnownAggregatedPayloads.get? key = none ↔
        (key ∈ supersededVoteStore.latestKnownAggregatedPayloads.keys ∨
            key ∈ supersededVoteStore.latestNewAggregatedPayloads.keys →
          ∃ k, (k ∈ supersededVoteStore.latestKnownAggregatedPayloads.keys ∨
              k ∈ supersededVoteStore.latestNewAggregatedPayloads.keys) ∧
            k.validatorId = key.validatorId ∧
            supersededVoteStore.attestationSlot key < supersededVoteStore.attestationSlot k)) :=
  have hrun : acceptNewAttestations.run supersededVoteStore = .ok () acceptedVoteStore := rfl
  ⟨hrun, acceptNewAttestations_keeps_latest_votes hrun⟩

end Ream.ForkChoice
