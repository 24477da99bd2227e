import Ream.Consensus.Attestations
import Ream.Lib.Loop

/-!
# What each part of the attestation loop does

One lemma per function of `Attestations`, so that the invariant proofs never unfold the loop
body; `processAttestation_cases` lists what a successful step can do: skip, record a tally, or
justify.
-/

namespace Ream.Consensus

open Ssz

/-- The justified status of a slot that the filters read: `true` at or below the finalized
slot, the slot's bit after it. -/
def LeanState.slotJustified (s : LeanState) (slot : Nat) : Bool :=
  match justifiedIndexAfter slot s.latestFinalized.slot with
  | some index => s.justifiedSlots.getD index
  | none => true

/-- The slot's bit exists whenever the slot is past the finalized one. -/
def LeanState.SlotInRange (s : LeanState) (slot : Nat) : Prop :=
  s.latestFinalized.slot < slot → slot - s.latestFinalized.slot - 1 < s.justifiedSlots.len

theorem isSlotJustified_ok {s : LeanState} {slot : Nat} {b : Bool}
    (h : isSlotJustified s slot = .ok b) : s.SlotInRange slot ∧ b = s.slotJustified slot := by
  unfold isSlotJustified at h
  unfold LeanState.slotJustified LeanState.SlotInRange
  cases hindex : justifiedIndexAfter slot s.latestFinalized.slot with
  | some index =>
    rw [hindex, Except.mapError_eq_ok] at h
    obtain ⟨hlt, hget⟩ := BitList.get_ok h
    obtain ⟨_, rfl⟩ := justifiedIndexAfter_eq_some.mp hindex
    exact ⟨fun _ => hlt, hget.symm⟩
  | none =>
    rw [hindex] at h
    cases h
    have hle := justifiedIndexAfter_eq_none.mp hindex
    exact ⟨fun h => absurd h (by omega), rfl⟩

theorem isSlotJustified_of_inRange {s : LeanState} {slot : Nat} (h : s.SlotInRange slot) :
    isSlotJustified s slot = .ok (s.slotJustified slot) := by
  unfold isSlotJustified LeanState.slotJustified
  cases hindex : justifiedIndexAfter slot s.latestFinalized.slot with
  | none => rfl
  | some index =>
    obtain ⟨hf, rfl⟩ := justifiedIndexAfter_eq_some.mp hindex
    simp [BitList.get_of_lt (h hf), Except.mapError]

/-- The conditions under which an attestation's votes are counted. -/
structure FilterPass (s : LeanState) (a : AggregatedAttestation) : Prop where
  source_root : a.source.root ≠ B256.ZERO
  target_root : a.target.root ≠ B256.ZERO
  source_in_range : s.SlotInRange a.source.slot
  source_justified : s.slotJustified a.source.slot = true
  target_in_range : s.SlotInRange a.target.slot
  target_unjustified : s.slotJustified a.target.slot = false
  matches_chain : attestationDataMatchesChain s.historicalBlockHashes.data a.message = true
  slot_order : a.source.slot < a.target.slot
  justifiable : isJustifiableAfter a.target.slot s.latestFinalized.slot = true

theorem attestationFilter_true {s : LeanState} {a : AggregatedAttestation}
    (h : attestationFilter s a = .ok true) : FilterPass s a := by
  unfold attestationFilter at h
  rw [Except.bind_eq_ok] at h
  obtain ⟨src, hsrc, h⟩ := h
  obtain ⟨hsrcRange, rfl⟩ := isSlotJustified_ok hsrc
  by_cases hzero : a.source.root = B256.ZERO ∨ a.target.root = B256.ZERO
  · simp [hzero] at h
  · rw [if_neg hzero] at h
    by_cases hj : s.slotJustified a.source.slot = true
    · simp only [hj, Bool.not_true, Bool.false_eq_true, if_false, Except.bind_eq_ok,
        Except.pure_eq_ok] at h
      obtain ⟨tgt, htgt, hall⟩ := h
      obtain ⟨htgtRange, rfl⟩ := isSlotJustified_ok htgt
      rw [Bool.and_eq_true, Bool.and_eq_true, Bool.and_eq_true, Bool.not_eq_true',
        decide_eq_true_eq] at hall
      obtain ⟨⟨⟨hunj, hchain⟩, horder⟩, hjust⟩ := hall
      push Not at hzero
      exact ⟨hzero.1, hzero.2, hsrcRange, hj, htgtRange, hunj, hchain, horder, hjust⟩
    · simp [hj] at h

theorem attestationFilter_of_pass {s : LeanState} {a : AggregatedAttestation}
    (h : FilterPass s a) : attestationFilter s a = .ok true := by
  unfold attestationFilter
  rw [isSlotJustified_of_inRange h.source_in_range]
  simp only [h.source_root, h.target_root, or_self, if_false, h.source_justified]
  simp [isSlotJustified_of_inRange h.target_in_range, h.target_unjustified, h.matches_chain,
    h.slot_order, h.justifiable, bind, Except.bind, pure, Except.pure]

theorem attestationFilter_ok {s : LeanState} {a : AggregatedAttestation} {b : Bool}
    (h : attestationFilter s a = .ok b) : b = true → FilterPass s a := by
  rintro rfl
  exact attestationFilter_true h

/-! ## Tallies -/

theorem getD_bits_from_succ {i j : Nat} (signed : Bool) (rest : List Bool) (hj : j ≠ i) :
    (decide (i + 1 ≤ j) && rest.getD (j - (i + 1)) false) =
      (decide (i ≤ j) && (signed :: rest).getD (j - i) false) := by
  by_cases hij : i ≤ j
  · have hsub : j - i = (j - (i + 1)) + 1 := by omega
    simp [hsub, show i + 1 ≤ j by omega, hij]
  · simp [hij, show ¬ i + 1 ≤ j by omega]

theorem addVotes_ok : ∀ {tally tally' : Tally} {i : Nat} {bits : List Bool},
    addVotes tally i bits = .ok tally' →
      tally'.len = tally.len ∧
      (∀ j, tally'.getD j = (tally.getD j || (decide (i ≤ j) && bits.getD (j - i) false))) ∧
      (∀ j, bits.getD j false = true → i + j < tally.len)
  | tally, tally', i, [], h => by
    simp only [addVotes, Except.ok_inj] at h
    subst h
    exact ⟨rfl, fun j => by simp, fun j hj => by simp at hj⟩
  | tally, tally', i, signed :: rest, h => by
    unfold addVotes at h
    split at h
    · rename_i hset
      rw [Bool.and_eq_true, Bool.not_eq_eq_eq_not, Bool.not_true] at hset
      obtain ⟨hsigned, hnew⟩ := hset
      split at h
      · cases h
      · rename_i tally1 hs
        obtain ⟨hlen, hget, hbound⟩ := addVotes_ok h
        have hlen1 := BitList.len_set hs
        refine ⟨hlen.trans hlen1, ?_, ?_⟩
        · intro j
          rw [hget j, BitList.getD_set hs j]
          by_cases hj : j = i
          · subst hj
            simp [hsigned]
          · rw [if_neg hj, getD_bits_from_succ signed rest hj]
        · intro j hj
          cases j with
          | zero => exact (BitList.set_ok hs).1
          | succ j =>
            have := hbound j (by simpa using hj)
            omega
    · rename_i hskip
      obtain ⟨hlen, hget, hbound⟩ := addVotes_ok h
      refine ⟨hlen, ?_, ?_⟩
      · intro j
        rw [hget j]
        by_cases hj : j = i
        · subst hj
          cases hs : signed <;> simp_all
        · rw [getD_bits_from_succ signed rest hj]
      · intro j hj
        cases j with
        | zero =>
          simp only [List.getD_cons_zero] at hj
          subst hj
          simp only [Bool.true_and, Bool.not_eq_eq_eq_not, Bool.not_true,
            Bool.not_eq_false] at hskip
          by_contra hlt
          exact absurd hskip (by rw [BitList.getD_of_len_le (by omega)]; decide)
        | succ j =>
          have := hbound j (by simpa using hj)
          omega

theorem addVotes_of_bound : ∀ (tally : Tally) (i : Nat) (bits : List Bool),
    (∀ j, bits.getD j false = true → i + j < tally.len) → ∃ tally', addVotes tally i bits = .ok tally'
  | tally, i, [], _ => ⟨tally, rfl⟩
  | tally, i, signed :: rest, hb => by
    have hrest : ∀ (t : Tally), t.len = tally.len → ∃ t', addVotes t (i + 1) rest = .ok t' :=
      fun t ht => addVotes_of_bound t (i + 1) rest (fun j hj => by
        have := hb (j + 1) (by simpa using hj)
        omega)
    unfold addVotes
    split
    · rename_i hset
      have hi : i < tally.len := by
        have := hb 0 (by simp_all)
        omega
      rw [BitList.set_of_lt true hi]
      exact hrest _ (by simp [BitList.len])
    · exact hrest tally rfl

/-! ## The rebase on finalization -/

theorem shiftBits_ok (js : BitList MAX_HISTORICAL_BLOCK_HASHES) (delta : Nat) :
    ∀ (nb : BitList MAX_HISTORICAL_BLOCK_HASHES) (l : List Nat),
      (∀ index ∈ l, delta ≤ index ∧ index - delta < nb.len) →
      ∃ nb', shiftBits js delta nb l = .ok nb' ∧ nb'.len = nb.len ∧
        ∀ i, nb'.getD i = (nb.getD i || decide (i + delta ∈ l) && js.getD (i + delta))
  | nb, [], _ => ⟨nb, rfl, rfl, fun i => by simp⟩
  | nb, index :: rest, hl => by
    have hhead := hl index (by simp)
    have hrest : ∀ index ∈ rest, delta ≤ index ∧ index - delta < nb.len :=
      fun x hx => hl x (by simp [hx])
    unfold shiftBits
    split
    · rename_i hbit
      rw [BitList.set_of_lt true hhead.2]
      have hlen1 : (⟨nb.bits.set (index - delta) true, by simpa using nb.bound⟩ :
          BitList MAX_HISTORICAL_BLOCK_HASHES).len = nb.len := by simp [BitList.len]
      obtain ⟨nb', hnb', hlen, hget⟩ := shiftBits_ok js delta _ rest
        (fun x hx => by rw [hlen1]; exact hrest x hx)
      refine ⟨nb', hnb', hlen.trans hlen1, fun i => ?_⟩
      rw [hget i, BitList.getD_set (BitList.set_of_lt true hhead.2) i]
      by_cases hi : i = index - delta
      · subst hi
        have : index - delta + delta = index := by omega
        simp [this, hbit]
      · rw [if_neg hi]
        have hne : i + delta ≠ index := by omega
        simp [hne]
    · rename_i hbit
      obtain ⟨nb', hnb', hlen, hget⟩ := shiftBits_ok js delta nb rest hrest
      refine ⟨nb', hnb', hlen, fun i => ?_⟩
      rw [hget i]
      by_cases hi : i + delta = index
      · subst hi
        simp_all
      · simp [hi]

theorem rebase_ok (js : BitList MAX_HISTORICAL_BLOCK_HASHES) {delta : Nat}
    (hd : delta ≤ js.len) :
    ∃ js', rebase js delta = .ok js' ∧ js'.len = js.len - delta ∧
      ∀ i, js'.getD i = js.getD (i + delta) := by
  have hcap : js.len - delta ≤ MAX_HISTORICAL_BLOCK_HASHES := by
    have := js.bound
    unfold BitList.len
    omega
  obtain ⟨nb', hnb', hlen, hget⟩ := shiftBits_ok js delta
    ⟨List.replicate (js.len - delta) false, by simpa using hcap⟩
    (List.range' delta (js.len - delta)) (fun x hx => by
      simp only [List.mem_range'_1, BitList.len, List.length_replicate] at hx ⊢
      omega)
  refine ⟨nb', ?_, by rw [hlen]; simp [BitList.len], fun i => ?_⟩
  · unfold rebase
    rw [BitList.withCapacity_of_le hcap]
    simpa [Except.mapError] using hnb'
  · rw [hget i]
    have hz : (⟨List.replicate (js.len - delta) false, by simpa using hcap⟩ :
        BitList MAX_HISTORICAL_BLOCK_HASHES).getD i = false :=
      BitList.getD_withCapacity (BitList.withCapacity_of_le hcap) i
    rw [hz, Bool.false_or]
    simp only [List.mem_range'_1]
    by_cases hi : i < js.len - delta
    · have hmem : delta ≤ i + delta ∧ i + delta < delta + (js.len - delta) := by omega
      simp [hmem]
    · have hlen : js.len ≤ i + delta := by omega
      rw [BitList.getD_of_len_le hlen]
      simp

end Ream.Consensus

/-! ## Justification and finalization, in absolute slots -/

namespace Ream.Consensus

open Ssz

/-- Slot `t` is past the finalized slot and its bit is set. -/
def LeanState.marked (s : LeanState) (t : Nat) : Bool :=
  decide (s.latestFinalized.slot < t) && s.justifiedSlots.getD (t - s.latestFinalized.slot - 1)

theorem slotJustified_eq (s : LeanState) (t : Nat) :
    s.slotJustified t = (decide (t ≤ s.latestFinalized.slot) || s.marked t) := by
  unfold LeanState.slotJustified LeanState.marked justifiedIndexAfter
  by_cases h : t ≤ s.latestFinalized.slot
  · simp [h]
  · simp [h, show s.latestFinalized.slot < t by omega]

/-- A bit list of the same length with the same bits, read through a finalized slot, marks
the same slots. -/
theorem marked_congr {s s' : LeanState} (hF : s'.latestFinalized.slot = s.latestFinalized.slot)
    (hjs : ∀ i, s'.justifiedSlots.getD i = s.justifiedSlots.getD i) (t : Nat) :
    s'.marked t = s.marked t := by
  simp [LeanState.marked, hF, hjs]

@[simp] theorem raiseJustified_latestFinalized (s : LeanState) (target : Checkpoint) :
    (raiseJustified s target).latestFinalized = s.latestFinalized := by
  unfold raiseJustified; split <;> rfl

@[simp] theorem raiseJustified_justifiedSlots (s : LeanState) (target : Checkpoint) :
    (raiseJustified s target).justifiedSlots = s.justifiedSlots := by
  unfold raiseJustified; split <;> rfl

theorem raiseJustified_eq (s : LeanState) (target : Checkpoint) :
    raiseJustified s target = { s with latestJustified :=
      if target.slot > s.latestJustified.slot then target else s.latestJustified } := by
  unfold raiseJustified; split <;> rfl

/-- Setting a justified bit marks that slot, if it is past the finalized one, and nothing
else; the bit must exist. -/
theorem setJustifiedBit_ok {s : LeanState} {slot : Nat}
    {js : BitList MAX_HISTORICAL_BLOCK_HASHES} (h : setJustifiedBit s slot = .ok js) :
    js.len = s.justifiedSlots.len ∧ s.SlotInRange slot ∧
    ∀ t, ({ s with justifiedSlots := js } : LeanState).marked t =
      (s.marked t || (decide (s.latestFinalized.slot < t) && decide (t = slot))) := by
  unfold setJustifiedBit at h
  split at h
  · rename_i index hindex
    rw [Except.mapError_eq_ok] at h
    obtain ⟨hft, rfl⟩ := justifiedIndexAfter_eq_some.mp hindex
    refine ⟨BitList.len_set h, fun _ => (BitList.set_ok h).1, fun t => ?_⟩
    unfold LeanState.marked
    simp only
    rw [BitList.getD_set h]
    by_cases ht : s.latestFinalized.slot < t
    · by_cases htt : t = slot
      · subst htt
        simp [ht]
      · have : t - s.latestFinalized.slot - 1 ≠ slot - s.latestFinalized.slot - 1 := by omega
        simp [ht, htt, this]
    · simp [ht]
  · rename_i hindex
    cases h
    have hle := justifiedIndexAfter_eq_none.mp hindex
    refine ⟨rfl, fun h => absurd h (by omega), fun t => ?_⟩
    by_cases ht : s.latestFinalized.slot < t
    · have : t ≠ slot := by omega
      simp [ht, this]
    · simp [ht]

/-- What a successful `markJustified` changes: `latest_justified` moves up to the target and
the target becomes marked; nothing else moves. -/
theorem markJustified_ok {s s' : LeanState} {a : AggregatedAttestation}
    (h : markJustified s a = .ok s') :
    s' = { s with latestJustified := s'.latestJustified, justifiedSlots := s'.justifiedSlots } ∧
    s'.latestJustified =
      (if a.target.slot > s.latestJustified.slot then a.target else s.latestJustified) ∧
    s'.justifiedSlots.len = s.justifiedSlots.len ∧ s.SlotInRange a.target.slot ∧
    (∀ t, s'.marked t = (s.marked t ||
      (decide (s.latestFinalized.slot < t) && decide (t = a.target.slot)))) := by
  unfold markJustified at h
  rw [Except.bind_eq_ok] at h
  obtain ⟨js, hjs, h⟩ := h
  rw [Except.pure_eq_ok] at h
  subst h
  obtain ⟨hlen, hrange, hmarked⟩ := setJustifiedBit_ok hjs
  simp only [raiseJustified_justifiedSlots, raiseJustified_latestFinalized] at hlen hrange hmarked
  refine ⟨by rw [raiseJustified_eq], by rw [raiseJustified_eq], hlen, ?_, fun t => ?_⟩
  · unfold LeanState.SlotInRange at hrange ⊢
    simpa using hrange
  · have hm := hmarked t
    simp only [LeanState.marked, raiseJustified_latestFinalized,
      raiseJustified_justifiedSlots] at hm ⊢
    exact hm

/-- Moving the finalized slot up by `delta` and rebasing keeps exactly the marked slots past
the new finalized slot. -/
theorem marked_rebase {s : LeanState} {delta : Nat} {js : BitList MAX_HISTORICAL_BLOCK_HASHES}
    {c : Checkpoint} (hc : c.slot = s.latestFinalized.slot + delta)
    (hget : ∀ i, js.getD i = s.justifiedSlots.getD (i + delta)) (t : Nat) :
    ({ s with justifiedSlots := js, latestFinalized := c } : LeanState).marked t =
      (decide (s.latestFinalized.slot + delta < t) && s.marked t) := by
  unfold LeanState.marked
  simp only [hc]
  by_cases ht : s.latestFinalized.slot + delta < t
  · have hidx : t - (s.latestFinalized.slot + delta) - 1 + delta = t - s.latestFinalized.slot - 1 := by
      omega
    simp [ht, hget, hidx, show s.latestFinalized.slot < t by omega]
  · simp [ht]

/-- A finalization that advances the finalized slot rebases the bit list onto the source and
prunes the tallies. -/
theorem finalize_ok {rootToSlot : AssocMap B256 Nat} {s : LeanState}
    {justifications : AssocMap B256 Tally} {a : AggregatedAttestation} {σ' : AttestationLoop}
    (hδ : s.latestFinalized.slot < a.source.slot)
    (hle : a.source.slot - s.latestFinalized.slot ≤ s.justifiedSlots.len)
    (h : finalize rootToSlot s justifications a = .ok σ') :
    σ'.state = { s with
      justifiedSlots := σ'.state.justifiedSlots
      latestFinalized := a.source } ∧
    σ'.state.justifiedSlots.len + a.source.slot =
      s.justifiedSlots.len + s.latestFinalized.slot ∧
    (∀ t, σ'.state.marked t = (decide (a.source.slot < t) && s.marked t)) ∧
    σ'.justifications = justifications.retain (keepPending rootToSlot a.source.slot) := by
  unfold finalize at h
  rw [if_pos (by omega)] at h
  obtain ⟨js', hjs', hlen, hget⟩ := rebase_ok s.justifiedSlots hle
  rw [Except.bind_eq_ok] at h
  obtain ⟨js'', hjs'', h⟩ := h
  rw [hjs', Except.ok_inj] at hjs''
  subst hjs''
  rw [Except.pure_eq_ok] at h
  subst h
  have hc : a.source.slot = s.latestFinalized.slot + (a.source.slot - s.latestFinalized.slot) := by
    omega
  refine ⟨rfl, by simp only; omega, fun t => ?_, rfl⟩
  rw [marked_rebase hc hget t, ← hc]

/-- What a successful justification leaves behind. -/
structure JustifyEffect (rootToSlot : AssocMap B256 Nat) (σ σ' : AttestationLoop)
    (a : AggregatedAttestation) : Prop where
  frame : σ'.state = { σ.state with
    latestJustified := σ'.state.latestJustified
    latestFinalized := σ'.state.latestFinalized
    justifiedSlots := σ'.state.justifiedSlots }
  justified : σ'.state.latestJustified =
    if a.target.slot > σ.state.latestJustified.slot then a.target else σ.state.latestJustified
  finalized : σ'.state.latestFinalized =
    if isTargetNextValidJustifiableSlot σ.state.latestFinalized.slot a then a.source
    else σ.state.latestFinalized
  target_in_range : σ.state.SlotInRange a.target.slot
  marked : ∀ t, σ'.state.marked t = (decide (σ'.state.latestFinalized.slot < t) &&
    (σ.state.marked t || decide (t = a.target.slot)))
  length : σ'.state.justifiedSlots.len + σ'.state.latestFinalized.slot =
    σ.state.justifiedSlots.len + σ.state.latestFinalized.slot
  justifications : σ'.justifications =
    if isTargetNextValidJustifiableSlot σ.state.latestFinalized.slot a then
      (σ.justifications.erase a.target.root).retain (keepPending rootToSlot a.source.slot)
    else σ.justifications.erase a.target.root

theorem isTargetNextValidJustifiableSlot_source {f : Nat} {a : AggregatedAttestation}
    (h : isTargetNextValidJustifiableSlot f a = true) : f < a.source.slot := by
  unfold isTargetNextValidJustifiableSlot at h
  simp only [Bool.and_eq_true, decide_eq_true_eq] at h
  exact h.1

theorem justify_effect {rootToSlot : AssocMap B256 Nat} {σ σ' : AttestationLoop}
    {a : AggregatedAttestation} (hord : a.source.slot < a.target.slot)
    (h : justify rootToSlot σ a = .ok σ') : JustifyEffect rootToSlot σ σ' a := by
  unfold justify at h
  rw [Except.bind_eq_ok] at h
  obtain ⟨s1, hs1, h⟩ := h
  obtain ⟨hframe1, hJ1, hlen1, hrange, hmarked1⟩ := markJustified_ok hs1
  have hF1 : s1.latestFinalized = σ.state.latestFinalized := by rw [hframe1]
  rw [hF1] at h
  by_cases hnext : isTargetNextValidJustifiableSlot σ.state.latestFinalized.slot a
  · rw [if_pos hnext] at h
    have hsrc := isTargetNextValidJustifiableSlot_source hnext
    have hle : a.source.slot - s1.latestFinalized.slot ≤ s1.justifiedSlots.len := by
      have := hrange (by omega)
      rw [hF1, hlen1]
      omega
    rw [← hF1] at hsrc
    obtain ⟨hframe2, hlen2, hmarked2, hjust2⟩ := finalize_ok hsrc hle h
    rw [hF1] at hsrc hlen2
    refine ⟨?_, ?_, ?_, hrange, fun t => ?_, ?_, ?_⟩
    · rw [hframe2, hframe1]
    · rw [hframe2]; simpa using hJ1
    · rw [if_pos hnext, hframe2]
    · rw [hmarked2 t, hmarked1 t, hframe2]
      by_cases ht : a.source.slot < t
      · simp [ht, show σ.state.latestFinalized.slot < t by omega]
      · simp [ht]
    · rw [hframe2] at hlen2 ⊢
      simp only at hlen2 ⊢
      rw [← hlen1]
      omega
    · rw [if_pos hnext, hjust2]
  · rw [if_neg hnext, Except.pure_eq_ok] at h
    subst h
    refine ⟨?_, hJ1, by rw [if_neg hnext, hF1], hrange, fun t => ?_, ?_, by rw [if_neg hnext]⟩
    · rw [hframe1]
    · rw [hmarked1 t, hF1]
      by_cases ht : σ.state.latestFinalized.slot < t
      · simp [ht]
      · simp [ht, LeanState.marked]
    · simp only [hF1, hlen1]

/-- The three outcomes of one successful loop step: the attestation is left out, its votes
are recorded below two thirds, or they reach two thirds and justify its target. -/
theorem processAttestation_cases {rootToSlot : AssocMap B256 Nat} {σ σ' : AttestationLoop}
    {a : AggregatedAttestation} (h : processAttestation rootToSlot σ a = .ok σ') :
    (attestationFilter σ.state a = .ok false ∧ σ' = σ) ∨
    (FilterPass σ.state a ∧ ∃ fresh tally,
      BitList.withCapacity σ.state.validators.len = .ok fresh ∧
      addVotes (σ.justifications.getD a.target.root fresh) 0 a.aggregationBits.bits =
        .ok tally ∧
      ((3 * tally.numSetBits < 2 * σ.state.validators.len ∧
          σ' = { σ with justifications := σ.justifications.insert a.target.root tally }) ∨
        (2 * σ.state.validators.len ≤ 3 * tally.numSetBits ∧
          justify rootToSlot
            { σ with justifications := σ.justifications.insert a.target.root tally } a =
            .ok σ'))) := by
  unfold processAttestation at h
  rw [Except.bind_eq_ok] at h
  obtain ⟨pass, hpass, h⟩ := h
  cases pass with
  | false =>
    simp only [Bool.not_false, if_true, Except.pure_eq_ok] at h
    exact .inl ⟨hpass, h.symm⟩
  | true =>
    refine .inr ⟨attestationFilter_true hpass, ?_⟩
    simp only [Bool.not_true, Bool.false_eq_true, if_false, Except.bind_eq_ok,
      Except.mapError_eq_ok] at h
    obtain ⟨fresh, hfresh, tally, htally, h⟩ := h
    refine ⟨fresh, tally, hfresh, htally, ?_⟩
    by_cases hq : 2 * σ.state.validators.len ≤ 3 * tally.numSetBits
    · rw [if_pos hq] at h
      exact .inr ⟨hq, h⟩
    · rw [if_neg hq, Except.pure_eq_ok] at h
      exact .inl ⟨by omega, h.symm⟩

end Ream.Consensus
