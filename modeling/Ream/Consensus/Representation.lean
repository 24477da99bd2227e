import Ream.Consensus.Checkpoints

/-! The representation invariant of the justification bookkeeping (`Represents`), kept by every
call from genesis on, and the pending roots' unmarked slots where the history's roots are
distinct. -/

namespace Ream.Consensus

open Ssz

/-! ## Distinct roots in the history -/

/-- No non-zero root sits at two slots of the history: the headers it records have distinct
roots. -/
def HistoryDistinct (hist : List B256) : Prop :=
  hist.Pairwise fun a b => a = b → a = B256.ZERO

instance HistoryDistinct.instDecidable (hist : List B256) : Decidable (HistoryDistinct hist) :=
  inferInstanceAs (Decidable (hist.Pairwise _))

theorem HistoryDistinct.slot_unique {hist : List B256} (h : HistoryDistinct hist) {i j : Nat}
    {r : B256} (hi : hist[i]? = some r) (hj : hist[j]? = some r) (hr : r ≠ B256.ZERO) :
    i = j := by
  obtain ⟨hil, hir⟩ := List.getElem?_eq_some_iff.mp hi
  obtain ⟨hjl, hjr⟩ := List.getElem?_eq_some_iff.mp hj
  rw [HistoryDistinct, List.pairwise_iff_getElem] at h
  rcases Nat.lt_trichotomy i j with hij | hij | hij
  · exact absurd (hir ▸ h i j hil hjl hij (hir.trans hjr.symm)) hr
  · exact hij
  · exact absurd (hjr ▸ h j i hjl hil hij (hjr.trans hir.symm)) hr

theorem HistoryDistinct.of_prefix {hist hist' : List B256} (h : HistoryDistinct hist')
    (hpre : hist <+: hist') : HistoryDistinct hist :=
  List.Pairwise.sublist hpre.sublist h

theorem attestationDataMatchesChain_target {hist : List B256} {data : AttestationData}
    (h : attestationDataMatchesChain hist data = true) :
    data.target.slot < hist.length ∧ hist[data.target.slot]? = some data.target.root := by
  rw [attestationDataMatchesChain] at h
  split at h
  · cases h
  · split at h
    · cases h
    · rename_i hlen
      simp only [Bool.and_eq_true, beq_iff_eq] at h
      exact ⟨by omega, h.1.2⟩

/-- An attestation that passed the filters targets a slot of the history holding its
target root. -/
theorem FilterPass.target_in_history {s : LeanState} {a : AggregatedAttestation}
    (h : FilterPass s a) :
    a.target.slot < s.historicalBlockHashes.data.length ∧
      s.historicalBlockHashes.data[a.target.slot]? = some a.target.root :=
  attestationDataMatchesChain_target h.matches_chain

/-! ## What a loop step does to the marks -/

/-- A step never moves the finalized slot back, keeps the sum of length and finalized slot,
keeps every mark above the new finalized slot, and marks at most the target of an attestation
that passed the filters. -/
theorem processAttestation_marks {ρ : AssocMap B256 Nat} {σ σ' : AttestationLoop}
    {a : AggregatedAttestation} (h : processAttestation ρ σ a = .ok σ') :
    σ.state.latestFinalized.slot ≤ σ'.state.latestFinalized.slot ∧
    σ'.state.justifiedSlots.len + σ'.state.latestFinalized.slot =
      σ.state.justifiedSlots.len + σ.state.latestFinalized.slot ∧
    (∀ t, σ.state.marked t = true → σ'.state.latestFinalized.slot < t →
      σ'.state.marked t = true) ∧
    (∀ t, σ'.state.marked t = true → σ.state.marked t = false →
      FilterPass σ.state a ∧ t = a.target.slot) := by
  rcases processAttestation_state h with hsame | ⟨hpass, J, heff⟩
  · rw [hsame]
    refine ⟨le_refl _, rfl, fun t ht _ => ht, fun t ht ht' => ?_⟩
    rw [ht] at ht'
    cases ht'
  · have hmarked : ∀ t, σ'.state.marked t = (decide (σ'.state.latestFinalized.slot < t) &&
        (σ.state.marked t || decide (t = a.target.slot))) := heff.marked
    refine ⟨heff.finalized_slot.1, heff.length, fun t ht hlt => ?_, fun t ht ht' => ?_⟩
    · rw [hmarked, ht]
      simp [hlt]
    · rw [hmarked, ht'] at ht
      simp only [Bool.false_or, Bool.and_eq_true, decide_eq_true_eq] at ht
      exact ⟨hpass, ht.2⟩

theorem processAttestation_history {ρ : AssocMap B256 Nat} {σ σ' : AttestationLoop}
    {a : AggregatedAttestation} (h : processAttestation ρ σ a = .ok σ') :
    σ'.state.historicalBlockHashes = σ.state.historicalBlockHashes := by
  rcases processAttestation_state h with hsame | ⟨_, J, heff⟩
  · rw [hsame]
  · rw [heff.frame]

/-! ## Pending roots at unmarked slots -/

/-- No slot past the finalized one that holds `root` in the history is marked. -/
def LeanState.RootUnmarked (s : LeanState) (root : B256) : Prop :=
  ∀ t, s.latestFinalized.slot < t → s.historicalBlockHashes.data[t]? = some root →
    s.marked t = false

/-- A loop step keeps every pending root at unmarked slots: the one it records is its
target's root, at the target's slot alone and unmarked there, and the one it justifies is
dropped. -/
theorem processAttestation_rootUnmarked {ρ : AssocMap B256 Nat} {σ σ' : AttestationLoop}
    {a : AggregatedAttestation} (hdist : HistoryDistinct σ.state.historicalBlockHashes.data)
    (hσ : ∀ R t, σ.justifications.get? R = some t → σ.state.RootUnmarked R)
    (h : processAttestation ρ σ a = .ok σ') :
    ∀ R t, σ'.justifications.get? R = some t → σ'.state.RootUnmarked R := by
  rcases processAttestation_cases h with ⟨_, rfl⟩ | ⟨hpass, fresh, tally, _, _, hstep⟩
  · exact hσ
  · obtain ⟨-, hget⟩ := hpass.target_in_history
    have htarget : σ.state.RootUnmarked a.target.root := by
      intro t _ ht
      have heq : t = a.target.slot := hdist.slot_unique ht hget hpass.target_root
      subst heq
      have hunj := hpass.target_unjustified
      rw [slotJustified_eq, Bool.or_eq_false_iff] at hunj
      exact hunj.2
    have hins : ∀ R t, (σ.justifications.insert a.target.root tally).get? R = some t →
        σ.state.RootUnmarked R := by
      intro R t hR
      rw [AssocMap.get?_insert] at hR
      by_cases hRt : R = a.target.root
      · rw [hRt]
        exact htarget
      · rw [if_neg hRt] at hR
        exact hσ R t hR
    rcases hstep with ⟨_, rfl⟩ | ⟨_, hjustify⟩
    · exact hins
    · have heff := justify_effect hpass.slot_order hjustify
      obtain ⟨hF, -, -, hnew⟩ := processAttestation_marks h
      intro R t hR i hi hhi
      obtain ⟨hne, hR1⟩ := heff.get?_sub R t hR
      rw [processAttestation_history h] at hhi
      cases hm : σ'.state.marked i with
      | false => rfl
      | true =>
        have hold : σ.state.marked i = false := hins R t hR1 i (by omega) hhi
        obtain ⟨-, rfl⟩ := hnew i hm hold
        rw [hget, Option.some_inj] at hhi
        exact absurd hhi.symm hne

/-! ## The invariant -/

/-- The representation invariant of a state whose earlier calls justified `justified`. -/
structure Represents (s : LeanState) (justified : Set Nat) : Prop where
  votes_length : s.justificationsValidators.len = s.justificationsRoots.len * s.validators.len
  roots_sorted : s.justificationsRoots.data.Pairwise (· < ·)
  roots_nonzero : B256.ZERO ∉ s.justificationsRoots.data
  below_threshold : ∀ m < s.justificationsRoots.len,
    3 * (s.voteSegment m).count true < 2 * s.validators.len
  history_length : s.historicalBlockHashes.len = s.latestBlockHeader.slot
  bits_cover : s.latestBlockHeader.slot ≤ s.justifiedSlots.len + s.latestFinalized.slot + 1
  marked_justified : ∀ t, s.marked t = true → t ∈ justified
  justified_marked : ∀ t ∈ justified, s.latestFinalized.slot < t → s.marked t = true
  justified_lt : ∀ t ∈ justified, t < s.latestBlockHeader.slot

/-- A slot justified before the call, or marked by one of its first `k` steps. -/
def JustifiedBefore (s : LeanState) (atts : List AggregatedAttestation) (justified : Set Nat)
    (k t : Nat) : Prop :=
  t ∈ justified ∨ ∃ j < k, MarkedAt s atts j t

theorem JustifiedBefore.mono {s : LeanState} {atts : List AggregatedAttestation}
    {justified : Set Nat} {k t : Nat} (h : JustifiedBefore s atts justified k t) :
    JustifiedBefore s atts justified (k + 1) t := by
  rcases h with hG | ⟨j, hj, hm⟩
  · exact .inl hG
  · exact .inr ⟨j, by omega, hm⟩

theorem JustifiedBefore.succ_cases {s : LeanState} {atts : List AggregatedAttestation}
    {justified : Set Nat} {k t : Nat} (h : JustifiedBefore s atts justified (k + 1) t) :
    JustifiedBefore s atts justified k t ∨ MarkedAt s atts k t := by
  rcases h with hG | ⟨j, hj, hm⟩
  · exact .inl (.inl hG)
  · rcases Nat.lt_succ_iff_lt_or_eq.mp hj with hj | rfl
    · exact .inl (.inr ⟨j, hj, hm⟩)
    · exact .inr hm

/-- The loop state after `k` steps of a call on `s`. -/
structure LoopRepresents (s : LeanState) (atts : List AggregatedAttestation)
    (justified : Set Nat) (k : Nat) (σ : AttestationLoop) : Prop where
  run : loopPrefix s atts k = .ok σ
  tallies : ∀ R t, σ.justifications.get? R = some t →
    t.len = s.validators.len ∧ 3 * t.numSetBits < 2 * s.validators.len ∧ R ≠ B256.ZERO
  length : σ.state.justifiedSlots.len + σ.state.latestFinalized.slot =
    s.justifiedSlots.len + s.latestFinalized.slot
  marked_justified : ∀ t, σ.state.marked t = true → JustifiedBefore s atts justified k t
  justified_marked : ∀ t, JustifiedBefore s atts justified k t →
    σ.state.latestFinalized.slot < t → σ.state.marked t = true
  justified_lt : ∀ t, JustifiedBefore s atts justified k t → t < s.latestBlockHeader.slot

theorem loopRepresents_zero {s : LeanState} {atts : List AggregatedAttestation}
    {justified : Set Nat} {σ : AttestationLoop} (hs : Represents s justified)
    (h0 : attestationLoopStart s = .ok σ) : LoopRepresents s atts justified 0 σ := by
  have hstart := attestationLoopStart_ok h0
  have hbefore : ∀ t, JustifiedBefore s atts justified 0 t → t ∈ justified := by
    rintro t (hG | ⟨j, hj, -⟩)
    · exact hG
    · omega
  refine ⟨by simp [loopPrefix, h0], fun R t ht => ?_, by rw [hstart.state],
    fun t ht => .inl (hs.marked_justified t (by rwa [hstart.state] at ht)),
    fun t ht hlt => ?_, fun t ht => hs.justified_lt t (hbefore t ht)⟩
  · obtain ⟨hlen, m, hm, hRm, hbits⟩ := hstart.tally_len ht
    refine ⟨hlen, ?_, ?_⟩
    · rw [BitList.numSetBits, hbits]
      exact hs.below_threshold m hm
    · rintro rfl
      exact hs.roots_nonzero (List.mem_of_getElem? hRm)
  · rw [hstart.state] at hlt ⊢
    exact hs.justified_marked t (hbefore t ht) hlt

theorem loopRepresents_step {s : LeanState} {atts : List AggregatedAttestation}
    {justified : Set Nat} {k : Nat} {a : AggregatedAttestation} {σ σ' : AttestationLoop}
    (hs : Represents s justified) (ha : atts[k]? = some a)
    (hσ : LoopRepresents s atts justified k σ)
    (h : processAttestation s.rootToSlot σ a = .ok σ') :
    LoopRepresents s atts justified (k + 1) σ' := by
  have hrun' : loopPrefix s atts (k + 1) = .ok σ' := by rw [loopPrefix_succ ha hσ.run, h]
  have hfr : σ.state = _ := loopPrefix_frame hσ.run
  have hval : σ.state.validators = s.validators := by rw [hfr]
  have hhist : σ.state.historicalBlockHashes = s.historicalBlockHashes := by rw [hfr]
  obtain ⟨hF, hlen, hsurvive, hnew⟩ := processAttestation_marks h
  refine ⟨hrun', ?_, hlen.trans hσ.length, fun t ht => ?_, fun t ht hlt => ?_, fun t ht => ?_⟩
  · rcases processAttestation_cases h with ⟨_, rfl⟩ | ⟨hpass, fresh, tally, hfresh, htally, hstep⟩
    · exact hσ.tallies
    · have hbase : (σ.justifications.getD a.target.root fresh).len = s.validators.len := by
        rw [AssocMap.getD_eq]
        cases hj : σ.justifications.get? a.target.root with
        | some t => exact (hσ.tallies a.target.root t hj).1
        | none => rw [Option.getD_none, BitList.len_withCapacity hfresh, hval]
      have hins : ∀ R t, (σ.justifications.insert a.target.root tally).get? R = some t →
          R ≠ a.target.root → t.len = s.validators.len ∧
            3 * t.numSetBits < 2 * s.validators.len ∧ R ≠ B256.ZERO := by
        intro R t hR hne
        rw [AssocMap.get?_insert, if_neg hne] at hR
        exact hσ.tallies R t hR
      rcases hstep with ⟨hq, rfl⟩ | ⟨_, hjustify⟩
      · intro R t hR
        by_cases hRt : R = a.target.root
        · rw [hRt, AssocMap.get?_insert, if_pos rfl, Option.some_inj] at hR
          subst hR
          exact ⟨(addVotes_ok htally).1.trans hbase, by rw [← hval]; exact hq,
            hRt ▸ hpass.target_root⟩
        · exact hins R t hR hRt
      · intro R t hR
        obtain ⟨hne, hR1⟩ := (justify_effect hpass.slot_order hjustify).get?_sub R t hR
        exact hins R t hR1 hne
  · cases hold : σ.state.marked t with
    | true => exact (hσ.marked_justified t hold).mono
    | false => exact .inr ⟨k, Nat.lt_succ_self k, σ, σ', hσ.run, hrun', ht, hold⟩
  · rcases ht.succ_cases with hbefore | hm
    · exact hsurvive t (hσ.justified_marked t hbefore (by omega)) hlt
    · exact (hm.marks hσ.run hrun').1
  · rcases ht.succ_cases with hbefore | hm
    · exact hσ.justified_lt t hbefore
    · obtain ⟨hmark, hunmark⟩ := hm.marks hσ.run hrun'
      obtain ⟨hpass, rfl⟩ := hnew t hmark hunmark
      have hlt := hpass.target_in_history.1
      rw [hhist] at hlt
      have := hs.history_length
      unfold VariableList.len at this
      omega

theorem loopPrefix_represents {s : LeanState} {atts : List AggregatedAttestation}
    {justified : Set Nat} {σ : AttestationLoop} (hs : Represents s justified)
    (h : loopPrefix s atts atts.length = .ok σ) :
    LoopRepresents s atts justified atts.length σ := by
  have hP := loopPrefix_induction_on (LoopRepresents s atts justified)
    (fun σ0 h0 => loopRepresents_zero hs h0)
    (fun k a σ σ' ha hσ hstep => loopRepresents_step hs ha hσ hstep) h
  rwa [Nat.min_self] at hP

/-- The write-back turns the loop invariant into the invariant, with the slots the call
marked added to the ghost. -/
theorem processAttestations_represents {T : TreeHash} {s s' : LeanState}
    {atts : List AggregatedAttestation} {justified : Set Nat} (hs : Represents s justified)
    (h : processAttestations T s atts = .ok s') :
    Represents s' (justified ∪ {t | JustifiedIn s atts t}) := by
  obtain ⟨σ, hloop, hflat⟩ := processAttestations_ok h
  have hL := loopPrefix_represents hs hloop
  have hframe : σ.state = _ := loopPrefix_frame hloop
  obtain ⟨hs'eq, hroots, hvotes, hlens⟩ := flattenJustifications_ok hflat
  have hvalσ : σ.state.validators = s.validators := by rw [hframe]
  have hval : s'.validators = s.validators := by rw [hs'eq]; exact hvalσ
  have hhist : s'.historicalBlockHashes = s.historicalBlockHashes := by rw [hs'eq, hframe]
  have hhdr : s'.latestBlockHeader = s.latestBlockHeader := by rw [hs'eq, hframe]
  have hF : s'.latestFinalized = σ.state.latestFinalized := by rw [hs'eq]
  have hjs : s'.justifiedSlots = σ.state.justifiedSlots := by rw [hs'eq]
  have hmarked : ∀ t, s'.marked t = σ.state.marked t := marked_congr (by rw [hF])
    (fun i => by rw [hjs])
  have hrl : s'.justificationsRoots.len = (sortedRoots σ.justifications).length := by
    rw [VariableList.len, hroots]
  have hlen' : ∀ r ∈ sortedRoots σ.justifications, (tallyBits σ.justifications r).length =
      s.validators.len := by
    intro r hr
    obtain ⟨t, ht, htlen⟩ := hlens r hr
    rw [tallyBits, ht, Option.map_some, Option.getD_some, ← hvalσ]
    exact htlen
  have hghost : ∀ t, t ∈ justified ∪ {t | JustifiedIn s atts t} →
      JustifiedBefore s atts justified atts.length t := by
    rintro t (hG | ⟨k, hm⟩)
    · exact .inl hG
    · exact .inr ⟨k, hm.lt_length, hm⟩
  refine ⟨?_, ?_, ?_, fun m hm => ?_, ?_, ?_, fun t ht => ?_, fun t ht hlt => ?_,
    fun t ht => ?_⟩
  · rw [BitList.len, hvotes, length_flatMap_uniform _ _ _ hlen', hrl, hval]
  · rw [hroots]
    exact sortedRoots_strictly_increasing _
  · rw [hroots]
    intro hzero
    obtain ⟨t, ht⟩ := Option.isSome_iff_exists.mp (mem_sortedRoots.mp hzero)
    exact (hL.tallies _ t ht).2.2 rfl
  · have hm' : m < (sortedRoots σ.justifications).length := by
      rw [hrl] at hm
      exact hm
    have hmem := List.getElem_mem hm'
    obtain ⟨t, ht⟩ := Option.isSome_iff_exists.mp (mem_sortedRoots.mp hmem)
    have hseg : s'.voteSegment m = t.bits := by
      rw [LeanState.voteSegment, hvotes, hval, window_flatMap _ _ _ hlen' m hm', tallyBits, ht]
      rfl
    rw [hseg, hval]
    exact (hL.tallies _ t ht).2.1
  · rw [hhist, hhdr]
    exact hs.history_length
  · rw [hhdr, hjs, hF]
    have := hs.bits_cover
    have := hL.length
    omega
  · rw [hmarked] at ht
    rcases hL.marked_justified t ht with hG | ⟨j, -, hm⟩
    · exact .inl hG
    · exact .inr ⟨j, hm⟩
  · rw [hmarked]
    rw [hF] at hlt
    exact hL.justified_marked t (hghost t ht) hlt
  · rw [hhdr]
    exact hL.justified_lt t (hghost t ht)

theorem processAttestations_rootUnmarked {T : TreeHash} {s s' : LeanState}
    {atts : List AggregatedAttestation} (hdist : HistoryDistinct s.historicalBlockHashes.data)
    (hd : ∀ R ∈ s.justificationsRoots.data, s.RootUnmarked R)
    (h : processAttestations T s atts = .ok s') :
    ∀ R ∈ s'.justificationsRoots.data, s'.RootUnmarked R := by
  obtain ⟨σ, hloop, hflat⟩ := processAttestations_ok h
  have hP := loopPrefix_induction (fun σ : AttestationLoop =>
      σ.state.historicalBlockHashes = s.historicalBlockHashes ∧
        ∀ R t, σ.justifications.get? R = some t → σ.state.RootUnmarked R)
    (fun σ0 h0 => ?_) (fun σ a σ' hσ hstep => ?_) hloop
  · obtain ⟨hs'eq, hroots, -, -⟩ := flattenJustifications_ok hflat
    intro R hR
    rw [hroots] at hR
    obtain ⟨t, ht⟩ := Option.isSome_iff_exists.mp (mem_sortedRoots.mp hR)
    have hunm := hP.2 R t ht
    rw [hs'eq]
    exact hunm
  · have hstart := attestationLoopStart_ok h0
    refine ⟨by rw [hstart.state], fun R t ht => ?_⟩
    obtain ⟨m, hm, -⟩ := hstart.tallies R t ht
    rw [hstart.state]
    exact hd R (List.mem_of_getElem? hm)
  · obtain ⟨hhist, hunm⟩ := hσ
    refine ⟨(processAttestation_history hstep).trans hhist, ?_⟩
    exact processAttestation_rootUnmarked (by rw [hhist]; exact hdist) hunm hstep

/-! ## The rest of the transition -/

theorem HeaderEffect.represents {T : TreeHash} {s h : LeanState} {block : Block}
    {justified : Set Nat} (he : HeaderEffect T s block h) (hs : Represents s justified) :
    Represents h justified := by
  have hjv : h.justificationsValidators = s.justificationsValidators := by rw [he.frame]
  have hroots : h.justificationsRoots = s.justificationsRoots := by rw [he.frame]
  have hval : h.validators = s.validators := by rw [he.frame]
  have hslot : h.latestBlockHeader.slot = block.slot := by rw [he.header]
  obtain ⟨-, hF, hmarked⟩ := he.checkpoints
  have hlen := hs.history_length
  have hafter := he.after_latest
  unfold VariableList.len at hlen
  refine ⟨by rw [hjv, hroots, hval]; exact hs.votes_length, by rw [hroots]; exact hs.roots_sorted,
    by rw [hroots]; exact hs.roots_nonzero, fun m hm => ?_, ?_, ?_,
    fun t ht => hs.marked_justified t (by rwa [hmarked] at ht),
    fun t ht hlt => by rw [hmarked]; exact hs.justified_marked t ht (by rwa [hF] at hlt),
    fun t ht => by have := hs.justified_lt t ht; omega⟩
  · rw [LeanState.voteSegment, hjv, hval]
    rw [hroots] at hm
    exact hs.below_threshold m hm
  · rw [VariableList.len, he.history, hslot]
    simp only [List.length_append, List.length_cons, List.length_replicate]
    omega
  · have hjslen := he.justifiedSlots_len
    rw [hslot, hF, hjslen]
    omega

theorem HeaderEffect.rootUnmarked {T : TreeHash} {s h : LeanState} {block : Block}
    {justified : Set Nat} (he : HeaderEffect T s block h) (hs : Represents s justified)
    (hd : ∀ R ∈ s.justificationsRoots.data, s.RootUnmarked R) :
    ∀ R ∈ h.justificationsRoots.data, h.RootUnmarked R := by
  have hroots : h.justificationsRoots = s.justificationsRoots := by rw [he.frame]
  obtain ⟨-, hF, hmarked⟩ := he.checkpoints
  intro R hR t ht hhist
  rw [hroots] at hR
  rw [hmarked]
  by_cases hlt : t < s.historicalBlockHashes.data.length
  · rw [he.history, List.getElem?_append_left hlt] at hhist
    exact hd R hR t (by rwa [hF] at ht) hhist
  · cases hm : s.marked t with
    | false => rfl
    | true =>
      have := hs.justified_lt t (hs.marked_justified t hm)
      have hlen := hs.history_length
      unfold VariableList.len at hlen
      omega

theorem processBlock_represents {T : TreeHash} {s s' : LeanState} {block : Block}
    {justified : Set Nat} (hs : Represents s justified) (h : processBlock T s block = .ok s') :
    Represents s' (justified ∪ {t | BlockJustifies T s block t}) := by
  obtain ⟨h1, hheader, hatts⟩ := processBlock_ok T h
  have hrep := processAttestations_represents ((processBlockHeader_ok T hheader).represents hs) hatts
  have hghost : {t | BlockJustifies T s block t} = {t | JustifiedIn h1 block.body.attestations.data t} := by
    ext t
    constructor
    · rintro ⟨h2, hh2, hj⟩
      rw [hheader, Except.ok_inj] at hh2
      subst hh2
      exact hj
    · intro hj
      exact ⟨h1, hheader, hj⟩
  rw [hghost]
  exact hrep

theorem processBlock_history_prefix {T : TreeHash} {s s' : LeanState} {block : Block}
    (h : processBlock T s block = .ok s') :
    s.historicalBlockHashes.data <+: s'.historicalBlockHashes.data := by
  obtain ⟨h1, hheader, hatts⟩ := processBlock_ok T h
  obtain ⟨-, -, hhist, -⟩ := processAttestations_frame hatts
  rw [hhist, (processBlockHeader_ok T hheader).history]
  exact List.prefix_append _ _

theorem processBlock_rootUnmarked {T : TreeHash} {s s' : LeanState} {block : Block}
    {justified : Set Nat} (hs : Represents s justified)
    (hd : ∀ R ∈ s.justificationsRoots.data, s.RootUnmarked R)
    (h : processBlock T s block = .ok s') (hdist : HistoryDistinct s'.historicalBlockHashes.data) :
    ∀ R ∈ s'.justificationsRoots.data, s'.RootUnmarked R := by
  obtain ⟨h1, hheader, hatts⟩ := processBlock_ok T h
  have he := processBlockHeader_ok T hheader
  obtain ⟨-, -, hhist, -⟩ := processAttestations_frame hatts
  exact processAttestations_rootUnmarked (by rw [← hhist]; exact hdist) (he.rootUnmarked hs hd) hatts

theorem processSlots_represents {T : TreeHash} {s s' : LeanState} {targetSlot : Nat}
    {justified : Set Nat} (hs : Represents s justified)
    (h : processSlots T s targetSlot = .ok s') :
    Represents s' justified ∧
      ((∀ R ∈ s.justificationsRoots.data, s.RootUnmarked R) →
        ∀ R ∈ s'.justificationsRoots.data, s'.RootUnmarked R) := by
  obtain ⟨-, rfl⟩ := processSlots_ok T h
  rw [processSlotsLoop_eq]
  exact ⟨⟨hs.votes_length, hs.roots_sorted, hs.roots_nonzero, hs.below_threshold,
    hs.history_length, hs.bits_cover, hs.marked_justified,
    hs.justified_marked, hs.justified_lt⟩, id⟩

theorem generateGenesis_represents {T : TreeHash} {genesisTime : Nat}
    {validators : Option (List Validator)} {s : LeanState}
    (h : generateGenesis T genesisTime validators = some s) :
    Represents s ∅ ∧ ∀ R ∈ s.justificationsRoots.data, s.RootUnmarked R := by
  rw [generateGenesis] at h
  split at h
  · cases h
  · rw [Option.some_inj] at h
    subst h
    refine ⟨⟨by simp [BitList.len, VariableList.len], by simp, by simp,
      fun m hm => absurd hm (by simp [VariableList.len]), rfl, by simp, fun t ht => by simp [LeanState.marked, BitList.getD] at ht, by simp,
      by simp⟩, by simp⟩

theorem Reachable.represents {T : TreeHash} {s : LeanState} {justified : Set Nat}
    (hr : Reachable T s justified) : Represents s justified := by
  induction hr with
  | genesis h => exact (generateGenesis_represents h).1
  | slots _ h ih => exact (processSlots_represents ih h).1
  | block _ h ih => exact processBlock_represents ih h

/-- The history only grows along a run, so distinct roots at its end were distinct at every
earlier state. -/
theorem Reachable.rootUnmarked {T : TreeHash} {s : LeanState} {justified : Set Nat}
    (hr : Reachable T s justified) (hdist : HistoryDistinct s.historicalBlockHashes.data) :
    ∀ R ∈ s.justificationsRoots.data, s.RootUnmarked R := by
  induction hr with
  | genesis h => exact (generateGenesis_represents h).2
  | slots hr h ih =>
    refine (processSlots_represents hr.represents h).2 (ih ?_)
    obtain ⟨-, rfl⟩ := processSlots_ok T h
    rwa [processSlotsLoop_eq] at hdist
  | block hr h ih =>
    have hprefix := processBlock_history_prefix h
    exact processBlock_rootUnmarked hr.represents
      (ih (HistoryDistinct.of_prefix hdist hprefix)) h hdist

end Ream.Consensus
