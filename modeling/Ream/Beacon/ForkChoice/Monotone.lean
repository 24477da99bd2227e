import Ream.Beacon.ForkChoice.Handlers

/-!
# What the beacon fork-choice store never undoes

`Advances s s'`: no checkpoint epoch goes down, no equivocating index is dropped, and no latest
message is replaced by an earlier one. Each write keeps it, so every handler run does, failed or
not (`Call.run_advances`), and so does every sequence of calls.
-/

namespace Ream.Beacon.ForkChoice

open Ream.Consensus (B256)
open EStateM

/-- The equivocating indices, none before the field is written. -/
def Store.equivocating (s : Store) : List Nat := s.equivocatingIndices.getD []

/-- The fields whose history `Advances` constrains. -/
def Store.tally (s : Store) :
    Checkpoint × Checkpoint × Checkpoint × Checkpoint × AssocMap Nat LatestMessage ×
      Option (List Nat) :=
  (s.justifiedCheckpoint, s.finalizedCheckpoint, s.unrealizedJustifiedCheckpoint,
    s.unrealizedFinalizedCheckpoint, s.latestMessages, s.equivocatingIndices)

structure Advances (s s' : Store) : Prop where
  justified : s.justifiedCheckpoint.epoch ≤ s'.justifiedCheckpoint.epoch
  finalized : s.finalizedCheckpoint.epoch ≤ s'.finalizedCheckpoint.epoch
  unrealizedJustified :
    s.unrealizedJustifiedCheckpoint.epoch ≤ s'.unrealizedJustifiedCheckpoint.epoch
  unrealizedFinalized :
    s.unrealizedFinalizedCheckpoint.epoch ≤ s'.unrealizedFinalizedCheckpoint.epoch
  equivocating : ∀ i ∈ s.equivocating, i ∈ s'.equivocating
  latestEpoch : ∀ i message, s.latestMessages.get? i = some message →
    ∃ message', s'.latestMessages.get? i = some message' ∧ message.epoch ≤ message'.epoch
  frozen : ∀ i ∈ s.equivocating, s'.latestMessages.get? i = s.latestMessages.get? i

namespace Advances

theorem refl (s : Store) : Advances s s :=
  ⟨le_rfl, le_rfl, le_rfl, le_rfl, fun _ h => h, fun _ m h => ⟨m, h, le_rfl⟩,
    fun _ _ => rfl⟩

theorem trans (a b c : Store) (hab : Advances a b) (hbc : Advances b c) : Advances a c where
  justified := hab.justified.trans hbc.justified
  finalized := hab.finalized.trans hbc.finalized
  unrealizedJustified := hab.unrealizedJustified.trans hbc.unrealizedJustified
  unrealizedFinalized := hab.unrealizedFinalized.trans hbc.unrealizedFinalized
  equivocating i hi := hbc.equivocating i (hab.equivocating i hi)
  latestEpoch i message h := by
    obtain ⟨m, hm, hle⟩ := hab.latestEpoch i message h
    obtain ⟨m', hm', hle'⟩ := hbc.latestEpoch i m hm
    exact ⟨m', hm', hle.trans hle'⟩
  frozen i hi := (hbc.frozen i (hab.equivocating i hi)).trans (hab.frozen i hi)

/-- A write that leaves the latest messages and the equivocating indices alone and raises no
checkpoint epoch less than it was. -/
theorem of_checkpoints {s s' : Store}
    (hj : s.justifiedCheckpoint.epoch ≤ s'.justifiedCheckpoint.epoch)
    (hf : s.finalizedCheckpoint.epoch ≤ s'.finalizedCheckpoint.epoch)
    (huj : s.unrealizedJustifiedCheckpoint.epoch ≤ s'.unrealizedJustifiedCheckpoint.epoch)
    (huf : s.unrealizedFinalizedCheckpoint.epoch ≤ s'.unrealizedFinalizedCheckpoint.epoch)
    (hl : s'.latestMessages = s.latestMessages)
    (he : s'.equivocatingIndices = s.equivocatingIndices) : Advances s s' where
  justified := hj
  finalized := hf
  unrealizedJustified := huj
  unrealizedFinalized := huf
  equivocating i hi := by rwa [Store.equivocating, he]
  latestEpoch i message h := ⟨message, hl ▸ h, le_rfl⟩
  frozen i _ := by rw [hl]

theorem of_tally {s s' : Store} (h : s'.tally = s.tally) : Advances s s' := by
  simp only [Store.tally, Prod.mk.injEq] at h
  obtain ⟨hj, hf, huj, huf, hl, he⟩ := h
  exact of_checkpoints (hj ▸ le_rfl) (hf ▸ le_rfl) (huj ▸ le_rfl) (huf ▸ le_rfl) hl he

end Advances

/-! ## The writes -/

theorem updateCheckpoints_advances (s : Store) (justified finalized : Checkpoint) :
    Advances s (s.updateCheckpoints justified finalized) := by
  rw [Store.updateCheckpoints_eq]
  refine Advances.of_checkpoints ?_ ?_ le_rfl le_rfl rfl rfl <;> dsimp only <;> split <;> omega

theorem updateUnrealizedCheckpoints_advances (s : Store) (justified finalized : Checkpoint) :
    Advances s (s.updateUnrealizedCheckpoints justified finalized) := by
  rw [Store.updateUnrealizedCheckpoints_eq]
  refine Advances.of_checkpoints le_rfl le_rfl ?_ ?_ rfl rfl <;> dsimp only <;> split <;> omega

/-- Storing a message of an epoch no earlier than the validator's latest one, for a validator
that is not among the equivocating indices. -/
theorem insertLatest_advances {s : Store} {index : Nat} {message : LatestMessage}
    (hprev : ∀ latest, s.latestMessages.get? index = some latest → latest.epoch ≤ message.epoch)
    (hindex : index ∉ s.equivocating) :
    Advances s { s with latestMessages := s.latestMessages.insert index message } where
  justified := le_rfl
  finalized := le_rfl
  unrealizedJustified := le_rfl
  unrealizedFinalized := le_rfl
  equivocating _ hi := hi
  latestEpoch i latest h := by
    by_cases hi : i = index
    · subst hi
      exact ⟨message, by simp, hprev latest h⟩
    · exact ⟨latest, by simpa [hi] using h, le_rfl⟩
  frozen i hi := by
    have hne : i ≠ index := fun heq => hindex (heq ▸ hi)
    simp [hne]

theorem recordLatestMessage_equivocatingIndices (s : Store) (message : LatestMessage)
    (index : Nat) :
    (s.recordLatestMessage message index).equivocatingIndices = s.equivocatingIndices := by
  unfold Store.recordLatestMessage
  split
  · rfl
  · split <;> rfl

theorem recordLatestMessage_advances {s : Store} {index : Nat} (message : LatestMessage)
    (hindex : index ∉ s.equivocating) : Advances s (s.recordLatestMessage message index) := by
  unfold Store.recordLatestMessage
  split
  case h_1 hnone =>
    refine insertLatest_advances (fun latest h => ?_) hindex
    rw [hnone] at h
    cases h
  case h_2 latest hsome =>
    split
    case isTrue hlt =>
      refine insertLatest_advances (fun latest' h => ?_) hindex
      rw [hsome] at h
      cases h
      exact Nat.le_of_lt hlt
    case isFalse => exact Advances.refl s

theorem foldl_recordLatestMessage_advances (message : LatestMessage) :
    ∀ (indices : List Nat) (s : Store), (∀ i ∈ indices, i ∉ s.equivocating) →
      Advances s (indices.foldl (fun s index => s.recordLatestMessage message index) s)
  | [], s, _ => Advances.refl s
  | index :: indices, s, h => by
    rw [List.foldl_cons]
    have hrest : ∀ i ∈ indices, i ∉ (s.recordLatestMessage message index).equivocating := by
      intro i hi
      rw [Store.equivocating, recordLatestMessage_equivocatingIndices]
      exact h i (List.mem_cons_of_mem index hi)
    exact Advances.trans _ _ _ (recordLatestMessage_advances message (h index List.mem_cons_self))
      (foldl_recordLatestMessage_advances message indices _ hrest)

theorem updateLatestMessages_advances (s : Store) (attestingIndices : List Nat)
    (attestation : Attestation) :
    Advances s (s.updateLatestMessages attestingIndices attestation) := by
  unfold Store.updateLatestMessages
  refine foldl_recordLatestMessage_advances _ _ s fun i hi => ?_
  simpa [Store.equivocating] using (List.mem_filter.mp hi).2

theorem mem_foldl_insert {index : Nat} :
    ∀ (both base : List Nat), index ∈ base → index ∈ both.foldl (fun e i => e.insert i) base
  | [], _, h => h
  | i :: both, base, h => mem_foldl_insert both (base.insert i) (List.mem_insert_of_mem h)

theorem onTickPerSlot_advances (s : Store) (time : Nat) : Advances s (s.onTickPerSlot time) := by
  unfold Store.onTickPerSlot
  dsimp only
  split
  · refine Advances.trans _ _ _ (Advances.of_tally ?_) (updateCheckpoints_advances _ _ _)
    split <;> rfl
  · refine Advances.of_tally ?_
    split <;> rfl

theorem onTickLoop_advances : ∀ (k : Nat) (s : Store), Advances s (Store.onTickLoop k s)
  | 0, s => Advances.refl s
  | k + 1, s =>
    Advances.trans _ _ _ (onTickPerSlot_advances s _) (onTickLoop_advances k _)

theorem onTick_advances (s : Store) (time : Nat) : Advances s (s.onTick time) :=
  Advances.trans _ _ _ (onTickLoop_advances _ s) (onTickPerSlot_advances _ time)

/-! ## The handlers, on every run -/

/-- A preorder on stores that every write of `on_tick`, `on_block` and `on_attestation` keeps. -/
structure KeptByWrites (R : Store → Store → Prop) : Prop where
  refl : ∀ s, R s s
  trans : ∀ a b c, R a b → R b c → R a c
  tick : ∀ (s : Store) time, R s (s.onTick time)
  storeBlock : ∀ (s : Store) root block state, R s (s.storeBlock root block state)
  justifications : ∀ (s : Store) root checkpoint,
    R s { s with unrealizedJustifications := s.unrealizedJustifications.insert root checkpoint }
  unrealized : ∀ (s : Store) justified finalized,
    R s (s.updateUnrealizedCheckpoints justified finalized)
  realized : ∀ (s : Store) justified finalized, R s (s.updateCheckpoints justified finalized)
  checkpointStates : ∀ (s : Store) target state,
    R s { s with checkpointStates := s.checkpointStates.insert target state }
  latest : ∀ (s : Store) indices attestation, R s (s.updateLatestMessages indices attestation)

variable (env : Env) {R : Store → Store → Prop}

/-- A relation that the three writes of `compute_pulled_up_tip` keep is kept by every run of
it. -/
theorem computePulledUpTip_keeps (hrefl : ∀ s, R s s)
    (htrans : ∀ a b c, R a b → R b c → R a c)
    (hjustifications : ∀ (s : Store) root checkpoint,
      R s { s with unrealizedJustifications := s.unrealizedJustifications.insert root checkpoint })
    (hunrealized : ∀ (s : Store) justified finalized,
      R s (s.updateUnrealizedCheckpoints justified finalized))
    (hrealized : ∀ (s : Store) justified finalized, R s (s.updateCheckpoints justified finalized))
    (blockRoot : B256) : Keeps R (computePulledUpTip blockRoot) := by
  refine Keeps.get_bind fun s => ?_
  refine Keeps.bind htrans (Keeps.ofExcept hrefl _) (fun state => ?_) s
  refine Keeps.bind htrans (Keeps.ofExcept hrefl _) fun state => ?_
  refine Keeps.bind htrans (Keeps.modify fun s => hjustifications s _ _) fun _ => ?_
  refine Keeps.bind htrans (Keeps.modify fun s => hunrealized s _ _) fun _ => ?_
  refine Keeps.get_bind fun s => ?_
  refine Keeps.bind htrans (Keeps.ofExcept hrefl _) (fun block => ?_) s
  exact Keeps.ite (Keeps.modify fun s => hrealized s _ _) (Keeps.pure hrefl ())

theorem onBlock_keeps (h : KeptByWrites R) (block : BeaconBlock) (verifyBlobAvailability : Bool) :
    Keeps R (onBlock env block verifyBlobAvailability) := by
  refine Keeps.get_bind fun s => ?_
  refine Keeps.bind h.trans (Keeps.ofExcept h.refl _) (fun state => ?_) s
  exact Keeps.bind h.trans (Keeps.modify fun s => h.storeBlock s _ _ _) fun _ =>
    computePulledUpTip_keeps h.refl h.trans h.justifications h.unrealized h.realized _

theorem storeTargetCheckpointState_keeps (h : KeptByWrites R) (target : Checkpoint) :
    Keeps R (storeTargetCheckpointState env target) := by
  refine Keeps.get_bind fun s => ?_
  refine Keeps.ite (Keeps.pure h.refl ()) ?_ s
  split
  · exact Keeps.pure h.refl ()
  · dsimp only
    refine Keeps.ite ?_ ?_ <;>
      refine Keeps.bind h.trans ?_ fun _ => Keeps.modify fun s => h.checkpointStates s _ _
    · exact Keeps.ofExcept h.refl _
    · exact Keeps.pure h.refl _

theorem onAttestation_keeps (h : KeptByWrites R) (attestation : Attestation)
    (isFromBlock : Bool) : Keeps R (onAttestation env attestation isFromBlock) := by
  refine Keeps.get_bind fun s => ?_
  refine Keeps.bind h.trans (Keeps.ofExcept h.refl _) (fun _ => ?_) s
  refine Keeps.bind h.trans (storeTargetCheckpointState_keeps env h _) fun _ => ?_
  refine Keeps.get_bind fun s => ?_
  refine Keeps.bind h.trans (Keeps.ofExcept h.refl _) (fun _ => ?_) s
  refine Keeps.bind h.trans (Keeps.ofExcept h.refl _) fun indexed => ?_
  refine Keeps.bind h.trans (Keeps.ofExcept h.refl _) fun _ => ?_
  refine Keeps.bind h.trans (Keeps.ofExcept h.refl _) fun _ => ?_
  exact Keeps.modify fun s => h.latest s _ _

theorem storeBlock_advances (s : Store) (blockRoot : B256) (block : BeaconBlock)
    (state : BeaconState) : Advances s (s.storeBlock blockRoot block state) := by
  unfold Store.storeBlock
  dsimp only
  refine Advances.trans _ _ _ (Advances.of_tally ?_) (updateCheckpoints_advances _ _ _)
  split <;> rfl

theorem advances_keptByWrites : KeptByWrites Advances where
  refl := Advances.refl
  trans := Advances.trans
  tick := onTick_advances
  storeBlock := storeBlock_advances
  justifications _ _ _ := Advances.of_tally rfl
  unrealized := updateUnrealizedCheckpoints_advances
  realized := updateCheckpoints_advances
  checkpointStates _ _ _ := Advances.of_tally rfl
  latest := updateLatestMessages_advances

theorem onAttesterSlashing_advances (attesterSlashing : AttesterSlashing) :
    Keeps Advances (onAttesterSlashing env attesterSlashing) := by
  refine Keeps.bind Advances.trans (Keeps.ofExcept Advances.refl _) fun _ => ?_
  refine Keeps.get_bind fun s => ?_
  refine Keeps.bind Advances.trans (Keeps.ofExcept Advances.refl _) (fun _ => ?_) s
  refine Keeps.bind Advances.trans (Keeps.ofExcept Advances.refl _) fun _ => ?_
  refine Keeps.bind Advances.trans (Keeps.ofExcept Advances.refl _) fun _ => ?_
  refine Keeps.bind Advances.trans (Keeps.ofExcept Advances.refl _) fun _ => ?_
  refine Keeps.bind Advances.trans (Keeps.ofExcept Advances.refl _) fun _ => ?_
  refine Keeps.modify fun s => ⟨le_rfl, le_rfl, le_rfl, le_rfl, fun i hi => ?_,
    fun _ m h => ⟨m, h, le_rfl⟩, fun _ _ => rfl⟩
  exact mem_foldl_insert _ _ hi

theorem Call.run_advances : ∀ call : Call, Keeps Advances (call.run env)
  | .onTick time => Keeps.modify fun s => onTick_advances s time
  | .onBlock block verifyBlobAvailability =>
    onBlock_keeps env advances_keptByWrites block verifyBlobAvailability
  | .onAttestation attestation isFromBlock =>
    onAttestation_keeps env advances_keptByWrites attestation isFromBlock
  | .onAttesterSlashing attesterSlashing => onAttesterSlashing_advances env attesterSlashing

theorem runCalls_advances : ∀ (calls : List Call) (s : Store), Advances s (runCalls env calls s)
  | [], s => Advances.refl s
  | call :: calls, s =>
    Advances.trans _ _ _ (Call.run_advances env call s) (runCalls_advances calls _)

theorem runCalls_append : ∀ (calls₁ calls₂ : List Call) (s : Store),
    runCalls env (calls₁ ++ calls₂) s = runCalls env calls₂ (runCalls env calls₁ s)
  | [], _, _ => rfl
  | _ :: calls₁, calls₂, _ => runCalls_append calls₁ calls₂ _

/-! ## Equivocating validators do not count -/

theorem scoreVote_of_mem_equivocating {s : Store} {equivocating : List Nat}
    (he : s.equivocatingIndices = some equivocating) {index : Nat} (hi : index ∈ equivocating)
    (state : BeaconState) (root : B256) (score : UInt64) :
    s.scoreVote state root score index = pure score := by
  unfold Store.scoreVote
  split
  · rfl
  · rw [he]
    exact if_pos hi

theorem scoreVote_latestMessages_of_equivocating {s : Store} {equivocating : List Nat}
    (he : s.equivocatingIndices = some equivocating) {i : Nat} (hi : i ∈ equivocating)
    {latestMessages : AssocMap Nat LatestMessage}
    (hl : ∀ k, k ≠ i → latestMessages.get? k = s.latestMessages.get? k) :
    { s with latestMessages }.scoreVote = s.scoreVote := by
  funext state root score index
  by_cases hindex : index = i
  · subst hindex
    rw [@scoreVote_of_mem_equivocating { s with latestMessages } _ he _ hi,
      scoreVote_of_mem_equivocating he hi]
  · unfold Store.scoreVote
    rw [show ({ s with latestMessages } : Store).latestMessages.get? index =
      s.latestMessages.get? index from hl index hindex]
    rfl

theorem getWeight_latestMessages_of_equivocating {s : Store} {equivocating : List Nat}
    (he : s.equivocatingIndices = some equivocating) {i : Nat} (hi : i ∈ equivocating)
    {latestMessages : AssocMap Nat LatestMessage}
    (hl : ∀ k, k ≠ i → latestMessages.get? k = s.latestMessages.get? k) (root : B256) :
    { s with latestMessages }.getWeight root = s.getWeight root := by
  unfold Store.getWeight
  rw [scoreVote_latestMessages_of_equivocating he hi hl]
  rfl

/-! ## Accepted blocks descend from the finalized checkpoint -/

theorem prepareBlock_ok {s : Store} {block : BeaconBlock} {verifyBlobAvailability : Bool}
    {state : BeaconState} (h : s.prepareBlock env block verifyBlobAvailability = .ok state) :
    computeStartSlotAtEpoch s.finalizedCheckpoint.epoch < block.slot ∧
      s.getCheckpointBlock block.parentRoot s.finalizedCheckpoint.epoch =
        .ok s.finalizedCheckpoint.root := by
  simp only [Store.prepareBlock, Except.bind_eq_ok] at h
  obtain ⟨⟨⟩, -, ⟨⟩, -, ⟨⟩, hslot, root, hcheckpoint, ⟨⟩, hfinalized, -⟩ := h
  exact ⟨ensure_eq_ok.mp hslot,
    hcheckpoint.trans (congrArg _ (ensure_eq_ok.mp hfinalized).symm)⟩

theorem onBlock_run_ok {s s' : Store} {block : BeaconBlock} {verifyBlobAvailability : Bool}
    (h : (onBlock env block verifyBlobAvailability).run s = .ok () s') :
    ∃ state, s.prepareBlock env block verifyBlobAvailability = .ok state ∧
      (computePulledUpTip (env.blockRoot block)).run
        (s.storeBlock (env.blockRoot block) block state) = .ok () s' := by
  simp only [onBlock, run_bind_eq_ok, run_get, run_modify, Result.ok.injEq] at h
  obtain ⟨_, _, ⟨rfl, rfl⟩, state, s1, hprepare, _, _, ⟨-, rfl⟩, hrun⟩ := h
  cases hp : s.prepareBlock env block verifyBlobAvailability with
  | error e =>
    rw [hp] at hprepare
    cases hprepare
  | ok st =>
    rw [hp, run_ofExcept_ok, Result.ok.injEq] at hprepare
    obtain ⟨rfl, rfl⟩ := hprepare
    exact ⟨_, rfl, hrun⟩

theorem updateCheckpoints_blocks (s : Store) (justified finalized : Checkpoint) :
    (s.updateCheckpoints justified finalized).blocks = s.blocks := by
  rw [Store.updateCheckpoints_eq]

theorem storeBlock_blocks (s : Store) (blockRoot : B256) (block : BeaconBlock)
    (state : BeaconState) :
    (s.storeBlock blockRoot block state).blocks = s.blocks.insert blockRoot block := by
  unfold Store.storeBlock
  dsimp only
  rw [updateCheckpoints_blocks]
  split <;> rfl

/-- A block `on_block` accepts has the stored finalized root as its ancestor at the first slot
of the finalized epoch, in the table it was written to. Storing it under its root leaves the
walk from its parent as it was, unless the table held another block under that root. -/
theorem onBlock_ancestorAt_finalized {s s' : Store} {block : BeaconBlock}
    {verifyBlobAvailability : Bool}
    (h : (onBlock env block verifyBlobAvailability).run s = .ok () s')
    (hroot : ∀ b, s.blocks.get? (env.blockRoot block) = some b → b = block) :
    AncestorAt s'.blocks (computeStartSlotAtEpoch s.finalizedCheckpoint.epoch)
      (env.blockRoot block) s.finalizedCheckpoint.root := by
  obtain ⟨state, hprepare, hrun⟩ := onBlock_run_ok env h
  obtain ⟨hslot, hcheckpoint⟩ := prepareBlock_ok env hprepare
  have hblocks : s'.blocks = s.blocks.insert (env.blockRoot block) block := by
    have hkept := (@computePulledUpTip_keeps (fun a b => b.blocks = a.blocks)
      (fun _ => rfl) (fun _ _ _ hab hbc => hbc.trans hab) (fun _ _ _ => rfl)
      (fun s _ _ => by rw [Store.updateUnrealizedCheckpoints_eq])
      updateCheckpoints_blocks _).run_ok hrun
    rw [hkept, storeBlock_blocks]
  have hparent := ancestorWalk_sound hcheckpoint
  have hparent' : AncestorAt (s.blocks.insert (env.blockRoot block) block)
      (computeStartSlotAtEpoch s.finalizedCheckpoint.epoch) block.parentRoot
      s.finalizedCheckpoint.root := by
    cases hget : s.blocks.get? (env.blockRoot block) with
    | none => exact hparent.insert_of_get?_none hget block
    | some b =>
      obtain rfl := hroot b hget
      refine hparent.congr fun k => ?_
      rw [AssocMap.get?_insert]
      split
      · subst k
        exact hget.symm
      · rfl
  rw [hblocks]
  exact .up (by simp) hslot hparent'

/-! ## Over every sequence of calls -/

/-- Between any two points of a sequence of calls, whatever each call returns, no checkpoint
epoch goes down, no equivocating index is dropped, no latest message goes back and none of an
equivocating validator changes; such a message plays no part in `get_weight`; and a block
`on_block` accepts descends from the finalized checkpoint of the store it was given. -/
theorem forkchoice_store_never_regresses :
    (∀ (calls₁ calls₂ : List Call) (s : Store),
      Advances (runCalls env calls₁ s) (runCalls env (calls₁ ++ calls₂) s)) ∧
    (∀ (s : Store) (equivocating : List Nat) (i : Nat)
        (latestMessages : AssocMap Nat LatestMessage) (root : B256),
      s.equivocatingIndices = some equivocating → i ∈ equivocating →
      (∀ k, k ≠ i → latestMessages.get? k = s.latestMessages.get? k) →
      { s with latestMessages }.getWeight root = s.getWeight root) ∧
    (∀ (s s' : Store) (block : BeaconBlock) (verifyBlobAvailability : Bool),
      (onBlock env block verifyBlobAvailability).run s = .ok () s' →
      (∀ b, s.blocks.get? (env.blockRoot block) = some b → b = block) →
      AncestorAt s'.blocks (computeStartSlotAtEpoch s.finalizedCheckpoint.epoch)
        (env.blockRoot block) s.finalizedCheckpoint.root) := by
  refine ⟨fun calls₁ calls₂ s => ?_, fun s _ _ _ root he hi hl => ?_, fun _ _ _ _ h hroot => ?_⟩
  · rw [runCalls_append]
    exact runCalls_advances env calls₂ _
  · exact getWeight_latestMessages_of_equivocating he hi hl root
  · exact onBlock_ancestorAt_finalized env h hroot

/-! ## A chain of one validator -/

/-- A state transition that changes nothing. -/
def keepState : KeepsFfg := ⟨fun s => .ok s, fun _ _ h => by cases h; rfl⟩

/-- One validator, blocks rooted at their slot plus one, and every check passing. -/
def singleValidatorEnv : Env where
  hash := ⟨fun _ => B256.ZERO, fun _ => B256.ZERO, fun _ => B256.ZERO⟩
  epochRest := keepState
  processBlock _ := keepState
  blockRoot block := ⟨(block.slot + 1) % 2 ^ 256, Nat.mod_lt _ (by decide)⟩
  isDataAvailable _ := .ok true
  getIndexedAttestation _ attestation := .ok ⟨[0], attestation.data⟩
  isValidIndexedAttestation _ _ := .ok true

def genesisState : BeaconState where
  slot := 0
  latestBlockHeader := ⟨0, 0, B256.ZERO, B256.ZERO, B256.ZERO⟩
  blockRoots := fun _ => B256.ZERO
  stateRoots := fun _ => B256.ZERO
  validators := [⟨32000000000, false, 0, FAR_FUTURE_EPOCH⟩]
  randaoMixes := fun _ => B256.ZERO
  previousEpochParticipation := [0]
  currentEpochParticipation := [0]
  justificationBits := ⟨[false, false, false, false], noJustificationBits_length⟩
  previousJustifiedCheckpoint := ⟨0, B256.ZERO⟩
  currentJustifiedCheckpoint := ⟨0, B256.ZERO⟩
  finalizedCheckpoint := ⟨0, B256.ZERO⟩

def genesisBlock : BeaconBlock := ⟨0, 0, B256.ZERO, B256.ZERO, B256.ZERO⟩

/-- The block of slot 1 on the genesis block, whose root is 1. -/
def firstBlock : BeaconBlock := ⟨1, 0, 1, B256.ZERO, B256.ZERO⟩

/-- A database with no entries, whose equivocating indices were never written. -/
def emptyStore : Store where
  time := 0
  genesisTime := 0
  justifiedCheckpoint := ⟨0, B256.ZERO⟩
  finalizedCheckpoint := ⟨0, B256.ZERO⟩
  unrealizedJustifiedCheckpoint := ⟨0, B256.ZERO⟩
  unrealizedFinalizedCheckpoint := ⟨0, B256.ZERO⟩
  proposerBoostRoot := B256.ZERO
  blocks := AssocMap.empty
  parentRootIndex := AssocMap.empty
  states := AssocMap.empty
  blockTimeliness := AssocMap.empty
  checkpointStates := AssocMap.empty
  unrealizedJustifications := AssocMap.empty
  latestMessages := AssocMap.empty
  equivocatingIndices := none

/-- The store `get_forkchoice_store` builds from the genesis state and block. -/
def genesisStore : Store :=
  ((getForkchoiceStore singleValidatorEnv emptyStore genesisState 0 genesisBlock).toOption).getD
    emptyStore

/-- The first block, received at the start of slot 2, descends from the genesis block. -/
theorem firstBlock_descends_from_genesis :
    (getForkchoiceStore singleValidatorEnv emptyStore genesisState 0 genesisBlock).isOk = true ∧
      AncestorAt ((onBlock singleValidatorEnv firstBlock false).run
          (genesisStore.onTick 24)).state.blocks
        (computeStartSlotAtEpoch (genesisStore.onTick 24).finalizedCheckpoint.epoch)
        (singleValidatorEnv.blockRoot firstBlock) (genesisStore.onTick 24).finalizedCheckpoint.root := by
  have hnew : (genesisStore.onTick 24).blocks.get? (singleValidatorEnv.blockRoot firstBlock) =
      none := by decide
  exact ⟨by decide, (forkchoice_store_never_regresses singleValidatorEnv).2.2 _ _ firstBlock false
    rfl fun b hb => absurd (hnew.symm.trans hb) (Option.some_ne_none b).symm⟩

end Ream.Beacon.ForkChoice
