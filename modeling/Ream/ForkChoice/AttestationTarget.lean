import Ream.ForkChoice.Finality
import Ream.Lib.Ghost

/-!
# The attestation target

`get_attestation_target` walks back from the head past the safe target and then to a justifiable
slot; `produce_attestation_data` uses it. Both succeed when the head's chain reaches the finalized
slot and the safe target is at or above it (`getAttestationTarget_ok`).
-/

namespace Ream.ForkChoice

open Ssz Ream.Consensus

/-- `JUSTIFICATION_LOOKBACK_SLOTS`. -/
def JUSTIFICATION_LOOKBACK_SLOTS : Nat := 3

/-- A stored post-state, or the error that it is missing. -/
def Store.getState (s : Store) (root : B256) (err : String) : Except String LeanState :=
  match s.states.get? root with
  | some state => .ok state
  | none => .error err

/-- The `for` loop of `get_attestation_target`: up to `steps` steps to the parent while the
block sits above the safe target's. -/
def Store.lookback (s : Store) : Nat → B256 → Except String B256
  | 0, root => .ok root
  | steps + 1, root => do
    let block ← s.getBlock root "Block not found for target block root"
    let safeBlock ← s.getBlock s.safeTarget "Block not found for safe target"
    if block.block.slot > safeBlock.block.slot then s.lookback steps block.block.parentRoot
    else pure root

/-- The `while` loop of `get_attestation_target`: to the parent until the block's slot is
justifiable after the finalized slot. The source's loop has no bound; the fuel is one step
per stored block, which a walk along decreasing slots does not use up
(`justifiableWalk_of_chainTo`). -/
def Store.justifiableWalk (s : Store) (finalizedSlot : Nat) : Nat → B256 → Except String B256
  | 0, root => .ok root
  | fuel + 1, root => do
    let block ← s.getBlock root "Block not found for target block root"
    if isJustifiableAfter block.block.slot finalizedSlot then pure root
    else s.justifiableWalk finalizedSlot fuel block.block.parentRoot

/-- `Store::get_attestation_target`. -/
def Store.getAttestationTarget (s : Store) : Except String Checkpoint := do
  let headRoot := s.head
  let headState ← s.getState headRoot "Head state not found for attestation target"
  let headFinalizedSlot := headState.latestFinalized.slot
  let headJustified := headState.latestJustified
  let targetBlockRoot ← s.lookback JUSTIFICATION_LOOKBACK_SLOTS headRoot
  let targetBlockRoot ← s.justifiableWalk headFinalizedSlot (s.blocks.size + 1) targetBlockRoot
  let targetBlock ← s.getBlock targetBlockRoot "Block not found for target block root"
  if targetBlock.block.slot < headJustified.slot then pure headJustified
  else pure ⟨targetBlockRoot, targetBlock.block.slot⟩

/-- `Store::produce_attestation_data`. -/
def Store.produceAttestationData (s : Store) (slot : Nat) : Except String AttestationData := do
  let headRoot := s.head
  let headState ← s.getState headRoot "Failed to get state for head block"
  let source := if headState.latestBlockHeader.slot = 0 then
      { headState.latestJustified with root := headRoot }
    else headState.latestJustified
  let target ← s.getAttestationTarget
  if ¬ source.slot ≤ target.slot then .error "Source must be older or equal to the target"
  else do
    let headBlock ← s.getBlock headRoot "Failed to get head block"
    pure { slot, head := ⟨headRoot, headBlock.block.slot⟩, target, source }

/-! ## Walks along the stored chain -/

/-- `child` is a stored block whose parent root is `parent`. -/
def Store.BlockParent (s : Store) (child parent : B256) : Prop :=
  ∃ b, s.blocks.get? child = some b ∧ b.block.parentRoot = parent

/-- From `root`, stored as `b`, the parent links pass through stored blocks of decreasing slots
above `slot` down to a stored block at `slot`. -/
inductive Store.ChainTo (s : Store) (slot : Nat) : B256 → SignedBlock → Prop
  | here {root : B256} {b : SignedBlock} :
      s.blocks.get? root = some b → b.block.slot = slot → s.ChainTo slot root b
  | step {root : B256} {b pb : SignedBlock} :
      s.blocks.get? root = some b → slot < b.block.slot → pb.block.slot < b.block.slot →
      s.ChainTo slot b.block.parentRoot pb → s.ChainTo slot root b

/-- `ChainTo`, decided along at most `fuel` parent links. -/
def Store.chainToWalk (s : Store) (slot : Nat) : Nat → B256 → Bool
  | 0, _ => false
  | fuel + 1, root =>
    match s.blocks.get? root with
    | none => false
    | some b =>
      decide (b.block.slot = slot) ||
        (decide (slot < b.block.slot) &&
          ((s.blocks.get? b.block.parentRoot).map fun pb => decide (pb.block.slot < b.block.slot))
            == some true &&
          s.chainToWalk slot fuel b.block.parentRoot)

variable {s : Store}

theorem Store.ChainTo.get {slot : Nat} {root : B256} {b : SignedBlock}
    (h : s.ChainTo slot root b) : s.blocks.get? root = some b := by
  cases h with
  | here hget _ => exact hget
  | step hget _ _ _ => exact hget

theorem Store.ChainTo.slot_le {slot : Nat} {root : B256} {b : SignedBlock}
    (h : s.ChainTo slot root b) : slot ≤ b.block.slot := by
  cases h with
  | here _ hslot => exact Nat.le_of_eq hslot.symm
  | step _ hlt _ _ => exact Nat.le_of_lt hlt

theorem Store.chainTo_of_chainToWalk {slot : Nat} :
    ∀ {fuel : Nat} {root : B256} {b : SignedBlock}, s.blocks.get? root = some b →
      s.chainToWalk slot fuel root = true → s.ChainTo slot root b
  | 0, _, _, _, h => by cases h
  | fuel + 1, root, b, hget, h => by
    rw [Store.chainToWalk, hget] at h
    simp only [Bool.or_eq_true, Bool.and_eq_true, decide_eq_true_eq] at h
    rcases h with hslot | ⟨⟨hlt, hparent⟩, hrest⟩
    · exact .here hget hslot
    · cases hp : s.blocks.get? b.block.parentRoot with
      | none =>
        rw [hp] at hparent
        cases hparent
      | some pb =>
        rw [hp] at hparent
        have hpb : pb.block.slot < b.block.slot := by simpa using hparent
        exact .step hget hlt hpb (Store.chainTo_of_chainToWalk hp hrest)

/-- The stored blocks at or below a slot. -/
def Store.blocksAtOrBelow (s : Store) (slot : Nat) : Nat :=
  Ghost.countAtOrBelow s.blocks.entries (fun e => e.2.block.slot) slot

theorem Store.blocksAtOrBelow_pos {root : B256} {b : SignedBlock}
    (hget : s.blocks.get? root = some b) : 0 < s.blocksAtOrBelow b.block.slot :=
  @Ghost.countAtOrBelow_pos _ _ (fun e : B256 × SignedBlock => e.2.block.slot) (root, b)
    ((AssocMap.mem_entries_iff _ _ _).mpr hget)

theorem Store.blocksAtOrBelow_lt {root : B256} {b : SignedBlock} {slot : Nat}
    (hget : s.blocks.get? root = some b) (hlt : slot < b.block.slot) :
    s.blocksAtOrBelow slot < s.blocksAtOrBelow b.block.slot :=
  @Ghost.countAtOrBelow_lt _ _ (fun e : B256 × SignedBlock => e.2.block.slot) (root, b) slot
    ((AssocMap.mem_entries_iff _ _ _).mpr hget) hlt
theorem Store.exists_chainTo_of_chainToWalk {slot fuel : Nat} {root : B256}
    (h : s.chainToWalk slot fuel root = true) : ∃ b, s.ChainTo slot root b := by
  cases hget : s.blocks.get? root with
  | none =>
    cases fuel with
    | zero => cases h
    | succ fuel =>
      rw [Store.chainToWalk, hget] at h
      cases h
  | some b => exact ⟨b, Store.chainTo_of_chainToWalk hget h⟩

theorem Store.getState_eq_ok {root : B256} {err : String} {state : LeanState} :
    s.getState root err = .ok state ↔ s.states.get? root = some state := by
  unfold Store.getState
  cases s.states.get? root <;> simp

/-! ## The two loops on the chain -/

variable {finalizedSlot : Nat}

/-- From a block of the chain the lookback stays on the chain, when the safe target is stored at
or above the chain's end: it stops at a block of the chain, reached by parent links. -/
theorem lookback_of_chainTo {safeBlock : SignedBlock}
    (hsafe : s.blocks.get? s.safeTarget = some safeBlock)
    (hsafeSlot : finalizedSlot ≤ safeBlock.block.slot) :
    ∀ (steps : Nat) {root : B256} {b : SignedBlock}, s.ChainTo finalizedSlot root b →
      ∃ r rb, s.lookback steps root = .ok r ∧ s.ChainTo finalizedSlot r rb ∧
        rb.block.slot ≤ b.block.slot ∧ Relation.ReflTransGen s.BlockParent root r
  | 0, root, b, h => ⟨root, b, rfl, h, Nat.le_refl _, .refl⟩
  | steps + 1, root, b, h => by
    have hget := h.get
    rw [Store.lookback, Store.getBlock_eq_ok.mpr hget, Except.ok_bind,
      Store.getBlock_eq_ok.mpr hsafe, Except.ok_bind]
    split
    · rename_i habove
      cases h with
      | here _ hslot => omega
      | @step _ _ pb _ _ hpb hparent =>
        obtain ⟨r, rb, hr, hchain, hle, hpath⟩ :=
          lookback_of_chainTo hsafe hsafeSlot steps hparent
        exact ⟨r, rb, hr, hchain, by omega, .head ⟨b, hget, rfl⟩ hpath⟩
    · exact ⟨root, b, rfl, h, Nat.le_refl _, .refl⟩

/-- From a block of the chain the justifiability walk stops at a stored block of the chain at a
justifiable slot, once its fuel covers the stored blocks at or below the start. -/
theorem justifiableWalk_of_chainTo {root : B256} {b : SignedBlock}
    (h : s.ChainTo finalizedSlot root b) :
    ∀ fuel, s.blocksAtOrBelow b.block.slot ≤ fuel →
      ∃ r rb, s.justifiableWalk finalizedSlot fuel root = .ok r ∧ s.blocks.get? r = some rb ∧
        isJustifiableAfter rb.block.slot finalizedSlot = true ∧ rb.block.slot ≤ b.block.slot ∧
        Relation.ReflTransGen s.BlockParent root r := by
  induction h with
  | @here root b hget hslot =>
    intro fuel hfuel
    obtain ⟨fuel, rfl⟩ := Nat.exists_eq_add_one.mpr
      (Nat.lt_of_lt_of_le (Store.blocksAtOrBelow_pos hget) hfuel)
    have hjust : isJustifiableAfter b.block.slot finalizedSlot = true := by
      rw [hslot]
      exact isJustifiableAfter_self finalizedSlot
    rw [Store.justifiableWalk, Store.getBlock_eq_ok.mpr hget, Except.ok_bind, if_pos hjust]
    exact ⟨root, b, rfl, hget, hjust, Nat.le_refl _, .refl⟩
  | @step root b pb hget _ hpb _ ih =>
    intro fuel hfuel
    obtain ⟨fuel, rfl⟩ := Nat.exists_eq_add_one.mpr
      (Nat.lt_of_lt_of_le (Store.blocksAtOrBelow_pos hget) hfuel)
    rw [Store.justifiableWalk, Store.getBlock_eq_ok.mpr hget, Except.ok_bind]
    by_cases hjust : isJustifiableAfter b.block.slot finalizedSlot = true
    · rw [if_pos hjust]
      exact ⟨root, b, rfl, hget, hjust, Nat.le_refl _, .refl⟩
    · rw [if_neg hjust]
      have hless := Store.blocksAtOrBelow_lt hget hpb
      obtain ⟨r, rb, hr, hrb, hj, hle, hpath⟩ := ih fuel (by omega)
      exact ⟨r, rb, hr, hrb, hj, by omega, .head ⟨b, hget, rfl⟩ hpath⟩

theorem blocksAtOrBelow_le_fuel (s : Store) (slot : Nat) :
    s.blocksAtOrBelow slot ≤ s.blocks.size + 1 :=
  Nat.le_succ_of_le (Ghost.countAtOrBelow_le_length _ _ _)

/-! ## The target and the attestation data -/

section Honest

variable {headState : LeanState} {headBlock safeBlock : SignedBlock}
  (hstate : s.states.get? s.head = some headState)
  (hchain : s.ChainTo headState.latestFinalized.slot s.head headBlock)
  (hsafe : s.blocks.get? s.safeTarget = some safeBlock)
  (hsafeSlot : headState.latestFinalized.slot ≤ safeBlock.block.slot)
include hstate hchain hsafe hsafeSlot

/-- When the head's chain is stored down to its state's finalized slot and the safe target is
stored at or above it, the target is the head state's justified checkpoint, or a stored
ancestor-or-self of the head at its own slot, justifiable after the finalized slot; either way
at or above the justified slot. -/
theorem getAttestationTarget_ok :
    ∃ target, s.getAttestationTarget = .ok target ∧
      headState.latestJustified.slot ≤ target.slot ∧
      (target = headState.latestJustified ∨
        ∃ b, s.blocks.get? target.root = some b ∧ b.block.slot = target.slot ∧
          isJustifiableAfter target.slot headState.latestFinalized.slot = true ∧
          target.slot ≤ headBlock.block.slot ∧
          Relation.ReflTransGen s.BlockParent s.head target.root) := by
  obtain ⟨r, rb, hlook, hchain', hle, hpath⟩ :=
    lookback_of_chainTo hsafe hsafeSlot JUSTIFICATION_LOOKBACK_SLOTS hchain
  obtain ⟨t, tb, hwalk, htb, hjust, hle', hpath'⟩ :=
    justifiableWalk_of_chainTo hchain' _ (blocksAtOrBelow_le_fuel s rb.block.slot)
  have hrun : s.getAttestationTarget =
      if tb.block.slot < headState.latestJustified.slot then .ok headState.latestJustified
      else .ok ⟨t, tb.block.slot⟩ := by
    rw [Store.getAttestationTarget, Store.getState_eq_ok.mpr hstate, Except.ok_bind]
    dsimp only
    rw [hlook, Except.ok_bind, hwalk, Except.ok_bind, Store.getBlock_eq_ok.mpr htb,
      Except.ok_bind]
    split <;> rfl
  rw [hrun]
  by_cases hbelow : tb.block.slot < headState.latestJustified.slot
  · rw [if_pos hbelow]
    exact ⟨_, rfl, Nat.le_refl _, .inl rfl⟩
  · rw [if_neg hbelow]
    exact ⟨_, rfl, Nat.le_of_not_lt hbelow,
      .inr ⟨tb, htb, rfl, hjust, hle'.trans hle, hpath.trans hpath'⟩⟩

/-- Under the same conditions `produce_attestation_data` returns the head, that target, and the
justified checkpoint as the source, whose slot is at most the target's. -/
theorem produceAttestationData_ok (slot : Nat) :
    ∃ target data, s.getAttestationTarget = .ok target ∧
      s.produceAttestationData slot = .ok data ∧ data.slot = slot ∧ data.target = target ∧
      data.head = ⟨s.head, headBlock.block.slot⟩ ∧
      data.source.slot = headState.latestJustified.slot ∧ data.source.slot ≤ data.target.slot := by
  obtain ⟨target, htarget, hjustified, -⟩ := getAttestationTarget_ok hstate hchain hsafe hsafeSlot
  obtain ⟨source, hsource, hslot⟩ : ∃ source, (if headState.latestBlockHeader.slot = 0 then
      { headState.latestJustified with root := s.head } else headState.latestJustified) =
        source ∧ source.slot = headState.latestJustified.slot := by
    refine ⟨_, rfl, ?_⟩
    split <;> rfl
  have hrun : s.produceAttestationData slot =
      .ok ⟨slot, ⟨s.head, headBlock.block.slot⟩, target, source⟩ := by
    rw [Store.produceAttestationData, Store.getState_eq_ok.mpr hstate, Except.ok_bind]
    dsimp only
    rw [hsource, htarget, Except.ok_bind, if_neg (not_not.mpr (hslot ▸ hjustified)),
      Store.getBlock_eq_ok.mpr hchain.get, Except.ok_bind]
    rfl
  exact ⟨target, _, htarget, hrun, rfl, rfl, rfl, hslot, hslot ▸ hjustified⟩

end Honest

theorem produceAttestationData_of_target_error {e : String}
    (hstate : (s.states.get? s.head).isSome = true) (h : s.getAttestationTarget = .error e)
    (slot : Nat) : s.produceAttestationData slot = .error e := by
  obtain ⟨headState, hstate⟩ := Option.isSome_iff_exists.mp hstate
  rw [Store.produceAttestationData, Store.getState_eq_ok.mpr hstate, Except.ok_bind]
  dsimp only
  rw [h]
  rfl

/-! ## A stale safe target -/

/-- After the three blocks that finalize slot 1, with no tick in between: the head's chain is
stored down to the finalized block and the safe target is the stored genesis block, below the
finalized slot. The lookback walks from the head at slot 3 to genesis, the justifiability walk
steps past it to the zero root, and no attestation data can be produced. -/
theorem attestation_target_fails_below_finalized :
    ∃ s0 s, getForkchoiceStore polyHash 4 Store.empty polyAnchor polyGenesis (some 100) = .ok s0 ∧
      runOps polyHash acceptProof acceptAggregate 4 finalizingRun s0 = s ∧
      (s.states.get? s.head).map (·.latestFinalized.slot) = some 1 ∧
      (∃ headBlock, s.ChainTo 1 s.head headBlock) ∧
      (s.blocks.get? s.safeTarget).map (·.block.slot) = some 0 ∧
      s.getAttestationTarget = .error "Block not found for target block root" ∧
      ∀ slot, s.produceAttestationData slot = .error "Block not found for target block root" := by
  refine ⟨_, _, rfl, rfl, by decide, @Store.exists_chainTo_of_chainToWalk _ 1 4 _ (by decide),
    by decide, ?_, ?_⟩
  · decide
  · exact produceAttestationData_of_target_error (by decide) (by decide)

end Ream.ForkChoice
