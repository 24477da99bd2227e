import Ream.Lib.AssocMap
import Ream.Consensus.Types

/-!
# Forward-sync block ranges

`BlockCache` of `block_cache.rs` with `data_to_fetch`, which moves its cursor `next_start_slot` on
by the fill before it builds the range from the moved cursor. The slot of seventeen days ago is
a parameter.
-/

namespace Ream.Sync

open Ream.Consensus (B256)

def MAX_BLOCKS_PER_REQUEST : Nat := 10

/-- `Range`: `count` blocks from `start_slot` on. -/
structure Range where
  startSlot : Nat
  count : Nat
  deriving DecidableEq, Repr

/-- `Range::new`. -/
def Range.new (startSlot count : Nat) : Range := ⟨startSlot, count⟩

/-- The range asks for the block at `slot`. -/
def Range.Covers (r : Range) (slot : Nat) : Prop :=
  r.startSlot ≤ slot ∧ slot < r.startSlot + r.count

instance (r : Range) (slot : Nat) : Decidable (r.Covers slot) :=
  inferInstanceAs (Decidable (_ ∧ _))

structure BlobIdentifier where
  blockRoot : B256
  index : Nat
  deriving DecidableEq, Repr

/-- What the lookups read of a `BlockAndBlobBundle`. -/
structure BlockAndBlobBundle where
  slot : Nat
  parentRoot : B256
  blockRoot : B256
  blobKzgCommitments : Nat
  blobs : List BlobIdentifier

structure BlockCache where
  blocksAndBlobs : AssocMap B256 BlockAndBlobBundle
  initialParentRoot : B256
  blockRangesToRetry : List Range
  initialSlot : Nat
  nextStartSlot : Nat
  blockRootsInProgress : List B256
  blobIdentifiersInProgress : List BlobIdentifier

inductive DataToFetch
  | blockRange (range : Range)
  | missingBlockRoots (roots : List B256)
  | missingBlobIdentifiers (identifiers : List BlobIdentifier)
  | downloadsInProgress
  | finished
  deriving DecidableEq, Repr

namespace BlockCache

/-- `BlockCache::new`: nothing cached, the cursor at the synced slot. -/
def new (initialParentRoot : B256) (nextStartSlot : Nat) : BlockCache where
  blocksAndBlobs := AssocMap.empty
  initialParentRoot := initialParentRoot
  blockRangesToRetry := []
  initialSlot := nextStartSlot
  nextStartSlot := nextStartSlot
  blockRootsInProgress := []
  blobIdentifiersInProgress := []

/-- `estimated_blocks_to_fetch`. -/
def estimatedBlocksToFetch (c : BlockCache) : Nat :=
  if c.nextStartSlot - c.initialSlot > 30 then 0 else MAX_BLOCKS_PER_REQUEST

/-- `push_retry_range`. -/
def pushRetryRange (c : BlockCache) (range : Range) : BlockCache :=
  { c with blockRangesToRetry := c.blockRangesToRetry ++ [range] }

/-- `get_missing_block_roots`: the parents of cached blocks that are neither cached nor the
initial parent. -/
def getMissingBlockRoots (c : BlockCache) : List B256 :=
  c.blocksAndBlobs.entries.filterMap fun entry =>
    if !c.blocksAndBlobs.contains entry.2.parentRoot && entry.2.parentRoot != c.initialParentRoot
    then some entry.2.parentRoot else none

/-- `get_missing_blob_identifiers`: the blobs of cached blocks from the last seventeen days
that are not downloaded yet. -/
def getMissingBlobIdentifiers (slot17DaysAgo : Nat) (c : BlockCache) : List BlobIdentifier :=
  c.blocksAndBlobs.entries.flatMap fun entry =>
    if entry.2.slot < slot17DaysAgo then []
    else ((List.range entry.2.blobKzgCommitments).map fun index =>
        (⟨entry.2.blockRoot, index⟩ : BlobIdentifier)).filter fun id => !entry.2.blobs.contains id

/-- The end of `data_to_fetch`, once no range is due: the missing block roots and blob
identifiers that are not in flight, else whether some are in flight. -/
def missingData (slot17DaysAgo : Nat) (c : BlockCache) : DataToFetch :=
  let missingBlockRoots := c.getMissingBlockRoots
  let blockRootsLeftToFetch :=
    missingBlockRoots.filter fun root => !c.blockRootsInProgress.contains root
  let missingBlobIdentifiers := c.getMissingBlobIdentifiers slot17DaysAgo
  let blobIdentifiersLeftToFetch :=
    missingBlobIdentifiers.filter fun id => !c.blobIdentifiersInProgress.contains id
  if !blockRootsLeftToFetch.isEmpty then .missingBlockRoots blockRootsLeftToFetch
  else if !blobIdentifiersLeftToFetch.isEmpty then .missingBlobIdentifiers blobIdentifiersLeftToFetch
  else if 0 < missingBlockRoots.length ∨ 0 < missingBlobIdentifiers.length then .downloadsInProgress
  else .finished

/-- `data_to_fetch`: the range pushed last for a retry, else the next range up to the finalized
slot while the estimate allows one, else what `missingData` reports. -/
def dataToFetch (slot17DaysAgo : Nat) (c : BlockCache) (finalizedSlot : Nat) :
    DataToFetch × BlockCache :=
  match c.blockRangesToRetry.getLast? with
  | some range =>
    (.blockRange range, { c with blockRangesToRetry := c.blockRangesToRetry.dropLast })
  | none =>
    let estimatedBlocksToFetch := c.estimatedBlocksToFetch
    if 0 < estimatedBlocksToFetch ∧ c.nextStartSlot ≤ finalizedSlot then
      let blocksToFill :=
        min estimatedBlocksToFetch (min MAX_BLOCKS_PER_REQUEST (finalizedSlot - c.nextStartSlot))
      let c := { c with nextStartSlot := c.nextStartSlot + blocksToFill }
      (.blockRange (Range.new c.nextStartSlot blocksToFill), c)
    else (c.missingData slot17DaysAgo, c)

/-- The range phase of `BlockRangeSyncer::start`: one `data_to_fetch` a turn, with that turn's
finalized slot. -/
def fetchRun (slot17DaysAgo : Nat) : BlockCache → List Nat → List DataToFetch
  | _, [] => []
  | c, finalizedSlot :: rest =>
    (c.dataToFetch slot17DaysAgo finalizedSlot).1 ::
      fetchRun slot17DaysAgo (c.dataToFetch slot17DaysAgo finalizedSlot).2 rest

end BlockCache

/-- The ranges among what the calls returned, in order. -/
def rangesOf : List DataToFetch → List Range :=
  List.filterMap fun
    | .blockRange range => some range
    | _ => none

@[simp] theorem rangesOf_nil : rangesOf [] = [] := rfl

@[simp] theorem rangesOf_blockRange (r : Range) (ds : List DataToFetch) :
    rangesOf (.blockRange r :: ds) = r :: rangesOf ds := rfl

/-! ## The cursor's steps and the ranges built from them -/

/-- The slots a cursor at `n` stands for when it steps by `fills`: `n + 1 ..= n + fill`, then
on from `n + fill`. -/
def tiledRanges : Nat → List Nat → List Range
  | _, [] => []
  | n, fill :: fills => Range.new (n + 1) fill :: tiledRanges (n + fill) fills

/-- The ranges `data_to_fetch` builds for the same steps: from the moved cursor. -/
def shiftedRanges : Nat → List Nat → List Range
  | _, [] => []
  | n, fill :: fills => Range.new (n + fill) fill :: shiftedRanges (n + fill) fills

theorem covers_tiledRanges (fills : List Nat) :
    ∀ (n slot : Nat), (∃ r ∈ tiledRanges n fills, r.Covers slot) ↔ n < slot ∧ slot ≤ n + fills.sum := by
  induction fills with
  | nil => intro n slot; simp [tiledRanges]
  | cons fill fills ih =>
    intro n slot
    simp only [tiledRanges, List.mem_cons, exists_eq_or_imp, ih, List.sum_cons]
    simp only [Range.Covers, Range.new]
    omega

theorem tiledRanges_pairwise_disjoint (fills : List Nat) :
    ∀ n, (tiledRanges n fills).Pairwise fun r r' => ∀ slot, ¬ (r.Covers slot ∧ r'.Covers slot) := by
  induction fills with
  | nil => intro n; simp [tiledRanges]
  | cons fill fills ih =>
    intro n
    refine List.pairwise_cons.mpr ⟨?_, ih (n + fill)⟩
    intro r hr slot ⟨hfirst, hlater⟩
    have hafter := ((covers_tiledRanges fills (n + fill) slot).mp ⟨r, hr, hlater⟩).1
    simp only [Range.Covers, Range.new] at hfirst
    omega

theorem shiftedRanges_start_ge (fills : List Nat) :
    ∀ n, ∀ r ∈ shiftedRanges n fills, ∀ first ∈ fills.head?, n + first ≤ r.startSlot := by
  induction fills with
  | nil => intro n; simp [shiftedRanges]
  | cons fill fills ih =>
    intro n r hr first hfirst
    simp only [List.head?_cons, Option.mem_def, Option.some.injEq] at hfirst
    subst hfirst
    simp only [shiftedRanges, List.mem_cons] at hr
    rcases hr with rfl | hr
    · simp [Range.new]
    · cases fills with
      | nil => simp [shiftedRanges] at hr
      | cons next fills =>
        have := ih (n + fill) r hr next rfl
        omega

/-! ## One call and a run of calls -/

namespace BlockCache

variable (slot17DaysAgo : Nat)

theorem missingData_ne_blockRange (c : BlockCache) (r : Range) :
    c.missingData slot17DaysAgo ≠ .blockRange r := by
  dsimp only [missingData]
  split_ifs <;> simp

theorem rangesOf_missingData (c : BlockCache) (ds : List DataToFetch) :
    rangesOf (c.missingData slot17DaysAgo :: ds) = rangesOf ds := by
  cases hmd : c.missingData slot17DaysAgo with
  | blockRange r => exact absurd hmd (missingData_ne_blockRange slot17DaysAgo c r)
  | missingBlockRoots => rfl
  | missingBlobIdentifiers => rfl
  | downloadsInProgress => rfl
  | finished => rfl

/-- With nothing to retry, a call either moves the cursor by the fill and returns the range
from the moved cursor, or leaves the cache alone and returns no range. -/
theorem dataToFetch_cases {c : BlockCache} (finalizedSlot : Nat) (h : c.blockRangesToRetry = []) :
    (∃ fill, fill ≤ MAX_BLOCKS_PER_REQUEST ∧ c.nextStartSlot + fill ≤ finalizedSlot ∧
        (fill = 0 ↔ c.nextStartSlot = finalizedSlot) ∧
        c.dataToFetch slot17DaysAgo finalizedSlot =
          (.blockRange (Range.new (c.nextStartSlot + fill) fill),
            { c with nextStartSlot := c.nextStartSlot + fill })) ∨
      (c.dataToFetch slot17DaysAgo finalizedSlot = (c.missingData slot17DaysAgo, c)) := by
  unfold dataToFetch
  rw [h, List.getLast?_nil]
  dsimp only
  split
  · rename_i hdue
    have hest : c.estimatedBlocksToFetch = MAX_BLOCKS_PER_REQUEST := by
      unfold estimatedBlocksToFetch at hdue ⊢
      split at hdue <;> simp_all
    refine .inl ⟨_, ?_, ?_, ?_, rfl⟩ <;> simp only [hest, MAX_BLOCKS_PER_REQUEST] <;> omega
  · exact .inr rfl

/-- The ranges of a run with nothing to retry are the moved cursor's ranges for the run's
fills, each of at most `MAX_BLOCKS_PER_REQUEST` blocks. -/
theorem fetchRun_ranges (finalizedSlots : List Nat) :
    ∀ (c : BlockCache), c.blockRangesToRetry = [] →
      ∃ fills, rangesOf (c.fetchRun slot17DaysAgo finalizedSlots) =
          shiftedRanges c.nextStartSlot fills ∧ ∀ fill ∈ fills, fill ≤ MAX_BLOCKS_PER_REQUEST := by
  induction finalizedSlots with
  | nil => intro c _; exact ⟨[], rfl, by simp⟩
  | cons finalizedSlot rest ih =>
    intro c h
    rcases dataToFetch_cases slot17DaysAgo finalizedSlot h with ⟨fill, hle, -, -, hcall⟩ | hcall
    · obtain ⟨fills, hranges, hbound⟩ := ih { c with nextStartSlot := c.nextStartSlot + fill } h
      refine ⟨fill :: fills, ?_, ?_⟩
      · rw [fetchRun, hcall, rangesOf_blockRange, hranges]
        rfl
      · simpa [hle] using hbound
    · obtain ⟨fills, hranges, hbound⟩ := ih c h
      refine ⟨fills, ?_, hbound⟩
      rw [fetchRun, hcall]
      exact (rangesOf_missingData slot17DaysAgo c _).trans hranges

/-- A run with nothing to retry and a first range of two blocks or more never asks for the slot
right after the cursor it started from. -/
theorem fetchRun_skips_next_slot (c : BlockCache) (finalizedSlots : List Nat)
    (h : c.blockRangesToRetry = []) (first : Range)
    (hfirst : (rangesOf (c.fetchRun slot17DaysAgo finalizedSlots)).head? = some first)
    (htwo : 2 ≤ first.count) :
    ∀ r ∈ rangesOf (c.fetchRun slot17DaysAgo finalizedSlots), ¬ r.Covers (c.nextStartSlot + 1) := by
  obtain ⟨fills, hranges, -⟩ := fetchRun_ranges slot17DaysAgo finalizedSlots c h
  rw [hranges] at hfirst ⊢
  cases fills with
  | nil => simp [shiftedRanges]
  | cons fill fills =>
    simp only [shiftedRanges, List.head?_cons, Option.some.injEq] at hfirst
    subst hfirst
    intro r hr hcovers
    have hstart := shiftedRanges_start_ge (fill :: fills) c.nextStartSlot r
      (by simpa [shiftedRanges] using hr) fill rfl
    simp only [Range.new] at htwo
    simp only [Range.Covers] at hcovers
    omega

/-- A cursor at the finalized slot, while the estimate allows a range, asks for the empty range
there at every turn and never moves. -/
theorem fetchRun_at_finalized (c : BlockCache) (h : c.blockRangesToRetry = [])
    (hdue : c.nextStartSlot - c.initialSlot ≤ 30) (m : Nat) :
    c.fetchRun slot17DaysAgo (List.replicate m c.nextStartSlot) =
      List.replicate m (.blockRange (Range.new c.nextStartSlot 0)) := by
  induction m with
  | zero => rfl
  | succ m ih =>
    have hcall : c.dataToFetch slot17DaysAgo c.nextStartSlot =
        (.blockRange (Range.new c.nextStartSlot 0), c) := by
      have hest : c.estimatedBlocksToFetch = MAX_BLOCKS_PER_REQUEST := by
        simp [estimatedBlocksToFetch]; omega
      have hself : ({ c with blockRangesToRetry := [] } : BlockCache) = c := by rw [← h]
      simp [dataToFetch, h, hest, MAX_BLOCKS_PER_REQUEST, hself]
    rw [List.replicate_succ, fetchRun, hcall, ih, List.replicate_succ]

end BlockCache

/-- From the slot-100 anchor with the peers finalized at slot 200, the run asks for slots
110 to 149, never for 101 to 109, and with the peers finalized at 100 it asks for the empty
range at 100. In every run the ranges are disjoint (`tiledRanges_pairwise_disjoint`), and the
slot after the cursor is skipped once the first range has two blocks
(`fetchRun_skips_next_slot`). -/
theorem forward_sync_misplaces_ranges :
    rangesOf ((BlockCache.new B256.ZERO 100).fetchRun 0 [200, 200, 200, 200, 200]) =
        [⟨110, 10⟩, ⟨120, 10⟩, ⟨130, 10⟩, ⟨140, 10⟩] ∧
      (∀ r ∈ rangesOf ((BlockCache.new B256.ZERO 100).fetchRun 0 [200, 200, 200, 200, 200]),
        ¬ r.Covers 101) ∧
      ((BlockCache.new B256.ZERO 100).dataToFetch 0 100).1 = .blockRange ⟨100, 0⟩ := by
  decide

end Ream.Sync
