import Ream.Sync.Backfill

/-!
# The backfill queues keep their representation

`WellFormed`: distinct starting roots, and a queue complete exactly when it has no jobs. Every
operation keeps it (`BackfillOp.run_wellFormed`), and from it follow `AbsorbsAsSpecified` and
`RecoversAsSpecified`.
-/

namespace Ream.Sync

open Ream.Consensus (B256)

/-- A queue is complete exactly when it has no jobs. -/
def JobQueue.CompleteIffEmpty (queue : JobQueue) : Prop :=
  queue.isComplete = true ↔ queue.jobs.size = 0

structure BackfillState.WellFormed (s : BackfillState) : Prop where
  roots_nodup : (s.jobs.map JobQueue.startingRoot).Nodup
  completeIffEmpty : ∀ queue ∈ s.jobs, queue.CompleteIffEmpty

namespace JobQueue

variable {now : Nat} {queue queue' : JobQueue}

theorem isComplete_eq_false_of_get? {root : B256} {job : JobRequest} (hq : queue.CompleteIffEmpty)
    (hget : queue.jobs.get? root = some job) : queue.isComplete = false := by
  cases hc : queue.isComplete with
  | false => rfl
  | true => exact absurd (hq.mp hc) (AssocMap.size_ne_zero_of_get? hget)

theorem completeIffEmpty_of_incomplete (hc : queue.isComplete = false) (hsize : queue.jobs.size ≠ 0) :
    queue.CompleteIffEmpty := by
  rw [CompleteIffEmpty, hc]
  exact ⟨fun h => absurd h (by decide), fun h => absurd h hsize⟩

theorem completeIffEmpty_mapValues (hq : queue.CompleteIffEmpty) (f : B256 → JobRequest → JobRequest) :
    ({ queue with jobs := queue.jobs.mapValues f } : JobQueue).CompleteIffEmpty := by
  unfold CompleteIffEmpty
  rw [AssocMap.size_mapValues]
  exact hq

theorem replaceJob_eq_some {lastRoot : B256} {lastSlot : Nat} {newJob oldJob : JobRequest}
    (h : queue.replaceJob now lastRoot lastSlot newJob = some (queue', oldJob)) :
    queue.jobs.get? lastRoot = some oldJob ∧
      queue' = { queue with
        lastFetchedSlot := lastSlot
        lastProgressAt := now
        jobs := (queue.jobs.erase lastRoot).insert newJob.root newJob } := by
  obtain ⟨job, hget, heq⟩ := Option.map_eq_some_iff.mp h
  obtain ⟨rfl, rfl⟩ := Prod.mk.inj heq
  exact ⟨hget, rfl⟩

theorem replaceJob_completeIffEmpty {lastRoot : B256} {lastSlot : Nat} {newJob oldJob : JobRequest}
    (hq : queue.CompleteIffEmpty) (h : queue.replaceJob now lastRoot lastSlot newJob = some (queue', oldJob)) :
    queue'.CompleteIffEmpty := by
  obtain ⟨hget, rfl⟩ := replaceJob_eq_some h
  have hc := isComplete_eq_false_of_get? hq hget
  exact completeIffEmpty_of_incomplete hc (AssocMap.size_insert_ne_zero _ _ _)

end JobQueue

namespace BackfillState

variable {now : Nat} {s : BackfillState}

theorem wellFormed_default : (⟨[]⟩ : BackfillState).WellFormed :=
  ⟨List.nodup_nil, fun _ h => nomatch h⟩

theorem WellFormed.filter (hs : s.WellFormed) (p : JobQueue → Bool) :
    (⟨s.jobs.filter p⟩ : BackfillState).WellFormed where
  roots_nodup := hs.roots_nodup.sublist (List.filter_sublist.map _)
  completeIffEmpty queue hq := hs.completeIffEmpty queue (List.mem_of_mem_filter hq)

/-- Rewriting the first queue a test accepts keeps the state well formed when the rewrite keeps
the starting root and leaves the rewritten queue complete exactly when empty. -/
theorem WellFormed.updateFirst {γ : Type} {f : JobQueue → Option (JobQueue × γ)}
    {jobs : List JobQueue} {c : γ} (hs : s.WellFormed)
    (hroot : ∀ q q' c, f q = some (q', c) → q'.startingRoot = q.startingRoot)
    (hinv : ∀ q q' c, q ∈ s.jobs → f q = some (q', c) → q'.CompleteIffEmpty)
    (h : s.jobs.updateFirst f = some (jobs, c)) : (⟨jobs⟩ : BackfillState).WellFormed where
  roots_nodup := by
    show (jobs.map JobQueue.startingRoot).Nodup
    rw [List.map_of_updateFirst_eq_some hroot h]
    exact hs.roots_nodup
  completeIffEmpty := List.forall_mem_of_updateFirst_eq_some hs.completeIffEmpty hinv h

theorem markJobQueueAsCompleteAt_wellFormed (hs : s.WellFormed) (lastRoot : B256)
    (completionRoot : Option B256) : (s.markJobQueueAsCompleteAt now lastRoot completionRoot).WellFormed := by
  unfold markJobQueueAsCompleteAt
  split
  · rename_i jobs h
    refine hs.updateFirst (fun q q' c hf => ?_) (fun q q' c _ hf => ?_) h
    · split at hf
      · obtain ⟨rfl, -⟩ := Prod.mk.inj (Option.some.inj hf)
        rfl
      · cases hf
    · split at hf
      · obtain ⟨rfl, -⟩ := Prod.mk.inj (Option.some.inj hf)
        exact ⟨fun _ => rfl, fun _ => rfl⟩
      · cases hf
  · exact hs

theorem WellFormed.updateFirst_of_replaceJob {f : JobQueue → Option (JobQueue × JobRequest)}
    {oldJob : JobRequest} {jobs : List JobQueue} (hs : s.WellFormed) (now : Nat) (lastRoot : B256)
    (lastSlot : Nat) (newJob : JobRequest)
    (hf : ∀ q q' c, f q = some (q', c) → q.replaceJob now lastRoot lastSlot newJob = some (q', c))
    (h : s.jobs.updateFirst f = some (jobs, oldJob)) : (⟨jobs⟩ : BackfillState).WellFormed := by
  refine hs.updateFirst (fun q q' c hq => ?_) (fun q q' c hmem hq => ?_) h
  · rw [(JobQueue.replaceJob_eq_some (hf q q' c hq)).2]
  · exact JobQueue.replaceJob_completeIffEmpty (hs.completeIffEmpty q hmem) (hf q q' c hq)

theorem WellFormed.updateFirst_of_mapValues {γ : Type} {f : JobQueue → Option (JobQueue × γ)}
    {jobs : List JobQueue} {c : γ} (hs : s.WellFormed)
    (hf : ∀ q q' c, f q = some (q', c) → ∃ g, q' = { q with jobs := q.jobs.mapValues g })
    (h : s.jobs.updateFirst f = some (jobs, c)) : (⟨jobs⟩ : BackfillState).WellFormed := by
  refine hs.updateFirst (fun q q' c hq => ?_) (fun q q' c hmem hq => ?_) h
  · obtain ⟨g, rfl⟩ := hf q q' c hq
    rfl
  · obtain ⟨g, rfl⟩ := hf q q' c hq
    exact JobQueue.completeIffEmpty_mapValues (hs.completeIffEmpty q hmem) g

theorem resetOrInitializeNextJob_wellFormed (hs : s.WellFormed) (lastRoot : B256) (lastSlot : Nat)
    (newJob : JobRequest) : (s.resetOrInitializeNextJob now lastRoot lastSlot newJob).2.WellFormed := by
  unfold resetOrInitializeNextJob
  split
  · rename_i jobs oldJob h
    exact hs.updateFirst_of_replaceJob now lastRoot lastSlot newJob (fun _ _ _ hf => hf) h
  · exact hs

theorem replaceJobWithNextJob_wellFormed (hs : s.WellFormed) (lastRoot : B256) (lastSlot : Nat)
    (newJob : JobRequest) : (s.replaceJobWithNextJob now lastRoot lastSlot newJob).2.WellFormed := by
  unfold replaceJobWithNextJob
  split
  · rename_i jobs oldJob h
    refine hs.updateFirst_of_replaceJob now lastRoot lastSlot newJob (fun q q' c hf => ?_) h
    split at hf
    · cases hf
    · exact hf
  · exact hs

theorem resetJobWithNewPeerId_wellFormed (hs : s.WellFormed) (oldPeerId newPeerId : PeerId) :
    (s.resetJobWithNewPeerId oldPeerId newPeerId).2.WellFormed := by
  unfold resetJobWithNewPeerId
  split
  · rename_i jobs oldJob h
    refine hs.updateFirst_of_mapValues (fun q q' c hf => ?_) h
    obtain ⟨_, -, heq⟩ := Option.map_eq_some_iff.mp hf
    obtain ⟨rfl, -⟩ := Prod.mk.inj heq
    exact ⟨_, rfl⟩
  · exact hs

theorem markJobAsRequested_wellFormed (hs : s.WellFormed) (root : B256) :
    (s.markJobAsRequested now root).WellFormed := by
  unfold markJobAsRequested
  split
  · rename_i jobs h
    refine hs.updateFirst_of_mapValues (fun q q' c hf => ?_) h
    obtain ⟨_, -, heq⟩ := Option.map_eq_some_iff.mp hf
    obtain ⟨rfl, -⟩ := Prod.mk.inj heq
    exact ⟨_, rfl⟩
  · exact hs

theorem resetTimedOutJobs_wellFormed (hs : s.WellFormed) (timeout : Nat) :
    (s.resetTimedOutJobs now timeout).2.WellFormed where
  roots_nodup := by
    show ((s.jobs.map _).map JobQueue.startingRoot).Nodup
    rw [List.map_map]
    exact hs.roots_nodup
  completeIffEmpty queue hq := by
    obtain ⟨q, hmem, rfl⟩ := List.mem_map.mp hq
    exact JobQueue.completeIffEmpty_mapValues (hs.completeIffEmpty q hmem) _

theorem addNewJobQueue_wellFormed (hs : s.WellFormed) (checkpoint : Ream.Consensus.Checkpoint)
    (job : JobRequest) (bypassSlotCheck : Bool) :
    (s.addNewJobQueue now checkpoint job bypassSlotCheck).2.WellFormed := by
  unfold addNewJobQueue
  split
  · exact hs
  split
  · exact hs
  · rename_i _ hroot
    have hfresh : checkpoint.root ∉ s.jobs.map JobQueue.startingRoot := by
      intro hmem
      obtain ⟨q, hq, hqroot⟩ := List.mem_map.mp hmem
      exact hroot (List.any_eq_true.mpr ⟨q, hq, by simp [hqroot]⟩)
    refine ⟨?_, fun q hq => ?_⟩
    · show ((s.jobs ++ [_]).map JobQueue.startingRoot).Nodup
      rw [List.map_append, List.map_singleton]
      exact List.nodup_append.mpr ⟨hs.roots_nodup, List.nodup_singleton _,
        fun a ha b hb => by
          rw [List.mem_singleton.mp hb]
          rintro rfl
          exact hfresh ha⟩
    · rcases List.mem_append.mp hq with hq | hq
      · exact hs.completeIffEmpty q hq
      · rw [List.mem_singleton.mp hq]
        exact JobQueue.completeIffEmpty_of_incomplete rfl (AssocMap.size_insert_ne_zero _ _ _)

theorem recoverStalledQueues_wellFormed (hs : s.WellFormed) (timeout : Nat) :
    (s.recoverStalledQueues now timeout).2.WellFormed :=
  hs.filter _

theorem removeProcessedQueue_wellFormed (hs : s.WellFormed) (startingRoot : B256) :
    (s.removeProcessedQueue startingRoot).WellFormed :=
  hs.filter _

/-- Writing a queue with the same starting root at one position and dropping another position
keeps the state well formed. -/
theorem WellFormed.set_eraseIdx {i : Nat} {current merged : JobQueue} (hs : s.WellFormed)
    (hcur : s.jobs[i]? = some current) (hroot : merged.startingRoot = current.startingRoot)
    (hinv : merged.CompleteIffEmpty) (j : Nat) :
    (⟨(s.jobs.set i merged).eraseIdx j⟩ : BackfillState).WellFormed where
  roots_nodup := by
    have hmap := List.map_set_of_key_eq hcur hroot
    exact hs.roots_nodup.sublist (hmap ▸ (List.eraseIdx_sublist _ j).map JobQueue.startingRoot)
  completeIffEmpty q hq := by
    rcases List.mem_or_eq_of_mem_set (List.mem_of_mem_eraseIdx hq) with hq | rfl
    · exact hs.completeIffEmpty q hq
    · exact hinv

/-- Everything `absorb_queue_frontier` can do: nothing; or, with the two queues found at distinct
positions, drop the current job and stop because the absorbed queue is empty; or write the merged
queue over the current one and drop the absorbed one. -/
theorem absorbQueueFrontier_cases {currentJobRoot absorbedQueueRoot : B256} {currentSlot : Nat}
    {r : Option QueueAbsorption} {s' : BackfillState}
    (h : s.absorbQueueFrontier now currentJobRoot currentSlot absorbedQueueRoot = (r, s')) :
    (r = none ∧ s' = s) ∨
    ∃ currentIndex absorbedIndex current absorbed,
      currentIndex ≠ absorbedIndex ∧ s.jobs[currentIndex]? = some current ∧
      s.jobs[absorbedIndex]? = some absorbed ∧ (current.jobs.get? currentJobRoot).isSome ∧
      absorbed.startingRoot = absorbedQueueRoot ∧ absorbed.isComplete = false ∧
      ((absorbed.jobs.size = 0 ∧ r = none ∧
          s'.jobs = s.jobs.set currentIndex { current with jobs := current.jobs.erase currentJobRoot }) ∨
        (absorbed.jobs.size ≠ 0 ∧
          r = some ⟨absorbed.startingRoot, absorbed.startingSlot, absorbed.jobs.size⟩ ∧
          ∃ merged : JobQueue, s'.jobs = (s.jobs.set currentIndex merged).eraseIdx absorbedIndex ∧
            merged.startingRoot = current.startingRoot ∧ merged.isComplete = current.isComplete ∧
            merged.jobs = (current.jobs.erase currentJobRoot).extend absorbed.jobs)) := by
  have hnone : ((none, s) : Option QueueAbsorption × BackfillState) = (r, s') → r = none ∧ s' = s :=
    fun h => ⟨(Prod.mk.inj h).1.symm, (Prod.mk.inj h).2.symm⟩
  unfold absorbQueueFrontier at h
  cases hci : s.jobs.findIdx? (fun queue => queue.jobs.contains currentJobRoot) with
  | none =>
    rw [hci] at h
    exact .inl (hnone h)
  | some currentIndex =>
    cases hai : s.jobs.findIdx?
        (fun queue => queue.startingRoot == absorbedQueueRoot && !queue.isComplete) with
    | none =>
      rw [hci, hai] at h
      exact .inl (hnone h)
    | some absorbedIndex =>
      rw [hci, hai] at h
      dsimp only at h
      by_cases hsame : currentIndex = absorbedIndex
      · rw [if_pos hsame] at h
        exact .inl (hnone h)
      rw [if_neg hsame] at h
      obtain ⟨hcl, hcp, -⟩ := List.findIdx?_eq_some_iff_getElem.mp hci
      obtain ⟨hal, hap, -⟩ := List.findIdx?_eq_some_iff_getElem.mp hai
      rw [List.getElem?_eq_getElem hcl, List.getElem?_eq_getElem hal] at h
      dsimp only at h
      have hcontains : (s.jobs[currentIndex].jobs.get? currentJobRoot).isSome := hcp
      obtain ⟨job, hget⟩ := Option.isSome_iff_exists.mp hcontains
      rw [hget] at h
      dsimp only at h
      have habsorbed : s.jobs[absorbedIndex].startingRoot = absorbedQueueRoot ∧
          s.jobs[absorbedIndex].isComplete = false := by
        simpa using hap
      refine .inr ⟨currentIndex, absorbedIndex, _, _, hsame, List.getElem?_eq_getElem hcl,
        List.getElem?_eq_getElem hal, hcontains, habsorbed.1, habsorbed.2, ?_⟩
      by_cases hsize : s.jobs[absorbedIndex].jobs.size = 0
      · rw [if_pos hsize] at h
        obtain ⟨rfl, rfl⟩ := Prod.mk.inj h
        exact .inl ⟨hsize, rfl, rfl⟩
      · rw [if_neg hsize] at h
        obtain ⟨rfl, rfl⟩ := Prod.mk.inj h
        exact .inr ⟨hsize, rfl, _, rfl, rfl, rfl, rfl⟩

theorem WellFormed.size_ne_zero {i : Nat} {queue : JobQueue} (hs : s.WellFormed)
    (hq : s.jobs[i]? = some queue) (hc : queue.isComplete = false) : queue.jobs.size ≠ 0 := by
  intro h0
  have hcomplete := (hs.completeIffEmpty queue (List.mem_of_getElem? hq)).mpr h0
  rw [hc] at hcomplete
  exact Bool.false_ne_true hcomplete

theorem absorbQueueFrontier_wellFormed (hs : s.WellFormed) (currentJobRoot : B256)
    (currentSlot : Nat) (absorbedQueueRoot : B256) :
    (s.absorbQueueFrontier now currentJobRoot currentSlot absorbedQueueRoot).2.WellFormed := by
  generalize hres : s.absorbQueueFrontier now currentJobRoot currentSlot absorbedQueueRoot = res
  obtain ⟨r, s'⟩ := res
  rcases absorbQueueFrontier_cases hres with ⟨-, rfl⟩ | ⟨ci, ai, current, absorbed, -, hcur, habs,
    hcontains, -, hincomplete, ⟨hsize, -, -⟩ | ⟨hsize, -, merged, hjobs, hroot, hcomplete, hmerged⟩⟩
  · exact hs
  · exact absurd hsize (hs.size_ne_zero habs hincomplete)
  · obtain ⟨job, hget⟩ := Option.isSome_iff_exists.mp hcontains
    have hc := JobQueue.isComplete_eq_false_of_get?
      (hs.completeIffEmpty current (List.mem_of_getElem? hcur)) hget
    cases s'
    subst hjobs
    refine hs.set_eraseIdx hcur hroot ?_ ai
    refine JobQueue.completeIffEmpty_of_incomplete (by rw [hcomplete]; exact hc) ?_
    rw [hmerged]
    exact AssocMap.size_extend_ne_zero _ hsize

/-- What `absorb_queue_frontier` promises the sync service: on `None` the state is unchanged; on
`Some` the absorbed queue is gone, the current queue keeps its root and flag and holds its jobs
but the current one together with every job of the absorbed queue, and no other queue changed. -/
def AbsorbsAsSpecified (now : Nat) (currentJobRoot : B256) (currentSlot : Nat)
    (absorbedQueueRoot : B256) (s : BackfillState) : Prop :=
  let result := s.absorbQueueFrontier now currentJobRoot currentSlot absorbedQueueRoot
  match result.1 with
  | none => result.2 = s
  | some absorption =>
    absorption.absorbedStartingRoot = absorbedQueueRoot ∧
    absorbedQueueRoot ∉ result.2.jobs.map JobQueue.startingRoot ∧
    ∃ currentIndex absorbedIndex current absorbed merged,
      currentIndex ≠ absorbedIndex ∧ s.jobs[currentIndex]? = some current ∧
      s.jobs[absorbedIndex]? = some absorbed ∧ absorbed.startingRoot = absorbedQueueRoot ∧
      (current.jobs.get? currentJobRoot).isSome ∧
      result.2.jobs = (s.jobs.set currentIndex merged).eraseIdx absorbedIndex ∧
      merged.startingRoot = current.startingRoot ∧ merged.isComplete = current.isComplete ∧
      ∀ root, merged.jobs.get? root =
        (absorbed.jobs.get? root).or (if root = currentJobRoot then none else current.jobs.get? root)

/-- What `recover_stalled_queues` promises: it keeps exactly the queues it does not report, and
it reports the stalled queues in order, each with that queue's job roots and peers. -/
def RecoversAsSpecified (now timeout : Nat) (s : BackfillState) : Prop :=
  let result := s.recoverStalledQueues now timeout
  result.2.jobs = s.jobs.filter (fun queue => !queue.isStalled now timeout) ∧
  List.Forall₂ (fun (recovery : QueueRecovery) (queue : JobQueue) =>
      recovery.startingRoot = queue.startingRoot ∧ recovery.jobRoots = queue.jobs.keys ∧
      recovery.peerIds = queue.jobs.values.map JobRequest.peerId)
    result.1 (s.jobs.filter fun queue => queue.isStalled now timeout)

/-- On a well-formed state `absorb_queue_frontier` does what it promises: the early return, which
would answer `None` after removing the current job, is never reached. -/
theorem WellFormed.absorbsAsSpecified (hs : s.WellFormed) (currentJobRoot : B256)
    (currentSlot : Nat) (absorbedQueueRoot : B256) :
    s.AbsorbsAsSpecified now currentJobRoot currentSlot absorbedQueueRoot := by
  unfold AbsorbsAsSpecified
  generalize hres : s.absorbQueueFrontier now currentJobRoot currentSlot absorbedQueueRoot = res
  obtain ⟨r, s'⟩ := res
  rcases absorbQueueFrontier_cases hres with ⟨rfl, rfl⟩ | ⟨ci, ai, current, absorbed, hne, hcur,
    habs, hcontains, hroot, hincomplete, ⟨hsize, -, -⟩ | ⟨hsize, rfl, merged, hjobs, hmroot,
      hcomplete, hmerged⟩⟩
  · rfl
  · exact absurd hsize (hs.size_ne_zero habs hincomplete)
  · dsimp only
    refine ⟨hroot, ?_, ci, ai, current, absorbed, merged, hne, hcur, habs, hroot, hcontains, hjobs,
      hmroot, hcomplete, fun root => ?_⟩
    · have hnodup : ((s.jobs.set ci merged).map JobQueue.startingRoot).Nodup := by
        rw [List.map_set_of_key_eq hcur hmroot]
        exact hs.roots_nodup
      rw [hjobs, ← hroot]
      exact List.key_not_mem_map_eraseIdx hnodup (by rw [List.getElem?_set_ne hne]; exact habs)
    · rw [hmerged, AssocMap.get?_extend, AssocMap.get?_erase]

/-- `recover_stalled_queues` reports the stalled queues and, roots being distinct, its removal
by root removes exactly them. -/
theorem WellFormed.recoversAsSpecified (hs : s.WellFormed) (timeout : Nat) :
    s.RecoversAsSpecified now timeout := by
  refine ⟨List.filter_congr fun queue hqueue => ?_,
    List.forall₂_map_left_iff.mpr (List.forall₂_same.mpr fun _ _ => ⟨rfl, rfl, rfl⟩)⟩
  show (!((s.jobs.filter (·.isStalled now timeout)).map JobQueue.startingRoot).contains
    queue.startingRoot) = !queue.isStalled now timeout
  congr 1
  cases hstalled : queue.isStalled now timeout with
  | true =>
    exact List.contains_iff_mem.mpr (List.mem_map_of_mem (List.mem_filter.mpr ⟨hqueue, hstalled⟩))
  | false =>
    refine Bool.eq_false_iff.mpr fun hmem => ?_
    obtain ⟨other, hother, hroot⟩ := List.mem_map.mp (List.contains_iff_mem.mp hmem)
    obtain ⟨hother, hotherStalled⟩ := List.mem_filter.mp hother
    rw [List.inj_on_of_nodup_map hs.roots_nodup hother hqueue hroot, hstalled] at hotherStalled
    exact Bool.false_ne_true hotherStalled

end BackfillState

theorem BackfillOp.run_wellFormed {s : BackfillState} (hs : s.WellFormed) (now : Nat) :
    ∀ op : BackfillOp, (op.run now s).WellFormed
  | .addNewJobQueue checkpoint job bypassSlotCheck =>
    BackfillState.addNewJobQueue_wellFormed hs checkpoint job bypassSlotCheck
  | .replaceJobWithNextJob lastRoot lastSlot newJob =>
    BackfillState.replaceJobWithNextJob_wellFormed hs lastRoot lastSlot newJob
  | .resetOrInitializeNextJob lastRoot lastSlot newJob =>
    BackfillState.resetOrInitializeNextJob_wellFormed hs lastRoot lastSlot newJob
  | .markJobQueueAsCompleteAt lastRoot completionRoot =>
    BackfillState.markJobQueueAsCompleteAt_wellFormed hs lastRoot completionRoot
  | .absorbQueueFrontier currentJobRoot currentSlot absorbedQueueRoot =>
    BackfillState.absorbQueueFrontier_wellFormed hs currentJobRoot currentSlot absorbedQueueRoot
  | .resetJobWithNewPeerId oldPeerId newPeerId =>
    BackfillState.resetJobWithNewPeerId_wellFormed hs oldPeerId newPeerId
  | .resetTimedOutJobs timeout => BackfillState.resetTimedOutJobs_wellFormed hs timeout
  | .recoverStalledQueues timeout => BackfillState.recoverStalledQueues_wellFormed hs timeout
  | .removeProcessedQueue startingRoot => BackfillState.removeProcessedQueue_wellFormed hs startingRoot
  | .markJobAsRequested root => BackfillState.markJobAsRequested_wellFormed hs root

theorem runBackfillOps_wellFormed :
    ∀ (ops : List (Nat × BackfillOp)) {s : BackfillState}, s.WellFormed → (runBackfillOps ops s).WellFormed
  | [], _, hs => hs
  | op :: ops, _, hs => runBackfillOps_wellFormed ops (BackfillOp.run_wellFormed hs op.1 op.2)

/-- From `BackfillState::default()`, whatever operations run: starting roots are distinct, a
complete queue has no jobs, and `absorb_queue_frontier` and `recover_stalled_queues` do what they
promise. -/
theorem backfill_queues_consistent (ops : List (Nat × BackfillOp)) :
    let s := runBackfillOps ops ⟨[]⟩
    (s.jobs.map JobQueue.startingRoot).Nodup ∧
    (∀ queue ∈ s.jobs, queue.isComplete = true → queue.jobs.size = 0) ∧
    (∀ now currentJobRoot currentSlot absorbedQueueRoot,
      s.AbsorbsAsSpecified now currentJobRoot currentSlot absorbedQueueRoot) ∧
    (∀ now timeout, s.RecoversAsSpecified now timeout) := by
  intro s
  have hs : s.WellFormed := runBackfillOps_wellFormed ops BackfillState.wellFormed_default
  exact ⟨hs.roots_nodup, fun queue hq => (hs.completeIffEmpty queue hq).mp,
    fun _ _ _ _ => hs.absorbsAsSpecified _ _ _, fun _ _ => hs.recoversAsSpecified _⟩

end Ream.Sync
