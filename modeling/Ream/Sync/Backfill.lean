import Ream.Lib.AssocMap
import Ream.Lib.Writes
import Ream.Consensus.Types

/-!
# Lean backfill queues

`BackfillState` of `sync/mod.rs` with `JobQueue` and `JobRequest`: a list of queues, each walking
back from its starting checkpoint with its jobs in a map from block root to request. The clock
`now` is a parameter of each operation that reads it.
-/

namespace Ream.Sync

open Ream.Consensus (B256 Checkpoint)

/-- `libp2p_identity::PeerId`, which the queues only compare. -/
structure PeerId where
  id : Nat
  deriving DecidableEq, Repr

structure JobRequest where
  peerId : PeerId
  root : B256
  hasBeenRequested : Bool
  timeRequested : Option Nat
  deriving DecidableEq, Repr

def JobRequest.new (peerId : PeerId) (root : B256) : JobRequest := ⟨peerId, root, false, none⟩

def JobRequest.markRequested (job : JobRequest) (now : Nat) : JobRequest :=
  { job with hasBeenRequested := true, timeRequested := some now }

structure JobQueue where
  startingRoot : B256
  startingSlot : Nat
  lastFetchedSlot : Nat
  lastProgressAt : Nat
  jobs : AssocMap B256 JobRequest
  isComplete : Bool
  completionRoot : Option B256

def JobQueue.new (now : Nat) (startingRoot : B256) (startingSlot lastFetchedSlot : Nat) : JobQueue :=
  ⟨startingRoot, startingSlot, lastFetchedSlot, now, AssocMap.empty, false, none⟩

def JobQueue.addJob (queue : JobQueue) (job : JobRequest) : JobQueue :=
  { queue with jobs := queue.jobs.insert job.root job }

structure BackfillState where
  jobs : List JobQueue

structure QueueRecovery where
  startingRoot : B256
  startingSlot : Nat
  jobRoots : List B256
  peerIds : List PeerId
  restartCheckpoint : Option Checkpoint

structure QueueAbsorption where
  absorbedStartingRoot : B256
  absorbedStartingSlot : Nat
  mergedJobCount : Nat
  deriving DecidableEq, Repr

/-- The body that `reset_or_initialize_next_job` and `replace_job_with_next_job` share once a
queue gives up its job at `last_root`: the next job takes its place and the fetched slot moves. -/
def JobQueue.replaceJob (now : Nat) (lastRoot : B256) (lastSlot : Nat) (newJob : JobRequest)
    (queue : JobQueue) : Option (JobQueue × JobRequest) :=
  (queue.jobs.get? lastRoot).map fun oldJob =>
    ({ queue with
        lastFetchedSlot := lastSlot
        lastProgressAt := now
        jobs := (queue.jobs.erase lastRoot).insert newJob.root newJob }, oldJob)

/-- The test of `reset_timed_out_jobs`. -/
def JobRequest.isTimedOut (now timeout : Nat) (job : JobRequest) : Bool :=
  job.hasBeenRequested &&
    match job.timeRequested with
    | some timeRequested => decide (timeout ≤ now - timeRequested)
    | none => false

/-- The test of `recover_stalled_queues`: not complete, not empty, and no progress for `timeout`. -/
def JobQueue.isStalled (now timeout : Nat) (queue : JobQueue) : Bool :=
  !(queue.isComplete || decide (queue.jobs.size = 0) || decide (now - queue.lastProgressAt < timeout))

/-- The report of a stalled queue: a queue that a complete queue at a later slot supersedes is not
restarted; another restarts from its first job, one slot below the last one fetched. -/
def JobQueue.recovery (completeSlots : List Nat) (queue : JobQueue) : QueueRecovery :=
  let supersededByCompleteQueue := completeSlots.any fun slot => queue.startingSlot ≤ slot
  let restartCheckpoint :=
    if supersededByCompleteQueue then none
    else queue.jobs.values.head?.map fun job => ⟨job.root, queue.lastFetchedSlot - 1⟩
  ⟨queue.startingRoot, queue.startingSlot, queue.jobs.keys, queue.jobs.values.map (·.peerId),
    restartCheckpoint⟩

namespace BackfillState

variable (now : Nat)

def removeProcessedQueue (startingRoot : B256) (s : BackfillState) : BackfillState :=
  ⟨s.jobs.filter fun queue => queue.startingRoot != startingRoot⟩

def markJobQueueAsCompleteAt (lastRoot : B256) (completionRoot : Option B256) (s : BackfillState) :
    BackfillState :=
  match s.jobs.updateFirst fun queue =>
      if queue.jobs.contains lastRoot then
        some ({ queue with
          isComplete := true
          completionRoot := completionRoot
          lastProgressAt := now
          jobs := AssocMap.empty }, ())
      else none with
  | some (jobs, ()) => ⟨jobs⟩
  | none => s

def absorbQueueFrontier (currentJobRoot : B256) (currentSlot : Nat) (absorbedQueueRoot : B256)
    (s : BackfillState) : Option QueueAbsorption × BackfillState :=
  match s.jobs.findIdx? (fun queue => queue.jobs.contains currentJobRoot),
      s.jobs.findIdx? (fun queue => queue.startingRoot == absorbedQueueRoot && !queue.isComplete) with
  | some currentIndex, some absorbedIndex =>
    if currentIndex = absorbedIndex then (none, s)
    else
      match s.jobs[currentIndex]?, s.jobs[absorbedIndex]? with
      | some current, some absorbed =>
        match current.jobs.get? currentJobRoot with
        | none => (none, s)
        | some _ =>
          -- the current job is removed before the absorbed queue is checked for jobs
          let removed := { current with jobs := current.jobs.erase currentJobRoot }
          if absorbed.jobs.size = 0 then (none, ⟨s.jobs.set currentIndex removed⟩)
          else
            let merged := { removed with
              lastFetchedSlot := min currentSlot absorbed.lastFetchedSlot
              lastProgressAt := now
              jobs := removed.jobs.extend absorbed.jobs }
            (some ⟨absorbed.startingRoot, absorbed.startingSlot, absorbed.jobs.size⟩,
              ⟨(s.jobs.set currentIndex merged).eraseIdx absorbedIndex⟩)
      | _, _ => (none, s)
  | _, _ => (none, s)

def addNewJobQueue (checkpoint : Checkpoint) (job : JobRequest) (bypassSlotCheck : Bool)
    (s : BackfillState) : Bool × BackfillState :=
  if !bypassSlotCheck && s.jobs.any (fun queue => checkpoint.slot ≤ queue.startingSlot) then
    (false, s)
  else if s.jobs.any (fun queue => queue.startingRoot == checkpoint.root) then (false, s)
  else
    (true, ⟨s.jobs ++ [(JobQueue.new now checkpoint.root checkpoint.slot checkpoint.slot).addJob job]⟩)

def resetOrInitializeNextJob (lastRoot : B256) (lastSlot : Nat) (newJob : JobRequest)
    (s : BackfillState) : Option JobRequest × BackfillState :=
  match s.jobs.updateFirst (JobQueue.replaceJob now lastRoot lastSlot newJob) with
  | some (jobs, oldJob) => (some oldJob, ⟨jobs⟩)
  | none => (none, s)

/-- As `reset_or_initialize_next_job`, but complete queues are passed over. -/
def replaceJobWithNextJob (lastRoot : B256) (lastSlot : Nat) (newJob : JobRequest)
    (s : BackfillState) : Option JobRequest × BackfillState :=
  match s.jobs.updateFirst fun queue =>
      if queue.isComplete then none else queue.replaceJob now lastRoot lastSlot newJob with
  | some (jobs, oldJob) => (some oldJob, ⟨jobs⟩)
  | none => (none, s)

def resetJobWithNewPeerId (oldPeerId newPeerId : PeerId) (s : BackfillState) :
    Option JobRequest × BackfillState :=
  match s.jobs.updateFirst fun queue =>
      (queue.jobs.entries.find? fun entry => entry.2.peerId == oldPeerId).map fun (root, oldJob) =>
        ({ queue with
            jobs := queue.jobs.mapValues fun jobRoot job =>
              if jobRoot = root then
                { job with peerId := newPeerId, hasBeenRequested := false, timeRequested := none }
              else job }, oldJob) with
  | some (jobs, oldJob) => (some oldJob, ⟨jobs⟩)
  | none => (none, s)

def resetTimedOutJobs (timeout : Nat) (s : BackfillState) : List JobRequest × BackfillState :=
  (s.jobs.flatMap fun queue => queue.jobs.values.filter (·.isTimedOut now timeout),
    ⟨s.jobs.map fun queue =>
      { queue with
        jobs := queue.jobs.mapValues fun _ job =>
          if job.isTimedOut now timeout then
            { job with hasBeenRequested := false, timeRequested := none }
          else job }⟩)

def markJobAsRequested (root : B256) (s : BackfillState) : BackfillState :=
  match s.jobs.updateFirst fun queue =>
      (queue.jobs.get? root).map fun _ =>
        ({ queue with
            jobs := queue.jobs.mapValues fun jobRoot job =>
              if jobRoot = root then job.markRequested now else job }, ()) with
  | some (jobs, ()) => ⟨jobs⟩
  | none => s

def recoverStalledQueues (timeout : Nat) (s : BackfillState) : List QueueRecovery × BackfillState :=
  let completeSlots := (s.jobs.filter (·.isComplete)).map (·.startingSlot)
  let stalled := s.jobs.filter (·.isStalled now timeout)
  let stalledRoots := stalled.map (·.startingRoot)
  (stalled.map (·.recovery completeSlots),
    ⟨s.jobs.filter fun queue => !stalledRoots.contains queue.startingRoot⟩)

end BackfillState

/-- The operations of `BackfillState` that write it. -/
inductive BackfillOp where
  | addNewJobQueue (checkpoint : Checkpoint) (job : JobRequest) (bypassSlotCheck : Bool)
  | replaceJobWithNextJob (lastRoot : B256) (lastSlot : Nat) (newJob : JobRequest)
  | resetOrInitializeNextJob (lastRoot : B256) (lastSlot : Nat) (newJob : JobRequest)
  | markJobQueueAsCompleteAt (lastRoot : B256) (completionRoot : Option B256)
  | absorbQueueFrontier (currentJobRoot : B256) (currentSlot : Nat) (absorbedQueueRoot : B256)
  | resetJobWithNewPeerId (oldPeerId newPeerId : PeerId)
  | resetTimedOutJobs (timeout : Nat)
  | recoverStalledQueues (timeout : Nat)
  | removeProcessedQueue (startingRoot : B256)
  | markJobAsRequested (root : B256)

/-- One operation at clock reading `now`, its answer dropped. -/
def BackfillOp.run (now : Nat) : BackfillOp → BackfillState → BackfillState
  | .addNewJobQueue checkpoint job bypassSlotCheck, s =>
    (s.addNewJobQueue now checkpoint job bypassSlotCheck).2
  | .replaceJobWithNextJob lastRoot lastSlot newJob, s =>
    (s.replaceJobWithNextJob now lastRoot lastSlot newJob).2
  | .resetOrInitializeNextJob lastRoot lastSlot newJob, s =>
    (s.resetOrInitializeNextJob now lastRoot lastSlot newJob).2
  | .markJobQueueAsCompleteAt lastRoot completionRoot, s =>
    s.markJobQueueAsCompleteAt now lastRoot completionRoot
  | .absorbQueueFrontier currentJobRoot currentSlot absorbedQueueRoot, s =>
    (s.absorbQueueFrontier now currentJobRoot currentSlot absorbedQueueRoot).2
  | .resetJobWithNewPeerId oldPeerId newPeerId, s => (s.resetJobWithNewPeerId oldPeerId newPeerId).2
  | .resetTimedOutJobs timeout, s => (s.resetTimedOutJobs now timeout).2
  | .recoverStalledQueues timeout, s => (s.recoverStalledQueues now timeout).2
  | .removeProcessedQueue startingRoot, s => s.removeProcessedQueue startingRoot
  | .markJobAsRequested root, s => s.markJobAsRequested now root

/-- A run of operations, each at its own clock reading. -/
def runBackfillOps (ops : List (Nat × BackfillOp)) (s : BackfillState) : BackfillState :=
  ops.foldl (fun s op => op.2.run op.1 s) s

end Ream.Sync
