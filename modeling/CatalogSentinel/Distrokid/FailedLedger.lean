import CatalogSentinel.Concurrent.Embed
import CatalogSentinel.Concurrent.Recording
import CatalogSentinel.Distrokid.Rules

/-!
The queues of all snapshots, which are one failed ledger. Attempts run within the
snapshot of their job; the sweeps of the ledger read whole queues, work within the
snapshot of each failed entry, and hand on what they counted. The workers of several
processes sweep the same queues, and clean them of expired jobs.
-/

namespace CatalogSentinel.Distrokid

open CatalogSentinel.Data CatalogSentinel.Concurrent

/-- Never delete the recovery ledger in a sweep where any convergence operation failed. -/
def canCleanExpiredPipelineJobs (stats : FailedRecoveryStats) : Bool := stats.failed = 0

namespace Ledger

/-- An await within one snapshot, a read of a queue's failed set, the return of a sweep's
counts to its caller, or the removal of old entries. -/
inductive QueueOp
  | within (snapshotId : String) (o : Op)
  | getFailed (queue : String) (first last : ℕ)
  | returned (stats : FailedRecoveryStats)
  | clean (queue : String) (graceMs limit : ℕ) (status : EntryStatus)

def QueueOp.Ans : QueueOp → Type
  | within _ o => o.Ans
  | getFailed .. => List Entry
  | returned _ => Unit
  | clean .. => Unit

def queues : Signature := ⟨QueueOp, QueueOp.Ans⟩

abbrev QueuePipe := Prog queues PipelineError

def await (o : QueueOp) : QueuePipe o.Ans := @Prog.call queues PipelineError o

/-- The awaits of one snapshot. -/
def within (snapshotId : String) : Embedding distrokid queues :=
  ⟨QueueOp.within snapshotId, fun _ a => a⟩

/-! ### The sweep -/

/-- What the sweep does about one failed entry, within its snapshot. -/
def recoverEntry (queue : String) (entry : Entry) (stats : FailedRecoveryStats) :
    QueuePipe FailedRecoveryStats :=
  (recoverFailedJob queue entry stats).embed (within entry.job.ref.snapshotId)

/-- Reconcile the queues' durable failed sets after a crash or dependency outage. -/
def recoverFailedDistroKidJobs (batchSize : Option ℕ) : QueuePipe FailedRecoveryStats :=
  let batchSize := max 1 (batchSize.getD 5000)
  recoverFailedQueues (fun queue => await (.getFailed queue 0 (batchSize - 1))) recoverEntry
    DK_QUEUE_NAMES ⟨0, 0, 0, 0, 0⟩

def cleanExpiredQueues : List String → QueuePipe Unit
  | [] => pure ()
  | queue :: queues => do
    (await (.clean queue (60 * 60000) 1000 .completed)).settle
    (await (.clean queue (24 * 60 * 60000) 1000 .failed)).settle
    cleanExpiredQueues queues

/-- `Promise.all` starts every removal, whether or not another one fails. -/
def cleanExpiredJobs : QueuePipe Unit := cleanExpiredQueues DK_QUEUE_NAMES

/-- The method of the workers: a sweep, whose counts go to the caller. -/
def recoverFailedJobs (batchSize : Option ℕ) : QueuePipe Unit := do
  let stats ← recoverFailedDistroKidJobs batchSize
  await (.returned stats)

/-- The sweep that the timer starts, and the removal that may follow it. -/
def triggerRecovery (batchSize : Option ℕ) : QueuePipe Unit :=
  Prog.settle do
    let stats ← recoverFailedDistroKidJobs batchSize
    await (.returned stats)
    if canCleanExpiredPipelineJobs stats then cleanExpiredJobs else pure ()

/-! ### The queues -/

/-- The checkpoints and queue entries of every snapshot, and the cooldowns that have been
recorded for each finalizer since its entry was added, newest first. -/
structure Queues where
  snapshots : String → SnapshotState
  cooldowns : JobId → List ℤ

namespace Queues

def put (s : Queues) (snapshotId : String) (v : SnapshotState) : Queues :=
  { s with snapshots := Function.update s.snapshots snapshotId v }

/-- The entry is removed, and what is known of its cooldowns with it. -/
def drop (s : Queues) (id : JobId) : Queues :=
  let v := s.snapshots id.snapshotId
  { snapshots := Function.update s.snapshots id.snapshotId
      { v with entries := v.entries.filter fun e => e.id ≠ id }
    cooldowns := Function.update s.cooldowns id [] }

def record (s : Queues) (id : JobId) (cooldownMs : ℤ) : Queues :=
  { s with cooldowns := Function.update s.cooldowns id (cooldownMs :: s.cooldowns id) }

end Queues

/-- How the environment settles an await, or what it does to the queues. -/
inductive QueueChoice
  | settled (c : Choice)
  | read (entries : List Entry)
  | cleaned (ids : List JobId)
  | moved (id : JobId) (status : EntryStatus) (attemptsMade : ℕ) (failedReason : Option String)
  | dropped (id : JobId)
  | queued (job : CatalogIndexJob)
  | lockExpired (snapshotId : String)

/-- The snapshot whose records an await within a snapshot is about: a job is queued by its
own id. -/
def home (snapshotId : String) : Op → String
  | .enqueue job _ => job.ref.snapshotId
  | _ => snapshotId

/-- The queue refuses to retry what has not failed, and to update what it does not hold. -/
def refuses (s : SnapshotState) : Op → Bool
  | .retryJob id => !s.entries.any fun e => e.id = id ∧ e.status = .failed
  | .updateProgress id _ => !s.entries.any fun e => e.id = id
  | _ => false

def isLost : Choice → Bool
  | .lost _ => true
  | _ => false

def isFinalizer (id : JobId) : Bool := id.queue = "distrokid-finalize"

/-- The cooldown of an update that takes effect on a finalizer. -/
def noted (s : Queues) : Op → Choice → Queues
  | .updateProgress id progress, c =>
    if isFinalizer id ∧ isLost c = false
    then s.record id (finalizeCooldownMs progress.finalizeRecoveryAttempts) else s
  | _, _ => s

/-- What a process does for the queues: any work of one snapshot's pipeline, an attempt of
an entry among it; the workers' own method; or the timer of one worker process. -/
inductive Activity
  | deliver (work : Work)
  | recoverFailedJobs
  | triggerRecovery (worker : ℕ)
  deriving DecidableEq

structure Process where
  pid : ℕ
  activity : Activity
  deriving DecidableEq

def Process.delivery (p : Process) : Delivery :=
  ⟨p.pid, match p.activity with
    | .deliver work => work
    | _ => .sweepFailed⟩

def snapshotOf : Work → String
  | .stage job => job.ref.snapshotId
  | .terminalize job .. => job.ref.snapshotId
  | .cancel job _ => job.snapshotId
  | .recover job => job.snapshotId
  | .checkpoint _ job _ => job.snapshotId
  | .attempt entry => entry.job.ref.snapshotId
  | .sweepFailed => ""

/-- Attempts are of entries that the queues hold. Sweeps are activities of their own. -/
def delivers (s : Queues) : Work → Bool
  | .attempt entry => entry ∈ (s.snapshots entry.job.ref.snapshotId).entries
  | .sweepFailed => false
  | _ => true

def performWithin (env : Env) (p : Process) (s : Queues) (snapshotId : String) (o : Op)
    (c : Choice) : Option (Except PipelineError o.Ans × Queues) :=
  let key := home snapshotId o
  if refuses (s.snapshots key) o ∧ isLost c = false then none
  else (Distrokid.perform env p.delivery (s.snapshots key) o c).map fun r =>
    (r.1, noted (s.put key r.2) o c)

/-- The entry has failed in this queue. -/
def failedIn (s : Queues) (queue : String) (entry : Entry) : Bool :=
  entry ∈ (s.snapshots entry.job.ref.snapshotId).entries ∧ entry.status = .failed ∧
    entry.job.queue = queue

def readFailed (s : Queues) (queue : String) (first last : ℕ) :
    QueueChoice → Option (Except PipelineError (List Entry))
  | .read entries =>
    if entries.length ≤ last + 1 - first ∧ entries.all (failedIn s queue)
    then some (.ok entries) else none
  | .settled (.lost e) => some (.error e)
  | _ => none

/-- The queue holds the id under no other status. -/
def cleanable (s : Queues) (queue : String) (status : EntryStatus) (id : JobId) : Bool :=
  id.queue = queue ∧
    (s.snapshots id.snapshotId).entries.all fun e => e.id ≠ id ∨ e.status = status

/-- Which of the old entries are removed is the queue's choice: it keeps their times. -/
def clean (s : Queues) (queue : String) (limit : ℕ) (status : EntryStatus) :
    QueueChoice → Option (Except PipelineError Unit × Queues)
  | .cleaned ids =>
    if ids.length ≤ limit ∧ ids.all (cleanable s queue status)
    then some (.ok (), ids.foldl Queues.drop s) else none
  | .settled (.lost e) => some (.error e, s)
  | _ => none

def perform (env : Env) (p : Process) (s : Queues) :
    (o : QueueOp) → QueueChoice → Option (Except PipelineError o.Ans × Queues)
  | .within snapshotId o, .settled c => performWithin env p s snapshotId o c
  | .getFailed queue first last, c => (readFailed s queue first last c).map fun r => (r, s)
  | .returned _, .settled .done => some (.ok (), s)
  | .clean queue _ limit status, c => clean s queue limit status c
  | _, _ => none

/-- What the queue does to the entry of an id: hand it out, complete it, fail it, put it back. -/
def move (s : Queues) (id : JobId) (status : EntryStatus) (attemptsMade : ℕ)
    (failedReason : Option String) : Queues :=
  let v := s.snapshots id.snapshotId
  s.put id.snapshotId { v with
    entries := updateEntry v.entries id fun e =>
      { e with status := status, attemptsMade := attemptsMade, failedReason := failedReason } }

/-- The queue moves entries on as it likes, drops those it retains no longer, and takes in
new snapshots. -/
def disturb (s : Queues) : QueueChoice → Option Queues
  | .moved id status attemptsMade failedReason => some (move s id status attemptsMade failedReason)
  | .dropped id => some (s.drop id)
  | .queued job =>
    let v := s.snapshots job.snapshotId
    some (s.put job.snapshotId { v with entries := addEntry v.entries (.index job) })
  | .lockExpired snapshotId =>
    some (s.put snapshotId { s.snapshots snapshotId with lock := none })
  | _ => none

def code (env : Env) (batchSize : Option ℕ) (p : Process) : QueuePipe Unit :=
  match p.activity with
  | .deliver work => (Distrokid.code env ⟨p.pid, work⟩).embed (within (snapshotOf work))
  | .recoverFailedJobs => recoverFailedJobs batchSize
  | .triggerRecovery _ => triggerRecovery batchSize

/-- One worker process has one timed sweep in flight. -/
def starts (s : Queues) (running : List Process) (p : Process) : Bool :=
  match p.activity with
  | .deliver work => delivers s work
  | .recoverFailedJobs => true
  | .triggerRecovery worker => running.all fun q => q.activity ≠ .triggerRecovery worker

def queueSystem (env : Env) (batchSize : Option ℕ) :
    System queues PipelineError Queues Process QueueChoice where
  perform := perform env
  code := code env batchSize
  start s running p := if starts s running p then some s else none
  settle s _ _ := s
  crash s _ := s
  env := disturb

end Ledger

end CatalogSentinel.Distrokid
