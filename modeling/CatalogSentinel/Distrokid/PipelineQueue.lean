import CatalogSentinel.Distrokid.Pipeline

/-!
What runs the stages: one attempt of a queue entry, which terminalizes an
exhausted stage inside the processor; the sweep of the failed ledger; and the
sweep of the durable recovery envelopes.
-/

namespace CatalogSentinel.Distrokid

open CatalogSentinel.Data CatalogSentinel.Concurrent

variable (env : Env)

/-- The stage processors, without their results. -/
def processor (pid : ℕ) : StageJob → Pipe Unit
  | .index job => discard (extractDistroKidCatalogIndex env job)
  | .plan job => discard (planDistroKidReleaseChunks env job)
  | .chunk job => discard (extractDistroKidReleaseChunk env pid job)
  | .retry job => discard (retryFailedDistroKidReleases env job)
  | .reconcile job => discard (reconcileDistroKidSnapshot env job)
  | .finalize job => finalizeDistroKidSnapshot job

def markTerminalFailureHandled (entry : Entry) (stage : String) : Pipe Unit := do
  let handledAt ← deps.nowIso
  await (.updateProgress entry.id { entry.progress with
    terminalFailureHandled := true
    terminalFailureStage := some stage
    terminalFailureHandledAt := some handledAt })

def isFatal : PipelineError → Bool
  | .deadlineExceeded _ => true
  | .invalidDeadline _ => true
  | _ => false

def isShutdown : PipelineError → Bool
  | .shutdown => true
  | _ => false

/-- Project an exhausted or fatally failed stage to its terminal failure, and throw its
error on. -/
def terminalizeAttempt (entry : Entry) (stageError : PipelineError) : Pipe Unit := do
  let winning ← (terminalizeDistroKidFailure entry.job entry.job.queue stageError).attempt
  match winning with
  | .error _ => throw (.other
      s!"exhausted pipeline stage {entry.job.queue} could not record its terminal failure")
  | .ok _ => do
    (markTerminalFailureHandled entry entry.job.queue).settle
    throw stageError

/-- Run one attempt of a queue entry. -/
def runPipelineStage (pid : ℕ) (entry : Entry) : Pipe Unit := do
  if ← (if entry.job.isFinalize then pure false else resumeTerminalFinalizer entry.job.ref)
  then pure ()
  else (processor env pid entry.job).handle fun stageError =>
    if isShutdown stageError then throw stageError
    else if !entry.job.isFinalize &&
        (isFatal stageError || decide (entry.attemptsMade + 1 ≥ DISTROKID_MAX_ATTEMPTS)) then
      terminalizeAttempt entry stageError
    else throw stageError

/-! ### The failed ledger -/

structure FailedRecoveryStats where
  terminalized : ℕ
  finalizersRetried : ℕ
  shutdownJobsRetried : ℕ
  skipped : ℕ
  failed : ℕ

/-- `job.failedReason?.includes(text)` -/
def reasonIncludes (failedReason : Option String) (text : String) : Bool :=
  failedReason.any fun reason => reason.toList.tails.any text.toList.isPrefixOf

def wasShutdown (entry : Entry) : Bool :=
  reasonIncludes entry.failedReason "PIPELINE_SHUTDOWN_RETRY"

def finalizeCooldownMs (recoveryAttempt : ℕ) : ℤ :=
  min (15 * 60000) (30000 * 2 ^ min (recoveryAttempt - 1) 5)

/-- Exhausted finalizers go back to waiting, under a durable cooldown. -/
def retryFinalizer (entry : Entry) (stats : FailedRecoveryStats) : Pipe FailedRecoveryStats := do
  let now ← deps.now
  if entry.progress.finalizeRecoveryNotBefore > now then
    pure { stats with skipped := stats.skipped + 1 }
  else do
    let recoveryAttempt := entry.progress.finalizeRecoveryAttempts + 1
    let now' ← deps.now
    await (.updateProgress entry.id { entry.progress with
      finalizeRecoveryAttempts := recoveryAttempt
      finalizeRecoveryNotBefore := now' + finalizeCooldownMs recoveryAttempt })
    await (.retryJob entry.id)
    pure { stats with finalizersRetried := stats.finalizersRetried + 1 }

/-- What the sweep does about one failed entry. -/
def recoverFailedJob (queue : String) (entry : Entry) (stats : FailedRecoveryStats) :
    Pipe FailedRecoveryStats :=
  if wasShutdown entry then do
    await (.retryJob entry.id)
    pure { stats with shutdownJobsRetried := stats.shutdownJobsRetried + 1 }
  else if queue = "distrokid-finalize" then retryFinalizer entry stats
  else if entry.progress.terminalFailureHandled then
    pure { stats with skipped := stats.skipped + 1 }
  else do
    discard (terminalizeDistroKidFailure entry.job queue
      (sanitizeRecoveredDistroKidFailure queue entry.failedReason))
    markTerminalFailureHandled entry queue
    pure { stats with terminalized := stats.terminalized + 1 }

section Sweep

-- How a sweep reads a queue's failed set, and what it does about one entry of it.
variable {S : Signature} (getFailed : String → Prog S PipelineError (List Entry))
variable (recoverJob :
  String → Entry → FailedRecoveryStats → Prog S PipelineError FailedRecoveryStats)

def recoverFailedEntries (queue : String) :
    List Entry → FailedRecoveryStats → Prog S PipelineError FailedRecoveryStats
  | [], stats => pure stats
  | entry :: entries, stats => do
    let stats ← (recoverJob queue entry stats).handle fun _ =>
      pure { stats with failed := stats.failed + 1 }
    recoverFailedEntries queue entries stats

def recoverFailedQueues :
    List String → FailedRecoveryStats → Prog S PipelineError FailedRecoveryStats
  | [], stats => pure stats
  | queue :: queues, stats => do
    let jobs ← (getFailed queue).attempt
    let stats ← (match jobs with
      | .error _ => pure { stats with failed := stats.failed + 1 }
      | .ok entries => recoverFailedEntries recoverJob queue entries stats)
    recoverFailedQueues queues stats

end Sweep

/-- Reconcile the queues' durable failed sets after a crash or dependency outage. -/
def recoverFailedDistroKidJobs : Pipe FailedRecoveryStats :=
  recoverFailedQueues (fun queue => await (.getFailed queue)) recoverFailedJob DK_QUEUE_NAMES
    ⟨0, 0, 0, 0, 0⟩

/-! ### The durable recovery envelopes -/

/-- What the sweep counts an envelope as. -/
inductive RecoveryStep
  | finalizerRequeued | cancelledReleased | expiredTerminalized | indexRequeued | checkpointResumed
  deriving DecidableEq, Repr

/-- Resume one snapshot whose queue entries may be lost: the body of the loop. -/
def recoverSnapshot (job : CatalogIndexJob) : Pipe RecoveryStep := do
  store.bindSnapshot job.binding
  match ← store.getTerminal with
  | some (.terminal finalizeJob ..) => do
    deps.enqueue (.finalize finalizeJob) 0
    pure .finalizerRequeued
  | some (.cancelled ..) => do
    await (.releaseCancelled job)
    await (.clearRecovery job)
    pure .cancelledReleased
  | none =>
    match (job.deadlineAt.bind env.dateParse), (job.sessionExpiresAt.bind env.dateParse) with
    | some deadline, some expiry => do
      let now ← deps.now
      if now ≥ deadline then expire
      else do
        let now' ← deps.now
        if now' ≥ expiry then expire
        else do
          let index ← store.getIndex
          let progress ← store.getProgress
          -- An empty index with a progress row is a fully read, empty catalogue.
          if index = [] ∧ progress = none then do
            deps.enqueue (.index job) 0
            pure .indexRequeued
          else do
            discard (planDistroKidReleaseChunks env { toSnapshotRef := job.toSnapshotRef, chunkSize := none })
            pure .checkpointResumed
    | _, _ => expire
where
  expire : Pipe RecoveryStep := do
    discard (terminalizeDistroKidFailure (.index job) "durable-recovery"
      (.deadlineExceeded "durable DistroKid recovery envelope has exhausted its Steel lease"))
    pure .expiredTerminalized

/-- The sweep's `try`/`catch` around one envelope. -/
def recoverDurableDistroKidSnapshots (job : CatalogIndexJob) : Pipe Unit :=
  (discard (recoverSnapshot env job)).settle

/-! ### Processes -/

/-- The code of every process of a snapshot. -/
def code (d : Delivery) : Pipe Unit :=
  match d.work with
  | .stage job => processor env d.pid job
  | .terminalize job stage error => discard (terminalizeDistroKidFailure job stage error)
  | .cancel job reason => discard (cancelDistroKidSnapshot job reason)
  | .recover job => recoverDurableDistroKidSnapshots env job
  | .checkpoint delivery job batch => onCheckpoint env delivery job batch
  | .attempt entry => runPipelineStage env d.pid entry
  | .sweepFailed => discard recoverFailedDistroKidJobs

end CatalogSentinel.Distrokid
