import CatalogSentinel.Distrokid.Store

/-!
The stages of the extraction pipeline, from the catalogue index to the finalizer,
await by await. Every stage binds the snapshot and looks for the tombstone first;
a stage that works under the account lock looks again before each of its writes.
-/

namespace CatalogSentinel.Distrokid

open CatalogSentinel.Data CatalogSentinel.Concurrent

/-! ### The injected operations -/

namespace store

def bindSnapshot (b : SnapshotCheckpointBinding) : Pipe Unit := await (.bindSnapshot b)
def putIndex (releases : List ReleaseRefRecord) : Pipe Unit := await (.putIndex releases)
def getIndex : Pipe (List ReleaseRefRecord) := await .getIndex
def putOutcomes (os : List ReleaseExtractionOutcome) : Pipe Unit := await (.putOutcomes os)
def getOutcomes : Pipe (List ReleaseExtractionOutcome) := await .getOutcomes
def putProgress (p : SnapshotProgress) : Pipe Unit := await (.putProgress p)
def getProgress : Pipe (Option SnapshotProgress) := await .getProgress
def markChunkComplete (pass i : ℕ) : Pipe Unit := await (.markChunkComplete pass i)
def completedChunks (pass : ℕ) : Pipe (List ℕ) := await (.completedChunks pass)
def putPassPlan (pass : ℕ) (chunks : List (List String)) : Pipe Unit :=
  await (.putPassPlan pass chunks)
def getPassPlan (pass : ℕ) : Pipe (Option (List (List String))) := await (.getPassPlan pass)
def claimTerminal (t : SnapshotTerminalTombstone) : Pipe SnapshotTerminalTombstone :=
  await (.claimTerminal t)
def getTerminal : Pipe (Option SnapshotTerminalTombstone) := await .getTerminal

end store

namespace deps

def now : Pipe ℤ := await .now
def nowIso : Pipe String := await .nowIso
def random (below : ℕ) : Pipe ℕ := await (.random below)
/-- The reason of `controller.signal`, once it is aborted. -/
def aborted : Pipe (Option PipelineError) := await .aborted
def readCatalogIndex (job : CatalogIndexJob) : Pipe (List ReleaseRefRecord) :=
  await (.readCatalogIndex job)
def acquireLock : Pipe Bool := await .acquireLock
def releaseLock : Pipe Unit := await .releaseLock
def openExisting : Pipe (List ReleaseExtractionOutcome) := await .openExisting
def converge (delivery : ℕ) (batch : List ReleaseExtractionOutcome) :
    Pipe (List ReleaseExtractionOutcome) := await (.converge delivery batch)
def extractChunk (job : ReleaseChunkJob) (refs : List ReleaseRefRecord) : Pipe Unit :=
  await (.extractChunk job refs)
def extracted (job : ReleaseChunkJob) (refs : List ReleaseRefRecord) :
    Pipe (List ReleaseExtractionOutcome) := await (.extracted job refs)
def enqueue (job : StageJob) (delayMs : ℕ) : Pipe Unit := await (.enqueue job delayMs)
def persistSnapshot (job : FinalizeJob) (os : List ReleaseExtractionOutcome) : Pipe Unit :=
  await (.persistSnapshot job os)
def logAlreadyDurable (job : FinalizeJob) : Pipe Unit := await (.logAlreadyDurable job)
def releaseSession (job : FinalizeJob) : Pipe Unit := await (.releaseSession job)
def terminalFailure (job : SnapshotRef) (stage : String) (error : PipelineError) : Pipe Unit :=
  await (.terminalFailure job stage error)
def diverge : Pipe Unit := await .diverge

end deps

/-! ### Checks -/

def reconcileCheckpoint (index : List ReleaseRefRecord) (outcomes : List ReleaseExtractionOutcome) :
    ExtractionCompleteness × SnapshotStatus :=
  reconcile
    { expectedReleaseIds := index.map (·.releaseId)
      outcomes := outcomes
      expectedTracks :=
        if index ≠ [] ∧ index.all (·.expectedTrackCount.isSome)
        then some (index.map fun r => r.expectedTrackCount.getD 0).sum else none }

variable (env : Env)

def bindCheckpoint (job : SnapshotRef) : Pipe Unit := store.bindSnapshot job.binding

def deadlineMs (job : SnapshotRef) : Except PipelineError (Option ℤ) :=
  match job.deadlineAt.filter (· ≠ "") with
  | none =>
    if env.requireDeadline then
      .error (.invalidDeadline "production pipeline job has no wall-clock deadline")
    else .ok none
  | some deadlineAt =>
    match env.dateParse deadlineAt with
    | none => .error (.invalidDeadline "pipeline deadline is invalid")
    | some deadline =>
      match job.sessionExpiresAt.filter (· ≠ "") with
      | some sessionExpiresAt =>
        match env.dateParse sessionExpiresAt with
        | none => .error (.invalidDeadline "Steel session expiry is invalid")
        | some sessionExpiry =>
          if deadline > sessionExpiry - DISTROKID_SESSION_CLEANUP_GRACE_MS then
            .error (.invalidDeadline
              "pipeline deadline does not leave the required Steel cleanup lease")
          else .ok (some deadline)
      | none =>
        if env.requireDeadline then
          .error (.invalidDeadline "production pipeline job has no actual Steel session expiry")
        else .ok (some deadline)

def assertPipelineDeadline (job : SnapshotRef) : Pipe Unit :=
  match deadlineMs env job with
  | .error e => throw e
  | .ok none => pure ()
  | .ok (some deadline) => do
    let now ← deps.now
    if now ≥ deadline then throw .deadline else pure ()

/-- Re-enqueue the immutable winning finalizer after a crash between verdict and
queue add. -/
def resumeTerminalFinalizer (job : SnapshotRef) : Pipe Bool := do
  bindCheckpoint job
  match ← store.getTerminal with
  | none => pure false
  | some (.cancelled ..) => pure true
  | some (.terminal finalizeJob ..) => do
    deps.enqueue (.finalize finalizeJob) 0
    pure true

def assertSnapshotCanContinue (job : SnapshotRef) : Pipe Unit := do
  assertPipelineDeadline env job
  match ← store.getTerminal with
  | none => pure ()
  | some tombstone => throw (.snapshotStopped tombstone)

def assertNotAborted : Pipe Unit := do
  match ← deps.aborted with
  | none => pure ()
  | some reason => throw reason

/-- `control.assertCanContinue()` -/
def assertCanContinue (job : SnapshotRef) : Pipe Unit := do
  assertNotAborted
  assertSnapshotCanContinue env job
  assertNotAborted

/-- The lock is released when the work has settled, also when an abort won the race
against it. An invalid deadline is thrown before the `try`. -/
def underAccountLock {α : Type} (job : SnapshotRef) (work : Pipe α) : Pipe α :=
  match deadlineMs env job with
  | .error e => throw e
  | .ok _ => Prog.ensure (do
      assertCanContinue env job
      let settled ← work.attempt
      assertNotAborted
      Prog.ofExcept settled) deps.releaseLock.settle

/-- `catch (error) { if (error instanceof SnapshotStoppedError) return stopped; throw error }` -/
def unlessStopped {α : Type} (stopped : α) (p : Pipe α) : Pipe α :=
  p.handle fun e => if e.isStopped then pure stopped else throw e

/-- How a stage opens: a decided snapshot only gets its finalizer re-enqueued. -/
def unlessTerminal {α : Type} (job : SnapshotRef) (stopped : α) (rest : Pipe α) : Pipe α := do
  if ← resumeTerminalFinalizer job then pure stopped else do
    assertPipelineDeadline env job
    rest

/-- Work under the account lock, or `busy` when another worker holds it. -/
def withAccountLock {α : Type} (job : SnapshotRef) (stopped : α) (busy work : Pipe α) :
    Pipe α := do
  if ← deps.acquireLock then unlessStopped stopped (underAccountLock env job work) else busy

/-! ### The catalogue index and the plan -/

structure IndexResult where
  expected : ℕ
  stopped : Bool

/-- The progress row of a snapshot whose catalogue index has been read. -/
def plannedProgress (job : SnapshotRef) (expectedReleases : ℕ) (startedAt updatedAt : String) :
    SnapshotProgress :=
  { snapshotId := job.snapshotId, tenantId := job.tenantId, connectionId := job.connectionId
    distributor := job.distributor, status := .planned, expectedReleases := expectedReleases
    completedReleases := 0, failedReleases := 0, chunkCount := 0, completedChunks := []
    startedAt := startedAt, updatedAt := updatedAt }

/-- What the index stage does under the account lock. -/
def catalogIndexWork (job : CatalogIndexJob) : Pipe IndexResult := do
  let releases ← deps.readCatalogIndex job
  assertCanContinue env job.toSnapshotRef
  store.putIndex releases
  let startedAt ← deps.nowIso
  let updatedAt ← deps.nowIso
  assertCanContinue env job.toSnapshotRef
  store.putProgress (plannedProgress job.toSnapshotRef releases.length startedAt updatedAt)
  assertCanContinue env job.toSnapshotRef
  deps.enqueue (.plan { toSnapshotRef := refOf job.toSnapshotRef, chunkSize := none }) 0
  pure ⟨releases.length, false⟩

/-- Read the catalog index, the authoritative expectation for completeness. -/
def extractDistroKidCatalogIndex (job : CatalogIndexJob) : Pipe IndexResult :=
  unlessTerminal env job.toSnapshotRef ⟨0, true⟩ <|
    withAccountLock env job.toSnapshotRef ⟨0, true⟩ (throw .accountLockUnavailable)
      (catalogIndexWork env job)

/-- A loop that never ends keeps its stage from ever returning. -/
def orDiverge {α : Type} : Option α → Pipe α
  | some a => pure a
  | none => do
    deps.diverge
    throw (.other "unreachable")

/-- The durable plan of a pass, cut from the ids on the pass's first planning. -/
def passPlan (job : SnapshotRef) (pass : ℕ) (ids : List String) (size : ChunkSize) :
    Pipe (List (List String)) := do
  match ← store.getPassPlan pass with
  | some plan => pure plan
  | none => do
    let plan ← orDiverge (chunkReleases ids size)
    assertSnapshotCanContinue env job
    store.putPassPlan pass plan
    pure plan

/-- `plan.findIndex((_chunk, chunkIndex) => !done.has(chunkIndex))` -/
def nextChunk (plan : List (List String)) (done : List ℕ) : Option ℕ :=
  (List.range plan.length).find? fun i => i ∉ done

def chunkJob (job : SnapshotRef) (pass : ℕ) (plan : List (List String)) (i : ℕ) :
    ReleaseChunkJob :=
  { toSnapshotRef := refOf job, chunkIndex := i, releaseIds := plan.getD i [], pass := some pass
    passChunkCount := some plan.length, deferAttempt := none }

def reconcileJob (job : SnapshotRef) (pass : ℕ) : ReconcileJob :=
  { toSnapshotRef := refOf job, pass := some pass }

structure PlanResult where
  chunks : ℕ
  skipped : ℕ
  stopped : Bool

/-- The plan stage's rewrite of the progress row, when there is one. -/
def markRunning (job : SnapshotRef) (chunkCount : ℕ) : Pipe Unit := do
  match ← store.getProgress with
  | none => pure ()
  | some progress => do
    assertSnapshotCanContinue env job
    let updatedAt ← deps.nowIso
    store.putProgress
      { progress with status := .running, chunkCount := chunkCount, updatedAt := updatedAt }

/-- The plan stage's hop: the first chunk that is not complete, or the reconciliation
of an empty or fully resumed pass. -/
def chainPlanned (job : SnapshotRef) (chunks : List (List String)) (done : List ℕ) : Pipe Unit :=
  match nextChunk chunks done with
  | some next => do
    assertSnapshotCanContinue env job
    deps.enqueue (.chunk (chunkJob job INITIAL_PASS chunks next)) 0
  | none => deps.enqueue (.reconcile (reconcileJob job INITIAL_PASS)) 0

def planChunks (job : PlanChunksJob) : Pipe PlanResult := do
  let index ← store.getIndex
  let done ← store.completedChunks INITIAL_PASS
  let chunks ← passPlan env job.toSnapshotRef INITIAL_PASS (index.map (·.releaseId))
    ((job.chunkSize.map fun n => ChunkSize.finite n).getD env.chunkSize)
  markRunning env job.toSnapshotRef chunks.length
  chainPlanned env job.toSnapshotRef chunks done
  pure ⟨chunks.length, done.length, false⟩

/-- Split into release chunks. Chunks that are already complete are skipped. -/
def planDistroKidReleaseChunks (job : PlanChunksJob) : Pipe PlanResult :=
  unlessTerminal env job.toSnapshotRef ⟨0, 0, true⟩ (planChunks env job)

/-! ### One chunk -/

structure ChunkResult where
  completed : ℕ
  failed : ℕ
  deferred : Bool
  stopped : Bool

/-- `job.releaseIds.map((id) => byId.get(id)).filter(…)` -/
def refsOf (index : List ReleaseRefRecord) (releaseIds : List String) : List ReleaseRefRecord :=
  releaseIds.filterMap fun id =>
    get? ReleaseRefRecord.releaseId id (putAll ReleaseRefRecord.releaseId [] index)

/-- A fully complete release is an idempotent no-op; one with extractor-owned gaps is not. -/
def isTodo (existing : List ReleaseExtractionOutcome) (ref : ReleaseRefRecord) : Bool :=
  ((outcomeOf ref.releaseId existing).bind (·.release?)).all releaseNeedsMetadataRetry

/-- The account lock is held elsewhere: requeue under a fresh id, or give up. -/
def deferChunk (job : ReleaseChunkJob) : Pipe ChunkResult := do
  let deferAttempt := job.deferAttempt.getD 0 + 1
  if (job.deadlineAt.filter (· ≠ "")).isNone ∧ deferAttempt > MAX_CHUNK_DEFERS then
    throw (.other s!"chunk {job.chunkIndex} could not acquire the account lock after {MAX_CHUNK_DEFERS} attempts")
  else do
    let delayMs ← deps.random (backoffCeiling deferAttempt 500 30000)
    match deadlineMs env job.toSnapshotRef with
    | .error e => throw e
    | .ok none => do
      deps.enqueue (.chunk { job with deferAttempt := some deferAttempt }) delayMs
      pure ⟨0, 0, true, false⟩
    | .ok (some deadline) => do
      let now ← deps.now
      if now + delayMs ≥ deadline then
        throw (.deadlineExceeded
          "account lock cannot be reacquired before the catalogue-read deadline")
      else do
        deps.enqueue (.chunk { job with deferAttempt := some deferAttempt }) delayMs
        pure ⟨0, 0, true, false⟩

/-- `onCheckpoint(batch)` of the chunk delivery `delivery`. -/
def onCheckpoint (delivery : ℕ) (job : ReleaseChunkJob) (batch : List ReleaseExtractionOutcome) :
    Pipe Unit := do
  assertCanContinue env job.toSnapshotRef
  let outcomes ← deps.converge delivery batch
  store.putOutcomes outcomes

/-- The chunk stage's rewrite of the progress row, when there is one. -/
def recordChunkProgress (job : ReleaseChunkJob) (doneChunks : List ℕ)
    (progress : Option SnapshotProgress) : Pipe Unit :=
  match progress with
  | none => pure ()
  | some progress => do
    let all ← store.getOutcomes
    assertCanContinue env job.toSnapshotRef
    let updatedAt ← deps.nowIso
    store.putProgress
      { progress with
        completedReleases := all.countP (·.isCompleted)
        failedReleases := all.countP (·.isFailed)
        completedChunks := doneChunks
        updatedAt := updatedAt }

/-- Chain the next chunk of the pass, or its reconciliation. Without a durable plan,
count the chunks that were fanned out before plans existed. -/
def chainNext (job : ReleaseChunkJob) (pass : ℕ) (doneChunks : List ℕ)
    (progress : Option SnapshotProgress) : Pipe Unit := do
  match ← store.getPassPlan pass with
  | some plan => do
    assertCanContinue env job.toSnapshotRef
    match nextChunk plan doneChunks with
    | some next =>
      deps.enqueue (.chunk (chunkJob job.toSnapshotRef pass plan next))
        DISTROKID_REQUEST_MIN_DELAY_MS
    | none => deps.enqueue (.reconcile (reconcileJob job.toSnapshotRef pass)) 0
  | none =>
    let expectedForPass := (job.passChunkCount.or (progress.map (·.chunkCount))).getD 0
    if expectedForPass > 0 ∧ doneChunks.length ≥ expectedForPass then do
      assertCanContinue env job.toSnapshotRef
      deps.enqueue (.reconcile (reconcileJob job.toSnapshotRef pass)) 0
    else pure ()

/-- What the chunk stage does under the account lock. -/
def chunkWork (pid : ℕ) (job : ReleaseChunkJob) : Pipe ChunkResult := do
  let index ← store.getIndex
  let existing ← deps.openExisting
  let todo := (refsOf index job.releaseIds).filter (isTodo existing)
  deps.extractChunk job todo
  let extractedOutcomes ← deps.extracted job todo
  assertCanContinue env job.toSnapshotRef
  let outcomes ← deps.converge pid extractedOutcomes
  store.putOutcomes outcomes
  assertCanContinue env job.toSnapshotRef
  store.markChunkComplete (job.pass.getD INITIAL_PASS) job.chunkIndex
  let doneChunks ← store.completedChunks (job.pass.getD INITIAL_PASS)
  let progress ← store.getProgress
  recordChunkProgress env job doneChunks progress
  chainNext env job (job.pass.getD INITIAL_PASS) doneChunks progress
  pure ⟨outcomes.countP (·.isCompleted), outcomes.countP (·.isFailed), false, false⟩

/-- Extract one chunk under the per-connection lock. -/
def extractDistroKidReleaseChunk (pid : ℕ) (job : ReleaseChunkJob) : Pipe ChunkResult :=
  unlessTerminal env job.toSnapshotRef ⟨0, 0, false, true⟩ <|
    withAccountLock env job.toSnapshotRef ⟨0, 0, false, true⟩ (deferChunk env job)
      (chunkWork env pid job)

/-! ### Retry, reconciliation and the verdict -/

structure RetryResult where
  retried : ℕ
  stopped : Bool

/-- The retry stage's hop. -/
def chainRetried (job : SnapshotRef) (pass : ℕ) (plan : List (List String)) (done : List ℕ) :
    Pipe Unit := do
  assertSnapshotCanContinue env job
  match nextChunk plan done with
  | some next => deps.enqueue (.chunk (chunkJob job pass plan next)) 0
  | none => deps.enqueue (.reconcile (reconcileJob job pass)) 0

def retryFailed (job : RetryFailedJob) : Pipe RetryResult := do
  let index ← store.getIndex
  let outcomes ← store.getOutcomes
  let ids := retryableReleaseIds ⟨index.map (·.releaseId), outcomes, none⟩
  if ids.length = 0 ∨ job.attempt > DISTROKID_MAX_ATTEMPTS then do
    assertSnapshotCanContinue env job.toSnapshotRef
    deps.enqueue (.reconcile (reconcileJob job.toSnapshotRef job.attempt)) 0
    pure ⟨0, false⟩
  else do
    let plan ← passPlan env job.toSnapshotRef job.attempt ids env.chunkSize
    let done ← store.completedChunks job.attempt
    chainRetried env job.toSnapshotRef job.attempt plan done
    pure ⟨ids.length, false⟩

/-- Retry failed releases only, never the whole catalogue. -/
def retryFailedDistroKidReleases (job : RetryFailedJob) : Pipe RetryResult :=
  unlessTerminal env job.toSnapshotRef ⟨0, true⟩ (retryFailed env job)

structure ReconcileResult where
  status : SnapshotStatus
  completeness : ExtractionCompleteness
  stopped : Bool

/-- The tombstone of a pass's own verdict. -/
def reconciledVerdict (job : ReconcileJob) (result : ExtractionCompleteness × SnapshotStatus)
    (createdAt : String) : SnapshotTerminalTombstone :=
  .terminal
    { toSnapshotRef := refOf job.toSnapshotRef, status := result.2, completeness := result.1
      pass := some (job.pass.getD INITIAL_PASS) } createdAt (some "reconciled")

/-- Reconcile index against results: one more targeted pass, or the verdict. -/
def reconcileDistroKidSnapshot (job : ReconcileJob) : Pipe ReconcileResult := do
  bindCheckpoint job.toSnapshotRef
  match ← store.getTerminal with
  | some (.terminal finalizeJob ..) => do
    deps.enqueue (.finalize finalizeJob) 0
    pure ⟨finalizeJob.status, finalizeJob.completeness, true⟩
  | some (.cancelled ..) => do
    let index ← store.getIndex
    let outcomes ← store.getOutcomes
    let observed := reconcileCheckpoint index outcomes
    pure ⟨observed.2, observed.1, true⟩
  | none => do
    assertPipelineDeadline env job.toSnapshotRef
    let pass := job.pass.getD INITIAL_PASS
    let index ← store.getIndex
    let outcomes ← store.getOutcomes
    let result := reconcileCheckpoint index outcomes
    if result.2 = .partialRetryable ∧ pass < DISTROKID_MAX_ATTEMPTS then do
      assertSnapshotCanContinue env job.toSnapshotRef
      deps.enqueue (.retry { toSnapshotRef := refOf job.toSnapshotRef, attempt := pass + 1 }) 0
      pure ⟨result.2, result.1, false⟩
    else do
      let createdAt ← deps.nowIso
      match ← store.claimTerminal (reconciledVerdict job result createdAt) with
      | .terminal finalizeJob .. => do
        deps.enqueue (.finalize finalizeJob) 0
        pure ⟨finalizeJob.status, finalizeJob.completeness, finalizeJob.status ≠ result.2⟩
      | .cancelled .. => pure ⟨result.2, result.1, true⟩

/-- The completeness of a failed snapshot: what was read, and why it stopped. -/
def failedCompleteness (index : List ReleaseRefRecord) (outcomes : List ReleaseExtractionOutcome)
    (failureCode : DistroKidTerminalFailureCode) : ExtractionCompleteness :=
  let completeness := (reconcileCheckpoint index outcomes).1
  { completeness with failureReasons := completeness.failureReasons.bump failureCode.key }

/-- The tombstone of a fatal or exhausted stage. -/
def failedVerdict (job : StageJob) (stage : String) (error : PipelineError)
    (index : List ReleaseRefRecord) (outcomes : List ReleaseExtractionOutcome)
    (createdAt : String) : SnapshotTerminalTombstone :=
  let failureCode := classifyDistroKidTerminalFailure stage error
  .terminal
    { toSnapshotRef := refOf job.ref, status := .failed
      completeness := failedCompleteness index outcomes failureCode
      pass := some (job.pass?.getD INITIAL_PASS) }
    createdAt (some (stage ++ ":" ++ failureCode.key))

/-- Convert a fatal or exhausted stage into one immutable failed finalizer. -/
def terminalizeDistroKidFailure (job : StageJob) (stage : String) (error : PipelineError) :
    Pipe SnapshotTerminalTombstone := do
  bindCheckpoint job.ref
  let index ← store.getIndex
  let outcomes ← store.getOutcomes
  let createdAt ← deps.nowIso
  let winning ← store.claimTerminal (failedVerdict job stage error index outcomes createdAt)
  match winning with
  | .cancelled .. => pure winning
  | .terminal finalizeJob .. => do
    (if finalizeJob.status = .failed then deps.terminalFailure job.ref stage error else pure ())
    deps.enqueue (.finalize finalizeJob) 0
    pure winning

/-- Durable cancellation hook; every stage observes the tombstone. -/
def cancelDistroKidSnapshot (job : SnapshotRef) (reason : String) :
    Pipe SnapshotTerminalTombstone := do
  bindCheckpoint job
  let createdAt ← deps.nowIso
  store.claimTerminal (.cancelled createdAt reason)

/-! ### The finalizer -/

/-- Whether the progress row says that this verdict has been persisted. -/
def alreadyPersisted (progress : Option SnapshotProgress) (finalJob : FinalizeJob) : Bool :=
  progress.any fun p =>
    p.tenantId = finalJob.tenantId ∧ p.connectionId = finalJob.connectionId ∧
    p.distributor = finalJob.distributor ∧ p.status = .terminal finalJob.status ∧
    p.expectedReleases = finalJob.completeness.expectedReleases ∧
    p.completedReleases = finalJob.completeness.completedReleases ∧
    p.failedReleases = finalJob.completeness.failedReleases

/-- The progress row of a finished snapshot. -/
def finalProgress (progress : Option SnapshotProgress) (finalJob : FinalizeJob)
    (startedAt updatedAt : String) : SnapshotProgress :=
  { snapshotId := finalJob.snapshotId, tenantId := finalJob.tenantId
    connectionId := finalJob.connectionId, distributor := finalJob.distributor
    expectedReleases := finalJob.completeness.expectedReleases
    completedReleases := finalJob.completeness.completedReleases
    failedReleases := finalJob.completeness.failedReleases
    chunkCount := (progress.map (·.chunkCount)).getD 0
    completedChunks := (progress.map (·.completedChunks)).getD []
    startedAt := (progress.map (·.startedAt)).getD startedAt
    status := .terminal finalJob.status
    updatedAt := updatedAt }

/-- Persist the snapshot under its verdict, then record the terminal progress. -/
def persistVerdict (finalJob : FinalizeJob) (progress : Option SnapshotProgress) : Pipe Unit := do
  let outcomes ← store.getOutcomes
  deps.persistSnapshot finalJob outcomes
  let startedAt ← deps.nowIso
  let updatedAt ← deps.nowIso
  store.putProgress (finalProgress progress finalJob startedAt updatedAt)

/-- Persist the snapshot with its terminal status. -/
def finalizeDistroKidSnapshot (job : FinalizeJob) : Pipe Unit := do
  bindCheckpoint job.toSnapshotRef
  let createdAt ← deps.nowIso
  match ← store.claimTerminal (.terminal job createdAt (some "legacy-finalizer")) with
  | .cancelled .. => pure ()
  | .terminal finalJob .. => do
    let progress ← store.getProgress
    (if alreadyPersisted progress finalJob then deps.logAlreadyDurable finalJob
      else persistVerdict finalJob progress)
    deps.releaseSession finalJob

end CatalogSentinel.Distrokid
