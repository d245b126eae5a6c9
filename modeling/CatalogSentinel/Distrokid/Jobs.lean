import Mathlib.Data.Rat.Floor
import CatalogSentinel.Distrokid.Completeness

/-!
The jobs that travel between the pipeline's stages, the identities the queues
know them by, the terminal tombstone and progress row of a snapshot, the errors
of a stage and their allowlisted classification, and the split of a release list
into chunks.
-/

namespace CatalogSentinel.Distrokid

def INITIAL_PASS : ℕ := 1
def DISTROKID_MAX_ATTEMPTS : ℕ := 3
def MAX_CHUNK_DEFERS : ℕ := 200
def DISTROKID_RELEASE_CHUNK_SIZE : ℕ := 20
def DISTROKID_REQUEST_MIN_DELAY_MS : ℕ := 750
def DISTROKID_SESSION_CLEANUP_GRACE_MS : ℤ := 60000

def DK_QUEUE_NAMES : List String :=
  ["distrokid-catalog-index", "distrokid-plan-chunks", "distrokid-release-chunk",
    "distrokid-retry-failed", "distrokid-reconcile", "distrokid-finalize"]

structure SnapshotRef where
  tenantId : String
  connectionId : String
  snapshotId : String
  distributor : String
  consentId : Option String
  artistWorkspaceId : Option String
  steelSessionId : Option String
  sessionExpiresAt : Option String
  deadlineAt : Option String
  schemaVersion : Option ℕ
  deriving DecidableEq, Repr

structure CatalogIndexJob extends SnapshotRef where
  artists : List String
  deriving DecidableEq, Repr

structure PlanChunksJob extends SnapshotRef where
  chunkSize : Option ℕ
  deriving DecidableEq, Repr

structure ReleaseChunkJob extends SnapshotRef where
  chunkIndex : ℕ
  releaseIds : List String
  pass : Option ℕ
  passChunkCount : Option ℕ
  deferAttempt : Option ℕ
  deriving DecidableEq, Repr

structure RetryFailedJob extends SnapshotRef where
  attempt : ℕ
  deriving DecidableEq, Repr

structure ReconcileJob extends SnapshotRef where
  pass : Option ℕ
  deriving DecidableEq, Repr

structure FinalizeJob extends SnapshotRef where
  status : SnapshotStatus
  completeness : ExtractionCompleteness
  pass : Option ℕ
  deriving DecidableEq, Repr

/-- Carry a snapshot's identity, with its authenticated session handle, to the next
stage. Fields whose value is falsy are left out. -/
def refOf (job : SnapshotRef) : SnapshotRef :=
  { job with
    steelSessionId := job.steelSessionId.filter (· ≠ "")
    consentId := job.consentId.filter (· ≠ "")
    artistWorkspaceId := job.artistWorkspaceId.filter (· ≠ "")
    sessionExpiresAt := job.sessionExpiresAt.filter (· ≠ "")
    deadlineAt := job.deadlineAt.filter (· ≠ "")
    schemaVersion := job.schemaVersion.filter (· ≠ 0) }

/-- The job of any one stage. -/
inductive StageJob
  | index (job : CatalogIndexJob)
  | plan (job : PlanChunksJob)
  | chunk (job : ReleaseChunkJob)
  | retry (job : RetryFailedJob)
  | reconcile (job : ReconcileJob)
  | finalize (job : FinalizeJob)
  deriving DecidableEq, Repr

namespace StageJob

def ref : StageJob → SnapshotRef
  | index job => job.toSnapshotRef
  | plan job => job.toSnapshotRef
  | chunk job => job.toSnapshotRef
  | retry job => job.toSnapshotRef
  | reconcile job => job.toSnapshotRef
  | finalize job => job.toSnapshotRef

/-- `job.pass` where the job has that field and a number in it. -/
def pass? : StageJob → Option ℕ
  | index _ => none
  | plan _ => none
  | chunk job => job.pass
  | retry _ => none
  | reconcile job => job.pass
  | finalize job => job.pass

/-- The queue that carries the job. -/
def queue : StageJob → String
  | index _ => "distrokid-catalog-index"
  | plan _ => "distrokid-plan-chunks"
  | chunk _ => "distrokid-release-chunk"
  | retry _ => "distrokid-retry-failed"
  | reconcile _ => "distrokid-reconcile"
  | finalize _ => "distrokid-finalize"

def isFinalize : StageJob → Bool
  | finalize _ => true
  | _ => false

end StageJob

/-- What a job's id is built from: its queue, the principal and the numbers that
the enqueuers put into it. -/
structure JobId where
  queue : String
  tenantId : String
  connectionId : String
  snapshotId : String
  numbers : List ℕ
  deriving DecidableEq, Repr

/-- `jobIds`, as the enqueuers call it. A deferral of zero adds no segment. -/
def StageJob.jobId (j : StageJob) : JobId :=
  { queue := j.queue
    tenantId := j.ref.tenantId
    connectionId := j.ref.connectionId
    snapshotId := j.ref.snapshotId
    numbers := match j with
      | .index _ => []
      | .plan _ => []
      | .chunk job => [job.pass.getD 1, job.chunkIndex] ++
          (if job.deferAttempt.getD 0 > 0 then [job.deferAttempt.getD 0] else [])
      | .retry job => [job.attempt]
      | .reconcile job => [job.pass.getD 1]
      | .finalize job => [job.pass.getD 1] }

/-! ### Checkpoint records -/

structure ReleaseRefRecord where
  releaseId : String
  dashboardUrl : String
  title : Option String
  artist : Option String
  expectedTrackCount : Option ℕ
  deriving DecidableEq, Repr

inductive ProgressStatus
  | planned
  | running
  | terminal (status : SnapshotStatus)
  deriving DecidableEq, Repr

def ProgressStatus.isTerminal : ProgressStatus → Bool
  | terminal _ => true
  | _ => false

structure SnapshotProgress where
  snapshotId : String
  tenantId : String
  connectionId : String
  distributor : String
  status : ProgressStatus
  expectedReleases : ℕ
  completedReleases : ℕ
  failedReleases : ℕ
  chunkCount : ℕ
  completedChunks : List ℕ
  startedAt : String
  updatedAt : String
  deriving DecidableEq, Repr

/-- First-writer-wins stop record. -/
inductive SnapshotTerminalTombstone
  | terminal (finalizeJob : FinalizeJob) (createdAt : String) (reason : Option String)
  | cancelled (createdAt : String) (reason : String)
  deriving DecidableEq, Repr

namespace SnapshotTerminalTombstone

def finalizeJob? : SnapshotTerminalTombstone → Option FinalizeJob
  | terminal job .. => some job
  | cancelled .. => none

def kind : SnapshotTerminalTombstone → String
  | terminal .. => "TERMINAL"
  | cancelled .. => "CANCELLED"

end SnapshotTerminalTombstone

structure SnapshotCheckpointBinding where
  snapshotId : String
  tenantId : String
  connectionId : String
  distributor : String
  deriving DecidableEq, Repr

def SnapshotRef.binding (job : SnapshotRef) : SnapshotCheckpointBinding :=
  ⟨job.snapshotId, job.tenantId, job.connectionId, job.distributor⟩

/-! ### Errors -/

inductive DistroKidCatalogIndexErrorCode
  | invalidCatalogUrl | authenticationRequired | invalidReleaseLimit | releaseIdentityMissing
  | releaseIdentityConflict | releaseLimitReached | loadBudgetExhausted | authenticationExpired
  | noRecognizableReleases | unsafeReleaseUrl
  deriving DecidableEq, Repr

namespace DistroKidCatalogIndexErrorCode

def key : DistroKidCatalogIndexErrorCode → String
  | invalidCatalogUrl => "INVALID_CATALOG_URL"
  | authenticationRequired => "AUTHENTICATION_REQUIRED"
  | invalidReleaseLimit => "INVALID_RELEASE_LIMIT"
  | releaseIdentityMissing => "RELEASE_IDENTITY_MISSING"
  | releaseIdentityConflict => "RELEASE_IDENTITY_CONFLICT"
  | releaseLimitReached => "RELEASE_LIMIT_REACHED"
  | loadBudgetExhausted => "LOAD_BUDGET_EXHAUSTED"
  | authenticationExpired => "AUTHENTICATION_EXPIRED"
  | noRecognizableReleases => "NO_RECOGNIZABLE_RELEASES"
  | unsafeReleaseUrl => "UNSAFE_RELEASE_URL"

def all : List DistroKidCatalogIndexErrorCode :=
  [invalidCatalogUrl, authenticationRequired, invalidReleaseLimit, releaseIdentityMissing,
    releaseIdentityConflict, releaseLimitReached, loadBudgetExhausted, authenticationExpired,
    noRecognizableReleases, unsafeReleaseUrl]

end DistroKidCatalogIndexErrorCode

inductive DistroKidTerminalFailureCode
  | catalogIndex (code : DistroKidCatalogIndexErrorCode)
  | pipelineDeadlineExceeded | pipelineConfigurationInvalid | accountLockUnavailable
  | accountLockLost | stageTimeout | catalogIndexFailed | pipelineStageFailed
  deriving DecidableEq, Repr

def DistroKidTerminalFailureCode.key : DistroKidTerminalFailureCode → String
  | catalogIndex code => code.key
  | pipelineDeadlineExceeded => "PIPELINE_DEADLINE_EXCEEDED"
  | pipelineConfigurationInvalid => "PIPELINE_CONFIGURATION_INVALID"
  | accountLockUnavailable => "ACCOUNT_LOCK_UNAVAILABLE"
  | accountLockLost => "ACCOUNT_LOCK_LOST"
  | stageTimeout => "STAGE_TIMEOUT"
  | catalogIndexFailed => "CATALOG_INDEX_FAILED"
  | pipelineStageFailed => "PIPELINE_STAGE_FAILED"

/-- The errors of a stage, by class; `other` is any other `Error`. -/
inductive PipelineError
  | deadlineExceeded (message : String)
  | invalidDeadline (message : String)
  | snapshotStopped (tombstone : SnapshotTerminalTombstone)
  | accountLockUnavailable
  | shutdown
  | lockLost (reason : String)
  | recovered (failureCode : DistroKidTerminalFailureCode)
  | catalogIndex (code : DistroKidCatalogIndexErrorCode) (message : String)
  | principalMismatch
  | other (message : String)
  deriving DecidableEq, Repr

namespace PipelineError

def deadline : PipelineError :=
  .deadlineExceeded "DistroKid catalogue-read wall-clock deadline exceeded"

def message : PipelineError → String
  | deadlineExceeded message => message
  | invalidDeadline message => message
  | snapshotStopped tombstone => "snapshot is already " ++ tombstone.kind.toLower
  | accountLockUnavailable =>
    "the distributor account is currently owned by another catalogue read"
  | shutdown => "PIPELINE_SHUTDOWN_RETRY: DistroKid pipeline worker is shutting down"
  | lockLost reason => "account lock lost mid-chunk: " ++ reason
  | recovered failureCode => "[DISTROKID_PIPELINE_FAILURE:" ++ failureCode.key ++
      "] recovered from the durable failed-job ledger"
  | catalogIndex code message => "[DISTROKID_CATALOG_INDEX:" ++ code.key ++ "] " ++ message
  | principalMismatch =>
    "snapshot checkpoint principal does not match its immutable tenant/connection binding"
  | other message => message

def isStopped : PipelineError → Bool
  | snapshotStopped _ => true
  | _ => false

end PipelineError

/-- `needle` somewhere in `hay`, ASCII letters compared without case. -/
def containsNoCase (hay needle : String) : Bool :=
  ((hay.toList.map Char.toLower).tails).any needle.toList.isPrefixOf

def distroKidCatalogIndexErrorCodeFromMessage (message : String) :
    Option DistroKidCatalogIndexErrorCode :=
  match message.toList with
  | '[' :: rest =>
    if ']' ∈ rest then
      let token := rest.takeWhile (· ≠ ']')
      DistroKidCatalogIndexErrorCode.all.find? fun code =>
        token = "DISTROKID_CATALOG_INDEX:".toList ++ code.key.toList
    else none
  | _ => none

def isStageSeparator (c : Char) : Bool := c = '-' ∨ c = '_' ∨ c = ' '

/-- `index(?:$|[-_ ])` at the head of the text. -/
def indexWord (s : List Char) : Bool :=
  "index".toList.isPrefixOf s && ((s.drop 5).head?.all isStageSeparator)

/-- `catalog[-_ ]?index(?:$|[-_ ])` at the head of the text. -/
def catalogIndexWord (s : List Char) : Bool :=
  "catalog".toList.isPrefixOf s &&
    (indexWord (s.drop 7) ||
      ((s.drop 7).head?.any isStageSeparator && indexWord (s.drop 8)))

def isCatalogIndexStage (stage : String) : Bool :=
  stage = "distrokid-catalog-index" ||
    catalogIndexWord (stage.toList.map Char.toLower) ||
    ((stage.toList.map Char.toLower).tails).any fun s =>
      s.head?.any isStageSeparator && catalogIndexWord (s.drop 1)

/-- Reduce an arbitrary exception to one stable, allowlisted code. -/
def classifyDistroKidTerminalFailure (stage : String) (error : PipelineError) :
    DistroKidTerminalFailureCode :=
  match error with
  | .recovered failureCode => failureCode
  | .catalogIndex code _ => .catalogIndex code
  | _ =>
    match distroKidCatalogIndexErrorCodeFromMessage error.message with
    | some code => .catalogIndex code
    | none =>
      match error with
      | .deadlineExceeded _ => .pipelineDeadlineExceeded
      | .invalidDeadline _ => .pipelineConfigurationInvalid
      | .accountLockUnavailable => .accountLockUnavailable
      | .lockLost _ => .accountLockLost
      | _ =>
        if containsNoCase error.message "no authenticated distributor session" ||
            containsNoCase error.message "authentication required" ||
            containsNoCase error.message "authentication is required" ||
            containsNoCase error.message "authentication expired"
        then .catalogIndex .authenticationRequired
        else if containsNoCase error.message "timed out" ||
            containsNoCase error.message "timeout"
        then .stageTimeout
        else if isCatalogIndexStage stage then .catalogIndexFailed
        else .pipelineStageFailed

/-- Only an allowlisted classification of a queue's `failedReason` survives. -/
def sanitizeRecoveredDistroKidFailure (stage : String) (failedReason : Option String) :
    PipelineError :=
  .recovered (classifyDistroKidTerminalFailure stage (.other (failedReason.getD "")))

/-! ### Chunks -/

/-- A chunk size as a JavaScript number other than `NaN`. -/
inductive ChunkSize
  | finite (size : ℚ)
  | infinite
  deriving DecidableEq, Repr

/-- `items.slice(from, to)`, whose bounds are truncated. -/
def slice {α : Type} (items : List α) (lo hi : ℚ) : List α :=
  (items.take ⌊hi⌋.toNat).drop ⌊lo⌋.toNat

/-- `for (let i = 0; i * size < items.length; i++)`; `none` once the fuel is spent. -/
def chunkLoop {α : Type} (items : List α) (size : ℚ) : ℕ → ℕ → Option (List (List α))
  | 0, _ => none
  | fuel + 1, i =>
    if i * size < items.length then
      (chunkLoop items size fuel (i + 1)).map (slice items (i * size) ((i + 1) * size) :: ·)
    else some []

/-- Split a list into release chunks; `none` when the loop never ends. An infinite
size makes the first bound `0 * Infinity`, which is no number, so no chunk is cut. -/
def chunkReleases {α : Type} (items : List α) : ChunkSize → Option (List (List α))
  | .finite size => chunkLoop items size (items.length * size.den + 1) 0
  | .infinite => some []

/-- The ceiling that the full jitter of a deferral is drawn below. -/
def backoffCeiling (attempt baseMs maxMs : ℕ) : ℕ := min maxMs (baseMs * 2 ^ (attempt - 1))

end CatalogSentinel.Distrokid
