import Mathlib.Data.String.Basic
import CatalogSentinel.Data.Paging
import CatalogSentinel.Checkpoint.Records

/-!
The two checkpoint stores, call by call: the one in memory, which keeps what it is
given under text keys, and the one in PostgreSQL, which checks every value on its way
in and out, writes in batches and reads in pages. A call of the latter is a
transaction: it takes effect as a whole, or not at all.
-/

namespace CatalogSentinel.Checkpoint

open CatalogSentinel.Data CatalogSentinel.Distrokid

/-- The calls of `SnapshotCheckpointStore`. -/
inductive StoreCall
  | bindSnapshot (binding : SnapshotCheckpointBinding)
  | putIndex (snapshotId : String) (releases : List ReleaseRefRecord)
  | getIndex (snapshotId : String)
  | putOutcomes (snapshotId : String) (outcomes : List ReleaseExtractionOutcome)
  | getOutcomes (snapshotId : String)
  | putProgress (progress : SnapshotProgress)
  | getProgress (snapshotId : String)
  | markChunkComplete (snapshotId : String) (pass chunkIndex : ℕ)
  | completedChunks (snapshotId : String) (pass : ℕ)
  | putPassPlan (snapshotId : String) (pass : ℕ) (releaseIdChunks : List (List String))
  | getPassPlan (snapshotId : String) (pass : ℕ)
  | claimTerminal (snapshotId : String) (tombstone : SnapshotTerminalTombstone)
  | getTerminal (snapshotId : String)

inductive StoreAnswer
  | done
  | index (releases : List ReleaseRefRecord)
  | outcomes (outcomes : List ReleaseExtractionOutcome)
  | progress (progress : Option SnapshotProgress)
  | chunks (chunks : List ℕ)
  | plan (plan : Option (List (List String)))
  | terminal (tombstone : Option SnapshotTerminalTombstone)
  deriving DecidableEq

/-! ### Checks -/

/-- `/[:\s*?[\]{}]/` -/
def isKeyForbidden (c : Char) : Bool :=
  isJsSpace c || c ∈ [':', '*', '?', '[', ']', '\x7b', '\x7d']

def assertKeySegment (value name : String) : Checked Unit :=
  if value = "" || value.toList.any isKeyForbidden then
    .error (.invalid s!"invalid {name} for a Redis key: must be non-empty and free of \":\" and glob characters")
  else .ok ()

def validateBindingField (name value : String) : Checked Unit :=
  if isBlank value || utf16Length value > 512 || hasControlCharacter value false then
    .error (.invalid s!"invalid snapshot checkpoint {name}")
  else .ok ()

def validateBinding (binding : SnapshotCheckpointBinding) : Checked Unit := do
  validateBindingField "snapshotId" binding.snapshotId
  validateBindingField "tenantId" binding.tenantId
  validateBindingField "connectionId" binding.connectionId
  validateBindingField "distributor" binding.distributor
  assertKeySegment binding.snapshotId "snapshotId"

def progressBinding (progress : SnapshotProgress) : SnapshotCheckpointBinding :=
  ⟨progress.snapshotId, progress.tenantId, progress.connectionId, progress.distributor⟩

/-- The status is one of those of its type. -/
def sanitizeProgress (P : Platform) (progress : SnapshotProgress) (binding : SnapshotCheckpointBinding) :
    Checked SnapshotProgress :=
  if progressBinding progress ≠ binding then .error .principalMismatch
  else do
    let chunks ← progress.completedChunks.mapM fun chunk => safeCount chunk "completed chunk"
    let expectedReleases ← safeCount progress.expectedReleases "expected releases"
    let completedReleases ← safeCount progress.completedReleases "completed releases"
    let failedReleases ← safeCount progress.failedReleases "failed releases"
    let chunkCount ← safeCount progress.chunkCount "chunk count"
    let startedAt ← isoTimestamp P progress.startedAt "progress startedAt"
    let updatedAt ← isoTimestamp P progress.updatedAt "progress updatedAt"
    return {
      snapshotId := binding.snapshotId, tenantId := binding.tenantId
      connectionId := binding.connectionId, distributor := binding.distributor
      status := progress.status
      expectedReleases, completedReleases, failedReleases, chunkCount
      completedChunks := chunks.dedup.insertionSort (· ≤ ·)
      startedAt, updatedAt }

/-! ### In memory -/

/-- Absent entries of the outcome and chunk maps are empty ones. -/
structure InMemorySnapshotStore where
  bindings : String → Option SnapshotCheckpointBinding
  index : String → List ReleaseRefRecord
  outcomes : String → List ReleaseExtractionOutcome
  progress : String → Option SnapshotProgress
  chunks : String → List String
  plans : String → Option (List (List String))
  terminals : String → Option SnapshotTerminalTombstone

namespace InMemorySnapshotStore

def empty : InMemorySnapshotStore :=
  ⟨fun _ => none, fun _ => [], fun _ => [], fun _ => none, fun _ => [], fun _ => none, fun _ => none⟩

def chunkKey (pass chunkIndex : ℕ) : String := s!"{pass}:{chunkIndex}"

def planKey (snapshotId : String) (pass : ℕ) : String := s!"{snapshotId}:{pass}"

/-- What follows `start` in a text that starts with it. -/
def after? (start text : String) : Option (List Char) :=
  if start.toList.isPrefixOf text.toList then some (text.toList.drop start.toList.length) else none

/-- `Number` of decimal digits. -/
def digitsValue (text : List Char) : ℕ := Nat.ofDigitChars 10 text 0

def completedChunks (m : InMemorySnapshotStore) (snapshotId : String) (pass : ℕ) : List ℕ :=
  ((m.chunks snapshotId).filterMap fun key => (after? s!"{pass}:" key).map digitsValue).insertionSort (· ≤ ·)

def call (m : InMemorySnapshotStore) : StoreCall → Checked StoreAnswer × InMemorySnapshotStore
  | .bindSnapshot b =>
    match validateBinding b with
    | .error e => (.error e, m)
    | .ok () =>
      if (m.bindings b.snapshotId).any (· ≠ b) then (.error .principalMismatch, m)
      else (.ok .done, { m with bindings := Function.update m.bindings b.snapshotId (some b) })
  | .putIndex s releases => (.ok .done, { m with index := Function.update m.index s releases })
  | .getIndex s => (.ok (.index (m.index s)), m)
  | .putOutcomes s os =>
    (.ok .done, { m with outcomes := Function.update m.outcomes s (Distrokid.putOutcomes (m.outcomes s) os) })
  | .getOutcomes s => (.ok (.outcomes (m.outcomes s)), m)
  | .putProgress p => (.ok .done, { m with progress := Function.update m.progress p.snapshotId (some p) })
  | .getProgress s => (.ok (.progress (m.progress s)), m)
  | .markChunkComplete s pass i =>
    let keys := addOnce (chunkKey pass i) (m.chunks s)
    (.ok .done, { m with chunks := Function.update m.chunks s keys })
  | .completedChunks s pass => (.ok (.chunks (m.completedChunks s pass)), m)
  | .putPassPlan s pass chunks =>
    (.ok .done, { m with plans := Function.update m.plans (planKey s pass) (some chunks) })
  | .getPassPlan s pass => (.ok (.plan (m.plans (planKey s pass))), m)
  | .claimTerminal s t =>
    match m.terminals s with
    | some existing => (.ok (.terminal (some existing)), m)
    | none => (.ok (.terminal (some t)), { m with terminals := Function.update m.terminals s (some t) })
  | .getTerminal s => (.ok (.terminal (m.terminals s)), m)

end InMemorySnapshotStore

/-! ### In PostgreSQL -/

/-- `userId`, `connectionId`, `snapshotId` -/
abbrev Scope := String × String × String

def scope (b : SnapshotCheckpointBinding) : Scope := (b.tenantId, b.connectionId, b.snapshotId)

structure ProgressRow where
  distributor : String
  status : ProgressStatus
  expectedReleases : ℕ
  completedReleases : ℕ
  failedReleases : ℕ
  chunkCount : ℕ
  completedChunks : List ℕ
  startedAt : ℤ
  updatedAt : ℤ

/-- The rows of each snapshot: releases by ordinal, outcomes by release id, completed
chunks by pass and index, and the chunks of a pass by index. -/
structure CheckpointTables where
  checkpoints : String → Option SnapshotCheckpointBinding
  index : Scope → List (ReleaseRefRecord × ℕ)
  outcomes : Scope → List ReleaseExtractionOutcome
  progress : Scope → Option ProgressRow
  chunks : Scope → List (ℕ × ℕ)
  plans : Scope → ℕ → List (List String × ℕ)
  terminals : Scope → Option SnapshotTerminalTombstone

/-- The tables, and the bindings that the store instance remembers. -/
structure PostgresSnapshotCheckpointStore where
  tables : CheckpointTables
  bindings : String → Option SnapshotCheckpointBinding

/-- The deployment: the rows that one statement inserts, and the instants that a
`TIMESTAMPTZ` column takes in ISO form. -/
structure Deployment where
  batchSize : ℕ
  sized : 1 ≤ batchSize ∧ batchSize ≤ 500
  takesInstant : ℤ → Bool

def CHECKPOINT_PAGE_SIZE : ℕ := 250

/-- A count for an `INTEGER` column. -/
def pgCount (value : ℕ) : Checked ℕ :=
  if value ≤ 2147483647 then .ok value else .error (.postgres "integer out of range")

def pgTimestamp (P : Platform) (dep : Deployment) (text : String) : Checked ℤ :=
  match P.dateParse text with
  | none => .error (.postgres "invalid input syntax for type timestamp with time zone")
  | some epoch =>
    if dep.takesInstant epoch then .ok epoch
    else .error (.postgres "invalid input syntax for type timestamp with time zone")

/-- The row that a progress record is written as. -/
def progressRow (D : DashboardPlatform) (dep : Deployment) (value : SnapshotProgress) :
    Checked ProgressRow := do
  let expectedReleases ← pgCount value.expectedReleases
  let completedReleases ← pgCount value.completedReleases
  let failedReleases ← pgCount value.failedReleases
  let chunkCount ← pgCount value.chunkCount
  let completedChunks ← value.completedChunks.mapM pgCount
  let startedAt ← pgTimestamp D.toPlatform dep value.startedAt
  let updatedAt ← pgTimestamp D.toPlatform dep value.updatedAt
  return { distributor := value.distributor, status := value.status
           expectedReleases, completedReleases, failedReleases, chunkCount, completedChunks
           startedAt, updatedAt }

/-- The record that the row of a snapshot is read as. -/
def ProgressRow.progress (D : DashboardPlatform) (b : SnapshotCheckpointBinding) (row : ProgressRow) :
    SnapshotProgress :=
  { snapshotId := b.snapshotId, tenantId := b.tenantId, connectionId := b.connectionId
    distributor := row.distributor, status := row.status
    expectedReleases := row.expectedReleases, completedReleases := row.completedReleases
    failedReleases := row.failedReleases, chunkCount := row.chunkCount
    completedChunks := row.completedChunks
    startedAt := D.toISOString row.startedAt, updatedAt := D.toISOString row.updatedAt }

namespace PostgresSnapshotCheckpointStore

def empty : PostgresSnapshotCheckpointStore :=
  ⟨⟨fun _ => none, fun _ => [], fun _ => [], fun _ => none, fun _ => [], fun _ _ => [], fun _ => none⟩,
    fun _ => none⟩

variable (D : DashboardPlatform) (dep : Deployment) (p : PostgresSnapshotCheckpointStore)

def binding (snapshotId : String) : Checked SnapshotCheckpointBinding :=
  match p.bindings snapshotId with
  | none => .error (.bindingRequired snapshotId)
  | some b => .ok b

/-- The row of the snapshot must be the binding's. -/
def lock (b : SnapshotCheckpointBinding) : Checked Unit :=
  if (p.tables.checkpoints b.snapshotId).any fun row => scope row = scope b then .ok ()
  else .error .principalMismatch

/-- A transaction: the tables it leaves, or its error and the tables as they were. -/
def commit (r : Checked CheckpointTables) : Checked StoreAnswer × PostgresSnapshotCheckpointStore :=
  match r with
  | .error e => (.error e, p)
  | .ok tables => (.ok .done, { p with tables })

def bindSnapshot (b : SnapshotCheckpointBinding) : Checked StoreAnswer × PostgresSnapshotCheckpointStore :=
  match validateBinding b with
  | .error e => (.error e, p)
  | .ok () =>
    if (p.bindings b.snapshotId).any (· ≠ b) then (.error .principalMismatch, p)
    else
      let row := (p.tables.checkpoints b.snapshotId).getD b
      let tables := { p.tables with
        checkpoints := Function.update p.tables.checkpoints b.snapshotId (some row) }
      if row ≠ b then (.error .principalMismatch, { p with tables })
      else (.ok .done, { tables, bindings := Function.update p.bindings b.snapshotId (some b) })

def putIndex (snapshotId : String) (releases : List ReleaseRefRecord) : Checked CheckpointTables := do
  let b ← p.binding snapshotId
  if releases.length > MAX_RELEASES then
    .error (.invalid "snapshot index exceeds its bounded release limit")
  else do
  let sanitized ← releases.mapM (sanitizeReleaseRef D)
  if ¬ (sanitized.map (·.releaseId)).Nodup then
    .error (.invalid "snapshot index contains duplicate release ids")
  else do
  p.lock b
  let _ ← sanitized.mapM fun release => release.expectedTrackCount.mapM pgCount
  let rows := numberBatches dep.batchSize sanitized.length 0 sanitized
  return { p.tables with index := Function.update p.tables.index (scope b) rows }

def getIndex (snapshotId : String) : Checked (List ReleaseRefRecord) := do
  let b ← p.binding snapshotId
  let rows := p.tables.index (scope b)
  readPages (fun row : ReleaseRefRecord × ℕ => (row.2 : ℤ)) CHECKPOINT_PAGE_SIZE rows
    (fun result raw => do
      let release ← sanitizeReleaseRef D raw.1
      return result ++ [release]) (rows.length + 1) (-1) []

def putOutcomes (snapshotId : String) (outcomes : List ReleaseExtractionOutcome) :
    Checked CheckpointTables := do
  let b ← p.binding snapshotId
  if outcomes.length > MAX_RELEASES then
    .error (.invalid "outcome checkpoint batch exceeds its bounded release limit")
  else do
  let sanitized ← outcomes.mapM (sanitizeOutcome D.toPlatform)
  p.lock b
  let rows ← insertBatches dep.batchSize (p.tables.outcomes (scope b)) sanitized.length sanitized
  return { p.tables with outcomes := Function.update p.tables.outcomes (scope b) rows }

def getOutcomes (snapshotId : String) : Checked (List ReleaseExtractionOutcome) := do
  let b ← p.binding snapshotId
  let rows := p.tables.outcomes (scope b)
  readPages (·.outcomeReleaseId) CHECKPOINT_PAGE_SIZE rows
    (fun outcomes raw => do
      let outcome ← sanitizeOutcome D.toPlatform raw
      return outcomes ++ [outcome]) (rows.length + 1) "" []

def putProgress (progress : SnapshotProgress) : Checked CheckpointTables := do
  let b ← p.binding progress.snapshotId
  let value ← sanitizeProgress D.toPlatform progress b
  p.lock b
  let row ← progressRow D dep value
  return { p.tables with progress := Function.update p.tables.progress (scope b) (some row) }

def getProgress (snapshotId : String) : Checked (Option SnapshotProgress) := do
  let b ← p.binding snapshotId
  match p.tables.progress (scope b) with
  | none => return none
  | some raw =>
    let progress ← sanitizeProgress D.toPlatform (raw.progress D b) b
    return some progress

/-- The pass of a chunk, as a column takes it. -/
def chunkPass (pass : ℕ) : Checked ℕ := do
  let safePass ← safeCount pass "chunk pass"
  if safePass < 1 then .error (.invalid "checkpoint pass must be positive") else .ok safePass

def markChunkComplete (snapshotId : String) (pass chunkIndex : ℕ) : Checked CheckpointTables := do
  let b ← p.binding snapshotId
  let safePass ← chunkPass pass
  let safeChunk ← safeCount chunkIndex "chunk index"
  p.lock b
  let passColumn ← pgCount safePass
  let chunkColumn ← pgCount safeChunk
  let rows := addOnce (passColumn, chunkColumn) (p.tables.chunks (scope b))
  return { p.tables with chunks := Function.update p.tables.chunks (scope b) rows }

def completedChunks (snapshotId : String) (pass : ℕ) : Checked (List ℕ) := do
  let b ← p.binding snapshotId
  let safePass ← chunkPass pass
  let passColumn ← pgCount safePass
  let rows := (p.tables.chunks (scope b)).filter fun row => row.1 = passColumn
  readPages (fun row : ℕ × ℕ => (row.2 : ℤ)) CHECKPOINT_PAGE_SIZE rows
    (fun chunks row => do
      let chunk ← safeCount row.2 "stored chunk index"
      return chunks ++ [chunk]) (rows.length + 1) (-1) []

def putPassPlan (snapshotId : String) (pass : ℕ) (releaseIdChunks : List (List String)) :
    Checked CheckpointTables := do
  let b ← p.binding snapshotId
  let safePass ← safeCount pass "plan pass"
  if safePass < 1 || releaseIdChunks.length > MAX_RELEASES then
    .error (.invalid "invalid pass plan checkpoint")
  else do
  let plan ← releaseIdChunks.zipIdx.mapM fun x => sanitizeChunk x.1 x.2
  p.lock b
  let passColumn ← pgCount safePass
  let rows := numberBatches dep.batchSize plan.length 0 plan
  let passes := Function.update (p.tables.plans (scope b)) passColumn rows
  return { p.tables with plans := Function.update p.tables.plans (scope b) passes }

/-- The next row of a plan, whose index must follow the last one. -/
def readPlanRow (plan : List (List String)) (row : List String × ℕ) : Checked (List (List String)) :=
  if row.2 ≠ plan.length then
    .error (.invalid "durable pass plan contains a non-contiguous chunk index")
  else do
    let ids ← row.1.mapM fun id => textValue id "stored pass plan releaseId" 512
    return plan ++ [ids]

def getPassPlan (snapshotId : String) (pass : ℕ) : Checked (Option (List (List String))) := do
  let b ← p.binding snapshotId
  let safePass ← safeCount pass "plan pass"
  if safePass < 1 then .error (.invalid "checkpoint plan pass must be positive")
  else do
  let passColumn ← pgCount safePass
  let rows := p.tables.plans (scope b) passColumn
  let plan ← readPages (fun row : List String × ℕ => (row.2 : ℤ)) CHECKPOINT_PAGE_SIZE rows
    readPlanRow (rows.length + 1) (-1) []
  return if plan.length > 0 then some plan else none

def getTerminal (snapshotId : String) : Checked (Option SnapshotTerminalTombstone) := do
  let b ← p.binding snapshotId
  match p.tables.terminals (scope b) with
  | none => return none
  | some t =>
    let tombstone ← sanitizeTombstone D.toPlatform t b
    return some tombstone

/-- The tombstone that a claim proposes for the snapshot's row, under its lock. -/
def proposeTerminal (snapshotId : String) (t : SnapshotTerminalTombstone) :
    Checked (SnapshotCheckpointBinding × SnapshotTerminalTombstone) := do
  let b ← p.binding snapshotId
  let proposed ← sanitizeTombstone D.toPlatform t b
  p.lock b
  return (b, proposed)

def claimTerminal (snapshotId : String) (t : SnapshotTerminalTombstone) :
    Checked StoreAnswer × PostgresSnapshotCheckpointStore :=
  match p.proposeTerminal D snapshotId t with
  | .error e => (.error e, p)
  | .ok (b, proposed) =>
    match p.tables.terminals (scope b) with
    | some _ => ((p.getTerminal D snapshotId).map .terminal, p)
    | none =>
      ((sanitizeTombstone D.toPlatform proposed b).map fun t => .terminal (some t),
        { p with tables := { p.tables with
          terminals := Function.update p.tables.terminals (scope b) (some proposed) } })

def call : StoreCall → Checked StoreAnswer × PostgresSnapshotCheckpointStore
  | .bindSnapshot b => p.bindSnapshot b
  | .putIndex s releases => p.commit (p.putIndex D dep s releases)
  | .getIndex s => ((p.getIndex D s).map .index, p)
  | .putOutcomes s os => p.commit (p.putOutcomes D dep s os)
  | .getOutcomes s => ((p.getOutcomes D s).map .outcomes, p)
  | .putProgress progress => p.commit (p.putProgress D dep progress)
  | .getProgress s => ((p.getProgress D s).map .progress, p)
  | .markChunkComplete s pass i => p.commit (p.markChunkComplete s pass i)
  | .completedChunks s pass => ((p.completedChunks s pass).map .chunks, p)
  | .putPassPlan s pass chunks => p.commit (p.putPassPlan dep s pass chunks)
  | .getPassPlan s pass => ((p.getPassPlan s pass).map .plan, p)
  | .claimTerminal s t => p.claimTerminal D s t
  | .getTerminal s => ((p.getTerminal D s).map .terminal, p)

end PostgresSnapshotCheckpointStore

end CatalogSentinel.Checkpoint
