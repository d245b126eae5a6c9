import Mathlib.Data.List.Sort
import CatalogSentinel.Concurrent.System
import CatalogSentinel.Distrokid.Jobs

/-!
One snapshot as its pipeline sees it: the linearizable checkpoint store, the
account lock, the queue entries, what each chunk delivery keeps of the outcomes
it read, and a log of the effects that later statements speak about. Every
operation is one await of a stage. It answers from the state, or as the
environment chooses where the code asks a clock, a browser or a random source;
it may also fail before its effect, or lose its answer after it.
-/

namespace CatalogSentinel.Distrokid

open CatalogSentinel.Data CatalogSentinel.Concurrent

/-- What the recovery sweep keeps on a queue entry. -/
structure JobProgress where
  terminalFailureHandled : Bool
  terminalFailureStage : Option String
  terminalFailureHandledAt : Option String
  finalizeRecoveryAttempts : ℕ
  finalizeRecoveryNotBefore : ℤ
  deriving DecidableEq, Repr

inductive EntryStatus
  | waiting
  | active (pid : ℕ)
  | completed
  | failed
  deriving DecidableEq, Repr

/-- A queue entry. Completed and failed entries stay and keep their id. -/
structure Entry where
  id : JobId
  job : StageJob
  status : EntryStatus
  attemptsMade : ℕ
  failedReason : Option String
  progress : JobProgress
  deriving DecidableEq, Repr

def Entry.fresh (job : StageJob) : Entry :=
  ⟨job.jobId, job, .waiting, 0, none, ⟨false, none, none, 0, 0⟩⟩

/-- What a process does for the snapshot: the delivery of a stage's job, a
terminalization, a cancellation, a recovery sweep, one `onCheckpoint` call of a
chunk delivery's extractor, one attempt of a queue entry, or a sweep of the
failed ledger. -/
inductive Work
  | stage (job : StageJob)
  | terminalize (job : StageJob) (stage : String) (error : PipelineError)
  | cancel (job : SnapshotRef) (reason : String)
  | recover (job : CatalogIndexJob)
  | checkpoint (delivery : ℕ) (job : ReleaseChunkJob) (batch : List ReleaseExtractionOutcome)
  | attempt (entry : Entry)
  | sweepFailed
  deriving DecidableEq, Repr

/-- The job that a process runs a stage for. -/
def Work.job? : Work → Option StageJob
  | stage job => some job
  | attempt entry => some entry.job
  | _ => none

/-- A process, by the number it was started under. -/
structure Delivery where
  pid : ℕ
  work : Work
  deriving DecidableEq, Repr

/-- The process runs the finalizer. -/
def Delivery.isFinalizer (d : Delivery) : Bool :=
  match d.work with
  | .stage job => job.isFinalize
  | .attempt entry => entry.job.isFinalize
  | _ => false

theorem Delivery.isFinalizer_eq (d : Delivery) :
    d.isFinalizer = d.work.job?.any StageJob.isFinalize := by
  obtain ⟨pid, work⟩ := d
  cases work <;> rfl

inductive Event
  | opened
  | extracting (job : ReleaseChunkJob)
  | outcomesRead (outcomes : List ReleaseExtractionOutcome)
  | stored (outcomes : List ReleaseExtractionOutcome)
  | claimed (tombstone : SnapshotTerminalTombstone)
  | enqueued (job : StageJob)
  | persistCalled (job : FinalizeJob) (outcomes : List ReleaseExtractionOutcome)
  | persisted (job : FinalizeJob) (outcomes : List ReleaseExtractionOutcome)
  | progressPut (progress : SnapshotProgress)
  | alreadyDurable (job : FinalizeJob)
  | sessionReleased (job : FinalizeJob)
  deriving DecidableEq, Repr

/-- The log is newest first. -/
structure SnapshotState where
  binding : Option SnapshotCheckpointBinding
  index : List ReleaseRefRecord
  outcomes : List ReleaseExtractionOutcome
  progress : Option SnapshotProgress
  chunks : List (ℕ × ℕ)
  plans : ℕ → Option (List (List String))
  terminal : Option SnapshotTerminalTombstone
  lock : Option ℕ
  existing : ℕ → List ReleaseExtractionOutcome
  entries : List Entry
  nextPid : ℕ
  log : List (Delivery × Event)

namespace SnapshotState

def empty : SnapshotState :=
  ⟨none, [], [], none, [], fun _ => none, none, none, fun _ => [], [], 0, []⟩

def note (s : SnapshotState) (d : Delivery) (e : Event) : SnapshotState :=
  { s with log := (d, e) :: s.log }

/-- What a chunk delivery keeps of the stored outcomes from now on. -/
def keep (s : SnapshotState) (pid : ℕ) (os : List ReleaseExtractionOutcome) : SnapshotState :=
  { s with existing := Function.update s.existing pid os }

theorem keep_existing (s : SnapshotState) (pid q : ℕ) (os : List ReleaseExtractionOutcome) :
    (s.keep pid os).existing q = if q = pid then os else s.existing q :=
  Function.update_apply ..

/-- `store.completedChunks(snapshotId, pass)` -/
def completedChunks (s : SnapshotState) (pass : ℕ) : List ℕ :=
  ((s.chunks.filter fun c => c.1 = pass).map Prod.snd).insertionSort (· ≤ ·)

end SnapshotState

/-- The deployment, and what is promised of the dependencies: which catalogue the
index reader answers, and whether the extractor answers one outcome per release
that it was asked for. `none` and `false` promise nothing. -/
structure Env where
  dateParse : String → Option ℤ
  requireDeadline : Bool
  chunkSize : ChunkSize
  keepsEmptyPlan : Bool
  catalogue : Option (List ReleaseRefRecord)
  oneOutcomePerRef : Bool

inductive Op
  | bindSnapshot (binding : SnapshotCheckpointBinding)
  | putIndex (releases : List ReleaseRefRecord)
  | getIndex
  | putOutcomes (outcomes : List ReleaseExtractionOutcome)
  | getOutcomes
  | putProgress (progress : SnapshotProgress)
  | getProgress
  | markChunkComplete (pass chunkIndex : ℕ)
  | completedChunks (pass : ℕ)
  | putPassPlan (pass : ℕ) (chunks : List (List String))
  | getPassPlan (pass : ℕ)
  | claimTerminal (tombstone : SnapshotTerminalTombstone)
  | getTerminal
  | now
  | nowIso
  | aborted
  | random (below : ℕ)
  | readCatalogIndex (job : CatalogIndexJob)
  | acquireLock
  | releaseLock
  | openExisting
  | converge (delivery : ℕ) (batch : List ReleaseExtractionOutcome)
  | extractChunk (job : ReleaseChunkJob) (refs : List ReleaseRefRecord)
  | extracted (job : ReleaseChunkJob) (refs : List ReleaseRefRecord)
  | enqueue (job : StageJob) (delayMs : ℕ)
  | persistSnapshot (job : FinalizeJob) (outcomes : List ReleaseExtractionOutcome)
  | logAlreadyDurable (job : FinalizeJob)
  | releaseSession (job : FinalizeJob)
  | terminalFailure (job : SnapshotRef) (stage : String) (error : PipelineError)
  | releaseCancelled (job : CatalogIndexJob)
  | clearRecovery (job : CatalogIndexJob)
  | diverge
  | getFailed (queue : String)
  | retryJob (id : JobId)
  | updateProgress (id : JobId) (progress : JobProgress)

def Op.Ans : Op → Type
  | getIndex => List ReleaseRefRecord
  | getOutcomes => List ReleaseExtractionOutcome
  | getProgress => Option SnapshotProgress
  | completedChunks _ => List ℕ
  | getPassPlan _ => Option (List (List String))
  | claimTerminal _ => SnapshotTerminalTombstone
  | getTerminal => Option SnapshotTerminalTombstone
  | now => ℤ
  | nowIso => String
  | aborted => Option PipelineError
  | random _ => ℕ
  | readCatalogIndex _ => List ReleaseRefRecord
  | acquireLock => Bool
  | openExisting => List ReleaseExtractionOutcome
  | converge .. => List ReleaseExtractionOutcome
  | extracted .. => List ReleaseExtractionOutcome
  | getFailed _ => List Entry
  | _ => Unit

def distrokid : Signature := ⟨Op, Op.Ans⟩

abbrev Pipe := Prog distrokid PipelineError

def await (o : Op) : Pipe o.Ans := @Prog.call distrokid PipelineError o

/-- How the environment settles one operation. -/
inductive Choice
  | done
  | lost (error : PipelineError)
  | torn (error : PipelineError)
  | time (ms : ℤ)
  | stamp (iso : String)
  | abort (error : PipelineError)
  | drawn (n : ℕ)
  | catalogue (releases : List ReleaseRefRecord)
  | outcomes (outcomes : List ReleaseExtractionOutcome)
  | busy
  | lockExpired

/-- `batch.map(incoming => …)` of a chunk delivery: each outcome converges with the
one kept for its release, and replaces it. -/
def convergeBatch : List ReleaseExtractionOutcome → List ReleaseExtractionOutcome →
    List ReleaseExtractionOutcome × List ReleaseExtractionOutcome
  | existing, [] => ([], existing)
  | existing, incoming :: batch =>
    let merged := convergeReleaseRetryOutcome (outcomeOf incoming.outcomeReleaseId existing) incoming
    let rest := convergeBatch (put ReleaseExtractionOutcome.outcomeReleaseId merged existing) batch
    (merged :: rest.1, rest.2)

/-- Adding a job under an id that the queue retains adds nothing. -/
def addEntry (entries : List Entry) (job : StageJob) : List Entry :=
  if job.jobId ∈ entries.map Entry.id then entries else entries ++ [Entry.fresh job]

def updateEntry (entries : List Entry) (id : JobId) (f : Entry → Entry) : List Entry :=
  entries.map fun e => if e.id = id then f e else e

/-- What an operation does to the state, where the state settles its answer. -/
def effect (env : Env) (d : Delivery) (s : SnapshotState) :
    (o : Op) → Option (Except PipelineError o.Ans × SnapshotState)
  | .bindSnapshot b => some <|
    if s.binding.all (· = b) then (.ok (), { s with binding := some b })
    else (.error .principalMismatch, s)
  | .putIndex releases => some (.ok (), { s with index := releases })
  | .getIndex => some (.ok s.index, s)
  | .putOutcomes os =>
    some (.ok (), { s with outcomes := putOutcomes s.outcomes os }.note d (.stored os))
  | .getOutcomes => some (.ok s.outcomes, s.note d (.outcomesRead s.outcomes))
  | .putProgress p => some (.ok (), { s with progress := some p }.note d (.progressPut p))
  | .getProgress => some (.ok s.progress, s)
  | .markChunkComplete pass i => some
    (.ok (), { s with chunks := if (pass, i) ∈ s.chunks then s.chunks else (pass, i) :: s.chunks })
  | .completedChunks pass => some (.ok (s.completedChunks pass), s)
  | .putPassPlan pass chunks => some
    (.ok (), { s with plans := Function.update s.plans pass <|
      if chunks = [] ∧ env.keepsEmptyPlan = false then none else some chunks })
  | .getPassPlan pass => some (.ok (s.plans pass), s)
  | .claimTerminal t => some <|
    match s.terminal with
    | some existing => (.ok existing, s)
    | none => (.ok t, { s with terminal := some t }.note d (.claimed t))
  | .getTerminal => some (.ok s.terminal, s)
  | .aborted => some (.ok none, s)
  | .acquireLock => some <|
    match s.lock with
    | some _ => (.ok false, s)
    | none => (.ok true, { s with lock := some d.pid })
  | .releaseLock => some (.ok (), if s.lock = some d.pid then { s with lock := none } else s)
  | .openExisting => some (.ok s.outcomes, (s.keep d.pid s.outcomes).note d .opened)
  | .converge delivery batch =>
    let r := convergeBatch (s.existing delivery) batch
    some (.ok r.1, s.keep delivery r.2)
  | .extractChunk job _ => some (.ok (), s.note d (.extracting job))
  | .enqueue job _ => some
    (.ok (), { s with entries := addEntry s.entries job }.note d (.enqueued job))
  | .persistSnapshot job os => some
    (.ok (), (s.note d (.persistCalled job os)).note d (.persisted job os))
  | .logAlreadyDurable job => some (.ok (), s.note d (.alreadyDurable job))
  | .releaseSession job => some (.ok (), s.note d (.sessionReleased job))
  | .terminalFailure .. => some (.ok (), s)
  | .releaseCancelled _ => some (.ok (), s)
  | .clearRecovery _ => some (.ok (), s)
  | .getFailed queue => some
    (.ok (s.entries.filter fun e => e.job.queue = queue ∧ e.status = .failed), s)
  | .retryJob id => some
    (.ok (), { s with entries := updateEntry s.entries id fun e =>
      if e.status = .failed then { e with status := .waiting } else e })
  | .updateProgress id progress => some
    (.ok (), { s with entries := updateEntry s.entries id fun e => { e with progress := progress } })
  | _ => none

/-- The answers that the environment gives, where the dependencies' promises allow them. -/
def answer (env : Env) : (o : Op) → Choice → Option o.Ans
  | .now, .time ms => some ms
  | .nowIso, .stamp iso => some iso
  | .aborted, .abort error => if error.isStopped then none else some (some error)
  | .random below, .drawn n => if n < below ∨ n = 0 then some n else none
  | .readCatalogIndex _, .catalogue releases =>
    if env.catalogue.all (· = releases) then some releases else none
  | .extracted _ refs, .outcomes os =>
    if !env.oneOutcomePerRef ||
        (os.map (·.outcomeReleaseId)).isPerm (refs.map (·.releaseId)) then some os else none
  | .acquireLock, .busy => some false
  | _, _ => none

/-- A dependency says that the snapshot is stopped only by the stored tombstone. -/
def honest (s : SnapshotState) : PipelineError → Bool
  | .snapshotStopped t => s.terminal = some t
  | _ => true

/-- What a failed call leaves behind: that a persistence was called. An endless loop
does not even fail. -/
def attempted (d : Delivery) (s : SnapshotState) : Op → Option SnapshotState
  | .persistSnapshot job os => some (s.note d (.persistCalled job os))
  | .diverge => none
  | _ => some s

def perform (env : Env) (d : Delivery) (s : SnapshotState) (o : Op) :
    Choice → Option (Except PipelineError o.Ans × SnapshotState)
  | .done => effect env d s o
  | .lost error =>
    if honest s error then (attempted d s o).map fun s' => (.error error, s') else none
  | .torn error =>
    if honest s error then (effect env d s o).map fun r => (.error error, r.2) else none
  | c => (answer env o c).map fun a => (.ok a, s)

/-- One operation has one of three ends: its effect with its answer, its effect with
the answer lost, or an answer from the environment that changes nothing. -/
theorem perform_cases {env : Env} {d : Delivery} {s s' : SnapshotState} {o : Op} {c : Choice}
    {r : Except PipelineError o.Ans} (h : perform env d s o c = some (r, s')) :
    effect env d s o = some (r, s') ∨
      (∃ e r', honest s e ∧ effect env d s o = some (r', s') ∧ r = .error e) ∨
      (∃ e, honest s e ∧ attempted d s o = some s' ∧ r = .error e) ∨
      (∃ a c', answer env o c' = some a ∧ s' = s ∧ r = .ok a) := by
  have hanswer : ∀ c', (answer env o c').map (fun a => (Except.ok a, s)) = some (r, s') →
      ∃ a c', answer env o c' = some a ∧ s' = s ∧ r = .ok a := by
    intro c' hc
    obtain ⟨a, ha, he⟩ := Option.map_eq_some_iff.1 hc
    cases he
    exact ⟨a, c', ha, rfl, rfl⟩
  cases c with
  | done => exact .inl h
  | lost e =>
    simp only [perform] at h
    split at h
    · rename_i he
      obtain ⟨s'', hs, he'⟩ := Option.map_eq_some_iff.1 h
      cases he'
      exact .inr (.inr (.inl ⟨e, he, hs, rfl⟩))
    · cases h
  | torn e =>
    simp only [perform] at h
    split at h
    · rename_i he
      obtain ⟨⟨r', s''⟩, hr, he'⟩ := Option.map_eq_some_iff.1 h
      cases he'
      exact .inr (.inl ⟨e, r', he, hr, rfl⟩)
    · cases h
  | _ => exact .inr (.inr (.inr (hanswer _ h)))

end CatalogSentinel.Distrokid
