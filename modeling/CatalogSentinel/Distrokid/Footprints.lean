import CatalogSentinel.Distrokid.PipelineQueue

/-!
How the stages are put together, for any property that sequencing keeps and that
every read of a checkpoint or a clock has: a stage has the property once the awaits
named here have it, or the parts of it for which the property needs an argument of
its own.
-/

namespace CatalogSentinel.Distrokid

open CatalogSentinel.Data CatalogSentinel.Concurrent

/-- Operations that answer without changing the state. -/
def Op.isRead : Op → Bool
  | getIndex => true
  | getProgress => true
  | completedChunks _ => true
  | getPassPlan _ => true
  | getTerminal => true
  | now => true
  | nowIso => true
  | aborted => true
  | random _ => true
  | readCatalogIndex _ => true
  | extracted .. => true
  | terminalFailure .. => true
  | releaseCancelled _ => true
  | clearRecovery _ => true
  | diverge => true
  | getFailed _ => true
  | _ => false

/-- Reads that start no browser work. -/
def Op.isQuiet : Op → Bool
  | readCatalogIndex _ => false
  | o => o.isRead

theorem Op.isRead_of_isQuiet {o : Op} (h : o.isQuiet) : o.isRead := by
  cases o <;> first | rfl | cases h

/-- Quiet reads, and what changes the binding, the account lock or an entry's place alone. -/
def Op.isRoutine : Op → Bool
  | bindSnapshot _ => true
  | getOutcomes => true
  | acquireLock => true
  | releaseLock => true
  | retryJob _ => true
  | o => o.isQuiet

theorem Op.isRoutine_of_isQuiet {o : Op} (h : o.isQuiet) : o.isRoutine := by
  cases o <;> first | rfl | cases h

/-- A property of stage code that sequencing keeps and that every quiet read has. -/
structure CheckProperty (Φ : ∀ {α : Type}, Pipe α → Prop) : Prop extends Prog.Compositional Φ where
  read : ∀ {o : Op}, o.isQuiet → Φ (await o)

/-- One that every routine operation has. -/
structure StageProperty (Φ : ∀ {α : Type}, Pipe α → Prop) : Prop extends CheckProperty Φ where
  routine : ∀ {o : Op}, o.isRoutine → Φ (await o)
  read := fun ho => routine (Op.isRoutine_of_isQuiet ho)

namespace CheckProperty

variable {Φ : ∀ {α : Type}, Pipe α → Prop} (h : CheckProperty Φ) {env : Env} {α : Type}
include h

/-! ### Checks and locks -/

theorem assertPipelineDeadline (job : SnapshotRef) : Φ (assertPipelineDeadline env job) := by
  unfold Distrokid.assertPipelineDeadline
  split
  · exact h.raise _
  · exact h.ret _
  · refine h.bind (h.read rfl) fun now => ?_
    split
    · exact h.raise _
    · exact h.ret _

theorem assertSnapshotCanContinue (job : SnapshotRef) :
    Φ (assertSnapshotCanContinue env job) := by
  refine h.bind (h.assertPipelineDeadline job) fun _ => h.bind (h.read rfl) fun t => ?_
  cases t with
  | none => exact h.ret _
  | some t => exact h.raise _

theorem assertNotAborted : Φ assertNotAborted := by
  refine h.bind (h.read rfl) fun r => ?_
  cases r with
  | none => exact h.ret _
  | some e => exact h.raise _

theorem assertCanContinue (job : SnapshotRef) : Φ (assertCanContinue env job) :=
  h.bind h.assertNotAborted fun _ => h.bind (h.assertSnapshotCanContinue job) fun _ =>
    h.assertNotAborted

theorem unlessTerminal {job : SnapshotRef} {stopped : α} {rest : Pipe α}
    (hresume : Φ (resumeTerminalFinalizer job)) (hrest : Φ rest) :
    Φ (unlessTerminal env job stopped rest) := by
  refine h.bind hresume fun b => ?_
  split
  · exact h.ret _
  · exact h.bind (h.assertPipelineDeadline job) fun _ => hrest

end CheckProperty

namespace StageProperty

variable {Φ : ∀ {α : Type}, Pipe α → Prop} (h : StageProperty Φ) {env : Env} {α : Type}
include h

theorem withAccountLock {job : SnapshotRef} {stopped : α} {busy work : Pipe α} (hbusy : Φ busy)
    (hwork : Φ work) : Φ (withAccountLock env job stopped busy work) := by
  refine h.bind (h.routine rfl) fun got => ?_
  split
  · refine h.handle ?_ fun e => ?_
    · unfold underAccountLock
      split
      · exact h.raise _
      · refine h.ensure ?_ (h.settle (h.routine rfl))
        exact h.bind (h.assertCanContinue job) fun _ => h.bind (h.attempt hwork) fun r =>
          h.bind h.assertNotAborted fun _ => h.ofExcept r
    · split
      · exact h.ret _
      · exact h.raise _
  · exact hbusy

/-! ### The parts of the stages -/

theorem orDiverge (a : Option α) : Φ (orDiverge a) := by
  cases a with
  | some a => exact h.ret _
  | none => exact h.bind (h.read rfl) fun _ => h.raise _

theorem catalogIndexWork {job : CatalogIndexJob} (hread : Φ (await (.readCatalogIndex job)))
    (hindex : ∀ rs, Φ (await (.putIndex rs)))
    (hput : ∀ p : SnapshotProgress, p.status = .planned → Φ (await (.putProgress p)))
    (hplan : ∀ j d, j.toSnapshotRef = refOf job.toSnapshotRef → Φ (await (.enqueue (.plan j) d))) :
    Φ (catalogIndexWork env job) :=
  h.bind hread fun releases => h.bind (h.assertCanContinue _) fun _ =>
    h.bind (hindex releases) fun _ => h.bind (h.read rfl) fun _ => h.bind (h.read rfl) fun _ =>
    h.bind (h.assertCanContinue _) fun _ => h.bind (hput _ rfl) fun _ =>
    h.bind (h.assertCanContinue _) fun _ => h.bind (hplan _ _ rfl) fun _ => h.ret _

theorem passPlan {job : SnapshotRef} {pass : ℕ} {ids : List String} {size : ChunkSize}
    (hput : ∀ plan, Φ (await (.putPassPlan pass plan))) : Φ (passPlan env job pass ids size) := by
  refine h.bind (h.read rfl) fun plan => ?_
  cases plan with
  | some plan => exact h.ret _
  | none =>
    exact h.bind (h.orDiverge _) fun plan => h.bind (h.assertSnapshotCanContinue _) fun _ =>
      h.bind (hput plan) fun _ => h.ret _

theorem markRunning {job : SnapshotRef} {chunkCount : ℕ}
    (hput : ∀ p : SnapshotProgress, p.status = .running → Φ (await (.putProgress p))) :
    Φ (markRunning env job chunkCount) := by
  refine h.bind (h.read rfl) fun progress => ?_
  cases progress with
  | none => exact h.ret _
  | some progress =>
    exact h.bind (h.assertSnapshotCanContinue _) fun _ => h.bind (h.read rfl) fun _ => hput _ rfl

theorem chainPlanned {job : SnapshotRef} {chunks : List (List String)} {done : List ℕ}
    (hchunk : ∀ j d, j.toSnapshotRef = refOf job ∧ j.pass = some INITIAL_PASS →
      Φ (await (.enqueue (.chunk j) d)))
    (hrec : ∀ j d, j.toSnapshotRef = refOf job ∧ j.pass = some INITIAL_PASS →
      Φ (await (.enqueue (.reconcile j) d))) :
    Φ (chainPlanned env job chunks done) := by
  unfold Distrokid.chainPlanned
  split
  · exact h.bind (h.assertSnapshotCanContinue _) fun _ => hchunk _ _ ⟨rfl, rfl⟩
  · exact hrec _ _ ⟨rfl, rfl⟩

theorem planChunks {job : PlanChunksJob}
    (hplan : ∀ plan, Φ (await (.putPassPlan INITIAL_PASS plan)))
    (hmark : ∀ n, Φ (Distrokid.markRunning env job.toSnapshotRef n))
    (hchunk : ∀ j d, j.toSnapshotRef = refOf job.toSnapshotRef ∧ j.pass = some INITIAL_PASS →
      Φ (await (.enqueue (.chunk j) d)))
    (hrec : ∀ j d, j.toSnapshotRef = refOf job.toSnapshotRef ∧ j.pass = some INITIAL_PASS →
      Φ (await (.enqueue (.reconcile j) d))) :
    Φ (planChunks env job) :=
  h.bind (h.read rfl) fun _ => h.bind (h.read rfl) fun _ => h.bind (h.passPlan hplan) fun _ =>
    h.bind (hmark _) fun _ => h.bind (h.chainPlanned hchunk hrec) fun _ => h.ret _

theorem deferChunk {job : ReleaseChunkJob}
    (hchunk : ∀ j d, j.toSnapshotRef = job.toSnapshotRef ∧ j.pass = job.pass →
      Φ (await (.enqueue (.chunk j) d))) :
    Φ (deferChunk env job) := by
  unfold Distrokid.deferChunk
  dsimp only
  split
  · exact h.raise _
  · refine h.bind (h.read rfl) fun delayMs => ?_
    split
    · exact h.raise _
    · exact h.bind (hchunk _ _ ⟨rfl, rfl⟩) fun _ => h.ret _
    · refine h.bind (h.read rfl) fun now => ?_
      split
      · exact h.raise _
      · exact h.bind (hchunk _ _ ⟨rfl, rfl⟩) fun _ => h.ret _

theorem onCheckpoint {delivery : ℕ} {job : ReleaseChunkJob} {batch : List ReleaseExtractionOutcome}
    (hconverge : ∀ b, Φ (await (.converge delivery b)))
    (hput : ∀ os, Φ (await (.putOutcomes os))) : Φ (onCheckpoint env delivery job batch) :=
  h.bind (h.assertCanContinue _) fun _ => h.bind (hconverge _) fun _ => hput _

theorem chainNext {job : ReleaseChunkJob} {pass : ℕ} {done : List ℕ}
    {progress : Option SnapshotProgress}
    (hchunk : ∀ j d, j.toSnapshotRef = refOf job.toSnapshotRef ∧ j.pass = some pass →
      Φ (await (.enqueue (.chunk j) d)))
    (hrec : ∀ j d, j.toSnapshotRef = refOf job.toSnapshotRef ∧ j.pass = some pass →
      Φ (await (.enqueue (.reconcile j) d))) :
    Φ (chainNext env job pass done progress) := by
  refine h.bind (h.read rfl) fun plan => ?_
  cases plan with
  | some plan =>
    refine h.bind (h.assertCanContinue _) fun _ => ?_
    split
    · exact hchunk _ _ ⟨rfl, rfl⟩
    · exact hrec _ _ ⟨rfl, rfl⟩
  | none =>
    dsimp only
    split
    · exact h.bind (h.assertCanContinue _) fun _ => hrec _ _ ⟨rfl, rfl⟩
    · exact h.ret _

theorem recordChunkProgress {job : ReleaseChunkJob} {done : List ℕ}
    {progress : Option SnapshotProgress} (hput : ∀ p, Φ (await (.putProgress p))) :
    Φ (recordChunkProgress env job done progress) := by
  cases progress with
  | none => exact h.ret _
  | some p =>
    exact h.bind (h.routine rfl) fun _ => h.bind (h.assertCanContinue _) fun _ =>
      h.bind (h.read rfl) fun _ => hput _

theorem chunkWork {pid : ℕ} {job : ReleaseChunkJob} (hopen : Φ (await .openExisting))
    (hextract : ∀ refs, Φ (await (.extractChunk job refs)))
    (hconverge : ∀ b, Φ (await (.converge pid b))) (hput : ∀ os, Φ (await (.putOutcomes os)))
    (hmark : ∀ pass i, Φ (await (.markChunkComplete pass i)))
    (hprogress : ∀ p, Φ (await (.putProgress p)))
    (hchunk : ∀ j d, j.toSnapshotRef = refOf job.toSnapshotRef ∧
      j.pass = some (job.pass.getD INITIAL_PASS) → Φ (await (.enqueue (.chunk j) d)))
    (hrec : ∀ j d, j.toSnapshotRef = refOf job.toSnapshotRef ∧
      j.pass = some (job.pass.getD INITIAL_PASS) → Φ (await (.enqueue (.reconcile j) d))) :
    Φ (chunkWork env pid job) :=
  h.bind (h.read rfl) fun _ => h.bind hopen fun _ => h.bind (hextract _) fun _ =>
    h.bind (h.read rfl) fun _ => h.bind (h.assertCanContinue _) fun _ => h.bind (hconverge _) fun _ =>
    h.bind (hput _) fun _ => h.bind (h.assertCanContinue _) fun _ => h.bind (hmark _ _) fun _ =>
    h.bind (h.read rfl) fun _ => h.bind (h.read rfl) fun _ =>
    h.bind (h.recordChunkProgress hprogress) fun _ =>
    h.bind (h.chainNext hchunk hrec) fun _ => h.ret _

theorem chainRetried {job : SnapshotRef} {pass : ℕ} {plan : List (List String)} {done : List ℕ}
    (hchunk : ∀ j d, j.toSnapshotRef = refOf job ∧ j.pass = some pass →
      Φ (await (.enqueue (.chunk j) d)))
    (hrec : ∀ j d, j.toSnapshotRef = refOf job ∧ j.pass = some pass →
      Φ (await (.enqueue (.reconcile j) d))) :
    Φ (chainRetried env job pass plan done) := by
  refine h.bind (h.assertSnapshotCanContinue _) fun _ => ?_
  split
  · exact hchunk _ _ ⟨rfl, rfl⟩
  · exact hrec _ _ ⟨rfl, rfl⟩

theorem retryFailed {job : RetryFailedJob}
    (hplan : ∀ plan, Φ (await (.putPassPlan job.attempt plan)))
    (hchunk : ∀ j d, j.toSnapshotRef = refOf job.toSnapshotRef ∧ j.pass = some job.attempt →
      Φ (await (.enqueue (.chunk j) d)))
    (hrec : ∀ j d, j.toSnapshotRef = refOf job.toSnapshotRef ∧ j.pass = some job.attempt →
      Φ (await (.enqueue (.reconcile j) d))) :
    Φ (retryFailed env job) := by
  refine h.bind (h.read rfl) fun index => h.bind (h.routine rfl) fun outcomes => ?_
  dsimp only
  split
  · exact h.bind (h.assertSnapshotCanContinue _) fun _ => h.bind (hrec _ _ ⟨rfl, rfl⟩) fun _ => h.ret _
  · exact h.bind (h.passPlan hplan) fun _ => h.bind (h.read rfl) fun _ =>
      h.bind (h.chainRetried hchunk hrec) fun _ => h.ret _

theorem cancel {job : SnapshotRef} {reason : String} (hclaim : ∀ t, Φ (await (.claimTerminal t))) :
    Φ (cancelDistroKidSnapshot job reason) :=
  h.bind (h.routine rfl) fun _ => h.bind (h.read rfl) fun _ => hclaim _

theorem finalize {job : FinalizeJob}
    (hclaim : ∀ createdAt reason, Φ (await (.claimTerminal (.terminal job createdAt reason))))
    (hpersist : ∀ j os, Φ (await (.persistSnapshot j os)))
    (hput : ∀ p : SnapshotProgress, p.status.isTerminal = true → Φ (await (.putProgress p)))
    (hlog : ∀ j, Φ (await (.logAlreadyDurable j))) (hrelease : ∀ j, Φ (await (.releaseSession j))) :
    Φ (finalizeDistroKidSnapshot job) := by
  refine h.bind (h.routine rfl) fun _ => h.bind (h.read rfl) fun createdAt =>
    h.bind (hclaim _ _) fun winning => ?_
  rcases winning with ⟨j, createdAt', reason⟩ | ⟨createdAt', reason⟩
  · refine h.bind (h.read rfl) fun progress => h.bind ?_ fun _ => hrelease _
    split
    · exact hlog _
    · exact h.bind (h.routine rfl) fun outcomes => h.bind (hpersist _ _) fun _ =>
        h.bind (h.read rfl) fun _ => h.bind (h.read rfl) fun _ => hput _ rfl
  · exact h.ret _

/-! ### What runs the stages -/

theorem markHandled {entry : Entry} {stage : String}
    (hupdate : ∀ id p, Φ (await (.updateProgress id p))) :
    Φ (markTerminalFailureHandled entry stage) :=
  h.bind (h.read rfl) fun _ => hupdate _ _

theorem runPipelineStage {pid : ℕ} {entry : Entry} (hresume : Φ (resumeTerminalFinalizer entry.job.ref))
    (hproc : Φ (processor env pid entry.job))
    (hterm : ∀ stage e, Φ (terminalizeDistroKidFailure entry.job stage e))
    (hupdate : ∀ id p, Φ (await (.updateProgress id p))) : Φ (runPipelineStage env pid entry) := by
  refine h.bind ?_ fun resumed => ?_
  · split
    · exact h.ret _
    · exact hresume
  · split
    · exact h.ret _
    · refine h.handle hproc fun stageError => ?_
      split
      · exact h.raise _
      · split
        · refine h.bind (h.attempt (hterm _ _)) fun winning => ?_
          cases winning with
          | error e => exact h.raise _
          | ok winning => exact h.bind (h.settle (h.markHandled hupdate)) fun _ => h.raise _
        · exact h.raise _

theorem retryFinalizer {entry : Entry} {stats : FailedRecoveryStats}
    (hupdate : ∀ id p, Φ (await (.updateProgress id p))) :
    Φ (retryFinalizer entry stats) := by
  refine h.bind (h.read rfl) fun now => ?_
  split
  · exact h.ret _
  · exact h.bind (h.read rfl) fun _ => h.bind (hupdate _ _) fun _ => h.bind (h.routine rfl) fun _ => h.ret _

/-- The sweep of the failed ledger, for jobs of which `K` is known. -/
theorem recoverFailedOf {K : StageJob → Prop}
    (hfailed : ∀ {β : Type} (queue : String) (f : Except PipelineError (List Entry) → Pipe β),
      (∀ entries, (∀ entry ∈ entries, K entry.job) → Φ (f (.ok entries))) → (∀ e, Φ (f (.error e))) →
      Φ ((await (.getFailed queue)).attempt >>= f))
    (hterm : ∀ job stage e, K job → Φ (terminalizeDistroKidFailure job stage e))
    (hupdate : ∀ id p, Φ (await (.updateProgress id p))) :
    Φ recoverFailedDistroKidJobs := by
  have hjob : ∀ queue entry stats, K entry.job → Φ (recoverFailedJob queue entry stats) := by
    intro queue entry stats hk
    unfold recoverFailedJob
    split
    · exact h.bind (h.routine rfl) fun _ => h.ret _
    · split
      · exact h.retryFinalizer hupdate
      · split
        · exact h.ret _
        · exact h.bind (h.discard (hterm _ _ _ hk)) fun _ =>
            h.bind (h.markHandled hupdate) fun _ => h.ret _
  have hentries : ∀ queue entries stats, (∀ entry ∈ entries, K entry.job) →
      Φ (recoverFailedEntries recoverFailedJob queue entries stats) := by
    intro queue entries
    induction entries with
    | nil => exact fun stats _ => h.ret _
    | cons entry entries ih =>
      intro stats hk
      have hhead : K entry.job := hk entry List.mem_cons_self
      have htail : ∀ e ∈ entries, K e.job := fun e he => hk e (List.mem_cons_of_mem _ he)
      exact h.bind (h.handle (hjob _ _ _ hhead) fun _ => h.ret _) fun stats => ih stats htail
  have hqueues : ∀ queues stats,
      Φ (recoverFailedQueues (fun queue => await (.getFailed queue)) recoverFailedJob queues stats) := by
    intro queues
    induction queues with
    | nil => exact fun stats => h.ret _
    | cons queue queues ih =>
      intro stats
      refine hfailed queue _ (fun entries hk => ?_) fun e => ?_
      · exact h.bind (hentries _ _ _ hk) ih
      · exact h.bind (h.ret _) ih
  exact hqueues _ _

theorem recoverFailed (hterm : ∀ job stage e, Φ (terminalizeDistroKidFailure job stage e))
    (hupdate : ∀ id p, Φ (await (.updateProgress id p))) :
    Φ recoverFailedDistroKidJobs := by
  refine h.recoverFailedOf (K := fun _ => True) (fun queue f hok herr => ?_)
    (fun job stage e _ => hterm job stage e) hupdate
  refine h.bind (h.attempt (h.read rfl)) fun jobs => ?_
  cases jobs with
  | error e => exact herr e
  | ok entries => exact hok entries fun _ _ => trivial

end StageProperty

/-! ### Around the verdict -/

/-- Whoever is answered a verdict leaves the decided one to its finalizer. -/
structure HandsOver (Ψ : ∀ {α : Type}, Pipe α → Prop) {α : Type}
    (f : SnapshotTerminalTombstone → Pipe α) : Prop where
  cancelled : ∀ createdAt reason, Ψ (f (.cancelled createdAt reason))
  terminal : ∀ job createdAt reason, ∃ (before : Pipe Unit) (a : α), Ψ before ∧
    f (.terminal job createdAt reason) =
      (before >>= fun _ => deps.enqueue (.finalize job) 0 >>= fun _ => Prog.ret a)

/-- The tombstone may be claimed, and the winning one handed over. -/
def Claims (Ψ : ∀ {α : Type}, Pipe α → Prop) (t : SnapshotTerminalTombstone) : Prop :=
  ∀ {α : Type} {f : SnapshotTerminalTombstone → Pipe α}, HandsOver Ψ f → Ψ (store.claimTerminal t >>= f)

/-- A property of stage code that may rest on the verdict that was read. -/
structure VerdictProperty (Ψ : ∀ {α : Type}, Pipe α → Prop) : Prop extends StageProperty Ψ where
  getTerminal : ∀ {α : Type} {f : Option SnapshotTerminalTombstone → Pipe α}, Ψ (f none) →
    HandsOver Ψ (fun t => f (some t)) → Ψ (store.getTerminal >>= f)

theorem StageProperty.handsOver {Ψ : ∀ {α : Type}, Pipe α → Prop} (h : StageProperty Ψ) {α : Type}
    {f : SnapshotTerminalTombstone → Pipe α}
    (hcancelled : ∀ createdAt reason, Ψ (f (.cancelled createdAt reason)))
    (hterminal : ∀ job createdAt reason, ∃ a, f (.terminal job createdAt reason) =
      (deps.enqueue (.finalize job) 0 >>= fun _ => Prog.ret a)) : HandsOver Ψ f where
  cancelled := hcancelled
  terminal job createdAt reason := by
    obtain ⟨a, ha⟩ := hterminal job createdAt reason
    exact ⟨pure (), a, h.ret _, ha⟩

namespace VerdictProperty

-- `Ψ` is what the code has once its checkpoint is bound, `Φ` what it has from its start.
variable {Ψ Φ : ∀ {α : Type}, Pipe α → Prop} (h : VerdictProperty Ψ) {env : Env} {job : SnapshotRef}
include h

theorem resume (hbind : ∀ {α : Type} {p : Pipe α}, Ψ p → Φ (bindCheckpoint job >>= fun _ => p)) :
    Φ (resumeTerminalFinalizer job) :=
  hbind <| h.getTerminal (h.ret _) <| h.handsOver (fun _ _ => h.ret _) fun _ _ _ => ⟨true, rfl⟩

theorem reconcile {job : ReconcileJob}
    (hbind : ∀ {α : Type} {p : Pipe α}, Ψ p → Φ (bindCheckpoint job.toSnapshotRef >>= fun _ => p))
    (hretry : ∀ j d, j.toSnapshotRef = refOf job.toSnapshotRef ∧
      j.attempt = job.pass.getD INITIAL_PASS + 1 ∧ j.attempt ≤ DISTROKID_MAX_ATTEMPTS →
      Ψ (await (.enqueue (.retry j) d)))
    (hclaim : ∀ result createdAt, Claims Ψ (reconciledVerdict job result createdAt)) :
    Φ (reconcileDistroKidSnapshot env job) := by
  refine hbind (h.getTerminal ?_ (h.handsOver (fun _ _ => ?_) fun _ _ _ => ⟨_, rfl⟩))
  · refine h.bind (h.assertPipelineDeadline _) fun _ => h.bind (h.read rfl) fun index =>
      h.bind (h.routine rfl) fun outcomes => ?_
    dsimp only
    split
    · rename_i hmore
      exact h.bind (h.assertSnapshotCanContinue _) fun _ =>
        h.bind (hretry _ _ ⟨rfl, rfl, hmore.2⟩) fun _ => h.ret _
    · exact h.bind (h.read rfl) fun createdAt => hclaim _ _ <|
        h.handsOver (fun _ _ => h.ret _) fun _ _ _ => ⟨_, rfl⟩
  · exact h.bind (h.read rfl) fun _ => h.bind (h.routine rfl) fun _ => h.ret _

/-- The failed verdict may be reported before its finalizer is enqueued. -/
theorem handsOver_failed {job : StageJob} {stage : String} {error : PipelineError} :
    HandsOver Ψ fun winning => match winning with
      | .cancelled .. => (pure winning : Pipe SnapshotTerminalTombstone)
      | .terminal finalizeJob .. => do
        (if finalizeJob.status = .failed then deps.terminalFailure job.ref stage error else pure ())
        deps.enqueue (.finalize finalizeJob) 0
        pure winning where
  cancelled _ _ := h.ret _
  terminal _ _ _ := by
    refine ⟨_, _, ?_, rfl⟩
    split
    · exact h.read rfl
    · exact h.ret _

theorem terminalize {job : StageJob} {stage : String} {error : PipelineError}
    (hbind : ∀ {α : Type} {p : Pipe α}, Ψ p → Φ (bindCheckpoint job.ref >>= fun _ => p))
    (hclaim : ∀ index outcomes createdAt,
      Claims Ψ (failedVerdict job stage error index outcomes createdAt)) :
    Φ (terminalizeDistroKidFailure job stage error) :=
  hbind <| h.bind (h.read rfl) fun _ => h.bind (h.routine rfl) fun _ => h.bind (h.read rfl) fun _ =>
    hclaim _ _ _ h.handsOver_failed

/-- The sweep of one durable recovery envelope. -/
theorem recoverSnapshot {job : CatalogIndexJob}
    (hbind : ∀ {α : Type} {p : Pipe α}, Ψ p → Φ (bindCheckpoint job.toSnapshotRef >>= fun _ => p))
    (hindex : ∀ d, Ψ (await (.enqueue (.index job) d)))
    (hplan : ∀ j, j.toSnapshotRef = job.toSnapshotRef → Ψ (planDistroKidReleaseChunks env j))
    (hterm : ∀ stage e, Ψ (terminalizeDistroKidFailure (.index job) stage e)) :
    Φ (recoverSnapshot env job) := by
  have hexpire : Ψ (recoverSnapshot.expire job) := h.bind (h.discard (hterm _ _)) fun _ => h.ret _
  refine hbind (h.getTerminal ?_ (h.handsOver (fun _ _ => ?_) fun _ _ _ => ⟨_, rfl⟩))
  · dsimp only
    split
    · refine h.bind (h.read rfl) fun now => ?_
      split
      · exact hexpire
      · refine h.bind (h.read rfl) fun now' => ?_
        split
        · exact hexpire
        · refine h.bind (h.read rfl) fun index => h.bind (h.read rfl) fun progress => ?_
          split
          · exact h.bind (hindex _) fun _ => h.ret _
          · exact h.bind (h.discard (hplan _ rfl)) fun _ => h.ret _
    · exact hexpire
  · exact h.bind (h.read rfl) fun _ => h.bind (h.read rfl) fun _ => h.ret _

end VerdictProperty

namespace StageProperty

-- Where enqueuing a finalizer has the property, so has handing one over.
variable {Φ : ∀ {α : Type}, Pipe α → Prop} (h : StageProperty Φ) {env : Env}
include h

theorem of_handsOver (hfin : ∀ j d, Φ (await (.enqueue (.finalize j) d))) {α : Type}
    {f : SnapshotTerminalTombstone → Pipe α} (hf : HandsOver Φ f) (t : SnapshotTerminalTombstone) :
    Φ (f t) := by
  cases t with
  | cancelled createdAt reason => exact hf.cancelled createdAt reason
  | terminal job createdAt reason =>
    obtain ⟨before, a, hbefore, he⟩ := hf.terminal job createdAt reason
    rw [he]
    exact h.bind hbefore fun _ => h.bind (hfin _ _) fun _ => h.ret _

theorem claims (hfin : ∀ j d, Φ (await (.enqueue (.finalize j) d))) {t : SnapshotTerminalTombstone}
    (hclaim : Φ (await (.claimTerminal t))) : Claims Φ t :=
  fun hf => h.bind hclaim (h.of_handsOver hfin hf)

theorem verdictProperty (hfin : ∀ j d, Φ (await (.enqueue (.finalize j) d))) : VerdictProperty Φ where
  toStageProperty := h
  getTerminal hnone hf := h.bind (h.read rfl) fun terminal => by
    cases terminal with
    | none => exact hnone
    | some t => exact h.of_handsOver hfin hf t

theorem bindCheckpoint {job : SnapshotRef} {α : Type} {p : Pipe α} (hp : Φ p) :
    Φ (bindCheckpoint job >>= fun _ => p) :=
  h.bind (h.routine rfl) fun _ => hp

theorem resume (hfin : ∀ j d, Φ (await (.enqueue (.finalize j) d))) (job : SnapshotRef) :
    Φ (resumeTerminalFinalizer job) :=
  (h.verdictProperty hfin).resume h.bindCheckpoint

theorem reconcile {job : ReconcileJob}
    (hretry : ∀ j d, j.attempt = job.pass.getD INITIAL_PASS + 1 ∧ j.attempt ≤ DISTROKID_MAX_ATTEMPTS →
      Φ (await (.enqueue (.retry j) d)))
    (hclaim : ∀ t, Φ (await (.claimTerminal t)))
    (hfin : ∀ j d, Φ (await (.enqueue (.finalize j) d))) :
    Φ (reconcileDistroKidSnapshot env job) :=
  (h.verdictProperty hfin).reconcile h.bindCheckpoint
    (fun j d hj => hretry j d hj.2) fun _ _ => h.claims hfin (hclaim _)

theorem terminalize {job : StageJob} {stage : String} {error : PipelineError}
    (hclaim : ∀ t, Φ (await (.claimTerminal t)))
    (hfin : ∀ j d, Φ (await (.enqueue (.finalize j) d))) :
    Φ (terminalizeDistroKidFailure job stage error) :=
  (h.verdictProperty hfin).terminalize h.bindCheckpoint
    fun _ _ _ => h.claims hfin (hclaim _)

/-- The sweep of one durable recovery envelope. -/
theorem recover {job : CatalogIndexJob} (hfin : ∀ j d, Φ (await (.enqueue (.finalize j) d)))
    (hindex : ∀ j d, Φ (await (.enqueue (.index j) d)))
    (hplan : ∀ j, Φ (planDistroKidReleaseChunks env j))
    (hterm : ∀ job stage e, Φ (terminalizeDistroKidFailure job stage e)) :
    Φ (recoverDurableDistroKidSnapshots env job) :=
  h.settle <| h.discard <| (h.verdictProperty hfin).recoverSnapshot h.bindCheckpoint
    (hindex _) (fun j _ => hplan j) (hterm _)

/-- The processes, by what they run. -/
theorem code {d : Delivery} (hresume : ∀ job, Φ (resumeTerminalFinalizer job))
    (hproc : ∀ job, d.work.job? = some job → Φ (processor env d.pid job))
    (hterm : ∀ job stage e, Φ (terminalizeDistroKidFailure job stage e))
    (hcancel : ∀ job reason, d.work = .cancel job reason → Φ (cancelDistroKidSnapshot job reason))
    (hrecover : ∀ job, d.work = .recover job → Φ (recoverDurableDistroKidSnapshots env job))
    (hcheckpoint : ∀ delivery job batch, d.work = .checkpoint delivery job batch →
      Φ (Distrokid.onCheckpoint env delivery job batch))
    (hupdate : ∀ id p, Φ (await (.updateProgress id p))) : Φ (code env d) := by
  obtain ⟨pid, work⟩ := d
  cases work with
  | stage job => exact hproc job rfl
  | terminalize job stage error => exact h.discard (hterm job stage error)
  | cancel job reason => exact h.discard (hcancel job reason rfl)
  | recover job => exact hrecover job rfl
  | checkpoint delivery job batch => exact hcheckpoint delivery job batch rfl
  | attempt entry =>
    exact h.runPipelineStage (hresume _) (hproc _ rfl) (fun _ _ => hterm _ _ _) hupdate
  | sweepFailed => exact h.discard (h.recoverFailed hterm hupdate)

end StageProperty

/-! ### Outside the work of a stage -/

/-- Browser work, what a chunk makes of it, and the marks of an entry. -/
def Op.isWork : Op → Bool
  | readCatalogIndex _ => true
  | openExisting => true
  | extractChunk .. => true
  | converge .. => true
  | putOutcomes _ => true
  | updateProgress .. => true
  | _ => false

theorem Op.isWork_of_isRoutine {o : Op} (h : o.isRoutine) : o.isWork = false := by
  cases o <;> first | rfl | cases h

/-- A property that every operation has but such work. -/
structure OutsideProperty (Φ : ∀ {α : Type}, Pipe α → Prop) : Prop extends StageProperty Φ where
  outside : ∀ {o : Op}, o.isWork = false → Φ (await o)
  routine := fun ho => outside (Op.isWork_of_isRoutine ho)

namespace OutsideProperty

variable {Φ : ∀ {α : Type}, Pipe α → Prop} (h : OutsideProperty Φ) {env : Env} {α : Type}
include h

theorem resume (job : SnapshotRef) : Φ (resumeTerminalFinalizer job) :=
  h.toStageProperty.resume (fun _ _ => h.outside rfl) job

theorem unlessTerminal {job : SnapshotRef} {stopped : α} {rest : Pipe α} (hrest : Φ rest) :
    Φ (unlessTerminal env job stopped rest) :=
  h.toCheckProperty.unlessTerminal (h.resume job) hrest

theorem plan (job : PlanChunksJob) : Φ (planDistroKidReleaseChunks env job) :=
  h.unlessTerminal <| h.planChunks (fun _ => h.outside rfl)
    (fun _ => h.markRunning fun _ _ => h.outside rfl) (fun _ _ _ => h.outside rfl)
    fun _ _ _ => h.outside rfl

theorem terminalize (job : StageJob) (stage : String) (error : PipelineError) :
    Φ (terminalizeDistroKidFailure job stage error) :=
  h.toStageProperty.terminalize (fun _ => h.outside rfl) fun _ _ => h.outside rfl

theorem recover (job : CatalogIndexJob) : Φ (recoverDurableDistroKidSnapshots env job) :=
  h.toStageProperty.recover (fun _ _ => h.outside rfl) (fun _ _ => h.outside rfl) h.plan h.terminalize

/-- The stages, by the two that work in the browser. -/
theorem processor {pid : ℕ} {job : StageJob}
    (hindex : ∀ j, job = .index j → Φ (extractDistroKidCatalogIndex env j))
    (hchunk : ∀ j, job = .chunk j → Φ (extractDistroKidReleaseChunk env pid j)) :
    Φ (processor env pid job) := by
  cases job with
  | index job => exact h.discard (hindex job rfl)
  | plan job => exact h.discard (h.plan job)
  | chunk job => exact h.discard (hchunk job rfl)
  | retry job =>
    exact h.discard (h.unlessTerminal (h.retryFailed (fun _ => h.outside rfl)
      (fun _ _ _ => h.outside rfl) fun _ _ _ => h.outside rfl))
  | reconcile job =>
    exact h.discard (h.reconcile (fun _ _ _ => h.outside rfl) (fun _ => h.outside rfl)
      fun _ _ => h.outside rfl)
  | finalize job =>
    exact h.finalize (fun _ _ => h.outside rfl) (fun _ _ => h.outside rfl) (fun _ _ => h.outside rfl)
      (fun _ => h.outside rfl) fun _ => h.outside rfl

/-- The processes, by the stage, the checkpoint and the marks. -/
theorem code {d : Delivery} (hproc : ∀ job, d.work.job? = some job → Φ (Distrokid.processor env d.pid job))
    (hcheckpoint : ∀ delivery job batch, d.work = .checkpoint delivery job batch →
      Φ (onCheckpoint env delivery job batch))
    (hupdate : ∀ id p, Φ (await (.updateProgress id p))) : Φ (code env d) :=
  h.toStageProperty.code h.resume hproc h.terminalize (fun _ _ _ => h.cancel fun _ => h.outside rfl)
    (fun job _ => h.recover job) hcheckpoint hupdate

end OutsideProperty

end CatalogSentinel.Distrokid
