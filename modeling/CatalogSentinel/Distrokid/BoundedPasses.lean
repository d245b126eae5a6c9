import CatalogSentinel.Concurrent.Sequential
import CatalogSentinel.Distrokid.Verdict

/-!
The passes of a snapshot are bounded. What a stage schedules follows from its own
job: a reconciliation schedules the next pass while there is one left, and every
other stage hands its pass on. A reconciliation with no pass left ends in the
snapshot's tombstone.
-/

namespace CatalogSentinel.Distrokid

open CatalogSentinel.Data CatalogSentinel.Concurrent SnapshotState

/-- The pass that a job belongs to; the first stages open the first pass. -/
def StageJob.passNumber : StageJob → ℕ
  | .chunk job => job.pass.getD INITIAL_PASS
  | .retry job => job.attempt
  | .reconcile job => job.pass.getD INITIAL_PASS
  | .finalize job => job.pass.getD INITIAL_PASS
  | _ => INITIAL_PASS

/-- What a stage may schedule, and with which pass. -/
def StageJob.Schedules : StageJob → StageJob → Prop
  | .reconcile job, .retry next =>
    next.attempt = job.pass.getD INITIAL_PASS + 1 ∧ next.attempt ≤ DISTROKID_MAX_ATTEMPTS
  | .retry job, .chunk next => next.pass = some job.attempt
  | .retry job, .reconcile next => next.pass = some job.attempt
  | .chunk job, .chunk next => next.pass.getD INITIAL_PASS = job.pass.getD INITIAL_PASS
  | .chunk job, .reconcile next => next.pass.getD INITIAL_PASS = job.pass.getD INITIAL_PASS
  | .plan _, .chunk next => next.pass = some INITIAL_PASS
  | .plan _, .reconcile next => next.pass = some INITIAL_PASS
  | .index _, .plan _ => True
  | _, .finalize _ => True
  | _, _ => False

/-- What a process may schedule: a recovery sweep resumes a snapshot with its index or its
first pass, the others only end it. -/
def Work.Schedules (work : Work) (next : StageJob) : Prop :=
  match work.job?, work, next with
  | some job, _, next => job.Schedules next
  | none, .recover _, .index _ => True
  | none, .recover _, .chunk next => next.pass = some INITIAL_PASS
  | none, .recover _, .reconcile next => next.pass = some INITIAL_PASS
  | none, _, .finalize _ => True
  | none, _, _ => False

/-! ### What the code of each process schedules -/

variable {env : Env}

/-- The operation enqueues nothing but such jobs. -/
def Op.Enqueues (next : StageJob → Prop) : Op → Prop
  | .enqueue job _ => next job
  | _ => True

/-- Every job that the program may enqueue is such a job. -/
def Enqueues (next : StageJob → Prop) {α : Type} (p : Pipe α) : Prop :=
  p.Calls fun o : Op => o.Enqueues next

variable {next : StageJob → Prop}

theorem Op.enqueues_of_isRoutine {o : Op} (ho : o.isRoutine) : o.Enqueues next := by
  cases o <;> trivial

theorem enqueues : StageProperty fun {α} (p : Pipe α) => Enqueues next p where
  toCompositional := Prog.compositional_calls _
  routine ho := Prog.calls_call (Op.enqueues_of_isRoutine ho)

theorem enqueues_await {o : Op} (ho : o.Enqueues next) : Enqueues next (await o) :=
  Prog.calls_call ho

theorem enqueues_resume (hfin : ∀ j, next (.finalize j)) (job : SnapshotRef) :
    Enqueues next (resumeTerminalFinalizer job) :=
  (enqueues).resume (fun j _ => enqueues_await (hfin j)) job

theorem enqueues_plan (hfin : ∀ j, next (.finalize j))
    (hchunk : ∀ j : ReleaseChunkJob, j.pass = some INITIAL_PASS → next (.chunk j))
    (hrec : ∀ j : ReconcileJob, j.pass = some INITIAL_PASS → next (.reconcile j))
    (job : PlanChunksJob) : Enqueues next (planDistroKidReleaseChunks env job) :=
  (enqueues).unlessTerminal (enqueues_resume hfin _) <| (enqueues).planChunks
    (fun _ => enqueues_await trivial) (fun _ => (enqueues).markRunning fun _ _ => enqueues_await trivial)
    (fun j _ hj => enqueues_await (hchunk j hj.2)) fun j _ hj => enqueues_await (hrec j hj.2)

theorem enqueues_terminalize (hfin : ∀ j, next (.finalize j)) (job : StageJob) (stage : String)
    (error : PipelineError) : Enqueues next (terminalizeDistroKidFailure job stage error) :=
  (enqueues).terminalize (fun _ => enqueues_await trivial) fun j _ => enqueues_await (hfin j)

theorem enqueues_chunk (pid : ℕ) (job : ReleaseChunkJob) :
    Enqueues (StageJob.chunk job).Schedules (extractDistroKidReleaseChunk env pid job) := by
  have hsame : ∀ pass : Option ℕ, pass = some (job.pass.getD INITIAL_PASS) →
      pass.getD INITIAL_PASS = job.pass.getD INITIAL_PASS := by
    rintro _ rfl
    rfl
  refine (enqueues).unlessTerminal (enqueues_resume (fun _ => trivial) _)
    ((enqueues).withAccountLock ((enqueues).deferChunk fun j _ hj => enqueues_await ?_) ((enqueues).chunkWork
        (enqueues_await trivial) (fun _ => enqueues_await trivial) (fun _ => enqueues_await trivial)
        (fun _ => enqueues_await trivial) (fun _ _ => enqueues_await trivial)
        (fun _ => enqueues_await trivial) (fun j _ hj => enqueues_await (hsame _ hj.2))
        fun j _ hj => enqueues_await (hsame _ hj.2)))
  show j.pass.getD INITIAL_PASS = job.pass.getD INITIAL_PASS
  rw [hj.2]

theorem enqueues_processor (pid : ℕ) (job : StageJob) :
    Enqueues job.Schedules (processor env pid job) := by
  cases job with
  | index job =>
    exact (enqueues).discard ((enqueues).unlessTerminal (enqueues_resume (fun _ => trivial) _)
      ((enqueues).withAccountLock ((enqueues).raise _) ((enqueues).catalogIndexWork (enqueues_await trivial)
          (fun _ => enqueues_await trivial) (fun _ _ => enqueues_await trivial)
          fun _ _ _ => enqueues_await trivial)))
  | plan job =>
    exact (enqueues).discard (enqueues_plan (fun _ => trivial) (fun _ hj => hj) (fun _ hj => hj) job)
  | chunk job => exact (enqueues).discard (enqueues_chunk pid job)
  | retry job =>
    exact (enqueues).discard ((enqueues).unlessTerminal (enqueues_resume (fun _ => trivial) _)
      ((enqueues).retryFailed (fun _ => enqueues_await trivial)
        (fun _ _ hj => enqueues_await hj.2) fun _ _ hj => enqueues_await hj.2))
  | reconcile job =>
    exact (enqueues).discard ((enqueues).reconcile (fun _ _ hj => enqueues_await hj) (fun _ => enqueues_await trivial)
      fun _ _ => enqueues_await trivial)
  | finalize job =>
    exact (enqueues).finalize (fun _ _ => enqueues_await trivial) (fun _ _ => enqueues_await trivial)
      (fun _ _ => enqueues_await trivial) (fun _ => enqueues_await trivial)
      fun _ => enqueues_await trivial

theorem Work.schedules_finalize (work : Work) (j : FinalizeJob) : work.Schedules (.finalize j) := by
  rcases work with job | _ | _ | _ | _ | ⟨_, job⟩ | _
  case stage | attempt => cases job <;> trivial
  all_goals trivial

theorem enqueues_code (d : Delivery) : Enqueues d.work.Schedules (code env d) := by
  have hfin := d.work.schedules_finalize
  refine (enqueues).code (enqueues_resume hfin) (fun job hjob => ?_) (enqueues_terminalize hfin)
    (fun _ _ _ => (enqueues).cancel fun _ => enqueues_await trivial) (fun job hwork => ?_)
    (fun _ _ _ _ => (enqueues).onCheckpoint (fun _ => enqueues_await trivial) fun _ => enqueues_await trivial)
    fun _ _ => enqueues_await trivial
  · have hnext : d.work.Schedules = job.Schedules := by
      funext next
      simp only [Work.Schedules, hjob]
    rw [hnext]
    exact enqueues_processor d.pid job
  · rw [hwork] at hfin ⊢
    exact (enqueues).recover (fun j _ => enqueues_await (hfin j)) (fun _ _ => enqueues_await trivial)
      (enqueues_plan hfin (fun _ hj => hj) fun _ hj => hj) (enqueues_terminalize hfin)

/-! ### The last reconciliation ends in the tombstone -/

variable {allowed : SnapshotState → Work → Bool} {t : Delivery}

/-- The tombstone is recorded where a reconciliation without another pass has returned. -/
def Recorded (t : Delivery) (r : Except PipelineError Unit) (s : SnapshotState) : Prop :=
  r = .ok () → ∀ job, t.work.job? = some (.reconcile job) →
    DISTROKID_MAX_ATTEMPTS ≤ job.pass.getD INITIAL_PASS → s.terminal.isSome = true

theorem lasting_isSome :
    (verdict env allowed).Lasting fun s => s.terminal.isSome = true := by
  intro s s' hg h
  obtain ⟨x, hx⟩ := Option.isSome_iff_exists.1 h
  exact Option.isSome_iff_exists.2 ⟨x, hg.terminal x hx⟩

theorem records_reconcile {job : ReconcileJob}
    (hpass : DISTROKID_MAX_ATTEMPTS ≤ job.pass.getD INITIAL_PASS) :
    (verdict env allowed).Triple t (fun _ => True) (reconcileDistroKidSnapshot env job)
      (fun _ s => s.terminal.isSome = true) (fun _ _ => True) := by
  have htrue : (verdict env allowed).Lasting fun _ => True := Contract.lasting_pure True
  have hret : ∀ a : ReconcileResult, (verdict env allowed).Triple t
      (fun s => s.terminal.isSome = true) (Prog.ret a : Pipe ReconcileResult)
      (fun _ s => s.terminal.isSome = true) (fun _ _ => True) :=
    fun a => Contract.triple_ret (lasting_isSome.stable t) fun _ _ h => h
  have hfin : ∀ j createdAt reason (a : ReconcileResult), (verdict env allowed).Triple t
      (fun s => s.terminal = some (.terminal j createdAt reason))
      (deps.enqueue (.finalize j) 0 >>= fun _ => Prog.ret a)
      (fun _ s => s.terminal.isSome = true) (fun _ _ => True) := by
    intro j createdAt reason a
    refine Contract.Triple.bind (Q := fun _ s => s.terminal.isSome = true) ?_ fun _ => hret a
    refine ((upholds_enqueueWinning 0).frame lasting_isSome).consequence
      (fun s _ h => ⟨h, by rw [h]; rfl⟩) (fun _ _ _ h => h.2) fun _ _ _ h => h.1
  refine (upholds_await rfl).bind fun _ =>
    (triple_getTerminal failing_true htrue lasting_terminal).bind fun prior => ?_
  rcases prior with _ | ⟨j, createdAt, reason⟩ | ⟨createdAt, reason⟩
  · refine Contract.Triple.pre ?_ fun _ _ _ => trivial
    refine ((upholds).assertPipelineDeadline _).bind fun _ => (upholds_await rfl).bind fun index =>
      (upholds_await rfl).bind fun outcomes => ?_
    dsimp only
    split
    · rename_i hmore
      omega
    · refine (upholds_await rfl).bind fun createdAt => (triple_claimTerminal _).bind fun winning => ?_
      rcases winning with ⟨j, createdAt', reason⟩ | ⟨createdAt', reason⟩
      · exact hfin j createdAt' reason _
      · exact (hret _).pre fun s _ h => by rw [h]; rfl
  · exact (hfin j createdAt reason _).pre fun s _ h => h.2 _ rfl
  · have hset : (verdict env allowed).Lasting fun s => s.terminal.isSome = true := lasting_isSome
    refine Contract.Triple.pre (?_ : Contract.Triple _ t (fun s => s.terminal.isSome = true) _ _ _)
      fun s _ h => by rw [h.2 _ rfl]; rfl
    exact (triple_await failing_true hset (calm_indecisive rfl)).bind fun _ =>
      (triple_await failing_true hset (calm_indecisive rfl)).bind fun _ => hret _

theorem records_processor (pid : ℕ) {job : ReconcileJob}
    (hpass : DISTROKID_MAX_ATTEMPTS ≤ job.pass.getD INITIAL_PASS) :
    (verdict env allowed).Triple t (fun _ => True) (processor env pid (.reconcile job))
      (fun _ s => s.terminal.isSome = true) (fun _ _ => True) :=
  (records_reconcile hpass).bind fun _ =>
    Contract.triple_ret (lasting_isSome.stable t) fun _ _ h => h

/-- An attempt returns with its stage, and throws whatever it does about a failed one. -/
theorem records_attempt (pid : ℕ) {entry : Entry} {job : ReconcileJob}
    (hjob : entry.job = .reconcile job)
    (hpass : DISTROKID_MAX_ATTEMPTS ≤ job.pass.getD INITIAL_PASS) :
    (verdict env allowed).Triple t (fun _ => True) (runPipelineStage env pid entry)
      (fun _ s => s.terminal.isSome = true) (fun _ _ => True) := by
  have hraise : ∀ e, (verdict env allowed).Triple t (fun _ => True) (Prog.raise e : Pipe Unit)
      (fun _ s => s.terminal.isSome = true) (fun _ _ => True) :=
    fun e => Contract.triple_raise ((Contract.lasting_pure True).stable t) fun _ _ h => h
  have hresume : (verdict env allowed).Triple t (fun _ => True)
      (resumeTerminalFinalizer entry.job.ref)
      (fun stopped s => True ∧ (stopped = true → s.terminal.isSome)) (fun _ _ => True) :=
    triple_resumeTerminalFinalizer failing_true (Contract.lasting_pure True) lasting_terminal
      (fun _ => calm_indecisive rfl) (fun j createdAt reason => upholds_enqueueWinning 0) _
  unfold runPipelineStage
  rw [hjob] at hresume ⊢
  refine hresume.bind fun stopped => ?_
  cases stopped with
  | true =>
    exact (Contract.triple_ret (lasting_isSome.stable t) fun _ _ h => h).pre fun s _ h => h.2 rfl
  | false =>
    refine Contract.Triple.pre ((records_processor pid hpass).handle fun e => ?_) fun _ _ _ => trivial
    split
    · exact hraise e
    · split
      · refine (upholds_terminalize _ _ _).attempt.bind fun winning => ?_
        cases winning with
        | error e' => exact hraise _
        | ok winning =>
          refine Contract.Triple.bind (Q := fun _ _ => True) ?_ fun _ => hraise e
          exact (upholds).settle ((upholds).markHandled fun _ _ => upholds_await rfl)
      · exact hraise e

theorem recorded_code (t : Delivery) (s : SnapshotState) (hs : VerdictInv s) :
    (verdict env allowed).Safe t (Recorded t) (code env t) s := by
  by_cases hlast : ∃ job, t.work.job? = some (.reconcile job) ∧
      DISTROKID_MAX_ATTEMPTS ≤ job.pass.getD INITIAL_PASS
  · obtain ⟨job, hjob, hpass⟩ := hlast
    have hcode : (verdict env allowed).Triple t (fun _ => True) (code env t)
        (fun _ s => s.terminal.isSome = true) (fun _ _ => True) := by
      obtain ⟨pid, work⟩ := t
      cases work with
      | stage job' =>
        obtain rfl := Option.some.inj hjob
        exact records_processor pid hpass
      | attempt entry => exact records_attempt pid (Option.some.inj hjob) hpass
      | _ => cases hjob
    refine (hcode s hs trivial trivial).mono fun r s' _ hr => ?_
    intro hok _ _ _
    subst hok
    exact hr
  · refine (upholds_code t s hs trivial trivial).mono fun r s' _ _ hok job hjob hpass => ?_
    exact absurd ⟨job, hjob, hpass⟩ hlast

/-! ### Left alone, an attempt of the last reconciliation ends in the tombstone -/

/-- The call does not fail. -/
def Unfailing (_ : Op) : Choice → Prop
  | .lost _ => False
  | .torn _ => False
  | _ => True

section Alone

variable {α : Type} {s s' : SnapshotState}

abbrev Finishes (env : Env) (allowed : SnapshotState → Work → Bool) (t : Delivery)
    (Q : Except PipelineError α → SnapshotState → Prop) (p : Pipe α) (s : SnapshotState) : Prop :=
  System.Finishes (pipelineSystem env (anyOrder allowed)) t Unfailing Q p s

/-- An await that the state settles. -/
theorem finishes_settled {o : Op} {Q : Except PipelineError o.Ans → SnapshotState → Prop}
    {r : Except PipelineError o.Ans} (heffect : effect env t s o = some (r, s'))
    (hanswer : ∀ c, answer env o c = none) (h : Q r s') :
    Finishes env allowed t Q (await o) s := by
  refine System.finishes_call ⟨.done, _, trivial, heffect⟩ fun c r' v hc hp => ?_
  cases c with
  | done =>
    have heq : some (r', v) = some (r, s') := hp.symm.trans heffect
    cases heq
    exact h
  | lost e => cases hc
  | torn e => cases hc
  | _ => simp [pipelineSystem, perform, hanswer] at hp

/-- An await that the environment answers. -/
theorem finishes_answered {o : Op} {Q : Except PipelineError o.Ans → SnapshotState → Prop}
    (heffect : effect env t s o = none)
    (hsome : ∃ c r, Unfailing o c ∧ perform env t s o c = some r) (h : ∀ a, Q (.ok a) s) :
    Finishes env allowed t Q (await o) s := by
  refine System.finishes_call hsome fun c r' v hc hp => ?_
  cases c with
  | done => exact absurd (heffect.symm.trans hp) (by simp)
  | lost e => cases hc
  | torn e => cases hc
  | _ =>
    obtain ⟨a, -, heq⟩ := Option.map_eq_some_iff.1 hp
    cases heq
    exact h a

theorem finishes_now {Q : Except PipelineError ℤ → SnapshotState → Prop} (h : ∀ a, Q (.ok a) s) :
    Finishes env allowed t Q deps.now s :=
  finishes_answered rfl ⟨.time 0, _, trivial, rfl⟩ h

theorem finishes_nowIso {Q : Except PipelineError String → SnapshotState → Prop}
    (h : ∀ a, Q (.ok a) s) : Finishes env allowed t Q deps.nowIso s :=
  finishes_answered rfl ⟨.stamp "", _, trivial, rfl⟩ h

/-- The snapshot is bound to the job's principal. -/
def BoundTo (job : SnapshotRef) (s : SnapshotState) : Prop := s.binding = some job.binding

theorem finishes_bind {job : SnapshotRef} {Q : Except PipelineError Unit → SnapshotState → Prop}
    (hs : s.binding.all (· = job.binding))
    (h : Q (.ok ()) { s with binding := some job.binding }) :
    Finishes env allowed t Q (bindCheckpoint job) s := by
  have heffect : effect env t s (.bindSnapshot job.binding) =
      some (.ok (), { s with binding := some job.binding }) := by
    simp only [effect]
    rw [if_pos hs]
  exact finishes_settled heffect (fun c => by cases c <;> rfl) h

theorem finishes_claim {x : SnapshotTerminalTombstone} (job : SnapshotRef)
    {Q : Except PipelineError SnapshotTerminalTombstone → SnapshotState → Prop}
    (hs : BoundTo job s)
    (h : ∀ winning v, v.terminal = some winning → BoundTo job v → Q (.ok winning) v) :
    Finishes env allowed t Q (store.claimTerminal x) s := by
  cases hterm : s.terminal with
  | some existing =>
    have heffect : effect env t s (.claimTerminal x) = some (.ok existing, s) := by
      simp only [effect, hterm]
    exact finishes_settled heffect (fun c => by cases c <;> rfl) (h existing s hterm hs)
  | none =>
    have heffect : effect env t s (.claimTerminal x) =
        some (.ok x, { s with terminal := some x }.note t (.claimed x)) := by
      simp only [effect, hterm]
    exact finishes_settled heffect (fun c => by cases c <;> rfl) (h x _ rfl hs)

theorem finishes_resume {job : SnapshotRef} {Q : Except PipelineError Bool → SnapshotState → Prop}
    (hs : s.binding.all (· = job.binding))
    (h : ∀ stopped v, BoundTo job v → (stopped = true → v.terminal.isSome = true) →
      (stopped = false → v.terminal = none) → Q (.ok stopped) v) :
    Finishes env allowed t Q (resumeTerminalFinalizer job) s := by
  refine System.Finishes.bind (finishes_bind hs ?_)
  refine System.Finishes.bind (finishes_settled rfl (fun c => by cases c <;> rfl) ?_)
  dsimp only
  cases hterm : s.terminal with
  | none => exact h false _ rfl (fun h => by cases h) fun _ => rfl
  | some x =>
    rcases x with ⟨j, createdAt, reason⟩ | ⟨createdAt, reason⟩
    · refine System.Finishes.bind (finishes_settled rfl (fun c => by cases c <;> rfl) ?_)
      exact h true _ rfl (fun _ => rfl) fun h => by cases h
    · exact h true _ rfl (fun _ => rfl) fun h => by cases h

theorem finishes_deadline {job : SnapshotRef} {Q : Except PipelineError Unit → SnapshotState → Prop}
    (hok : Q (.ok ()) s) (hfatal : ∀ e, isFatal e = true → Q (.error e) s) :
    Finishes env allowed t Q (assertPipelineDeadline env job) s := by
  unfold assertPipelineDeadline
  split
  · rename_i e he
    exact hfatal e (isFatal_of_deadlineMs he)
  · exact hok
  · refine System.Finishes.bind (finishes_now fun now => ?_)
    dsimp only
    split
    · exact hfatal _ rfl
    · exact hok

theorem finishes_reconcile {job : ReconcileJob}
    (hpass : DISTROKID_MAX_ATTEMPTS ≤ job.pass.getD INITIAL_PASS)
    {Q : Except PipelineError ReconcileResult → SnapshotState → Prop}
    (hs : BoundTo job.toSnapshotRef s) (hnone : s.terminal = none)
    (hok : ∀ a v, v.terminal.isSome = true → Q (.ok a) v)
    (hfatal : ∀ e v, isFatal e = true → BoundTo job.toSnapshotRef v → Q (.error e) v) :
    Finishes env allowed t Q (reconcileDistroKidSnapshot env job) s := by
  refine System.Finishes.bind (finishes_bind (by rw [hs]; simp) ?_)
  refine System.Finishes.bind (finishes_settled rfl (fun c => by cases c <;> rfl) ?_)
  simp only [hnone]
  refine System.Finishes.bind (finishes_deadline ?_ fun e he => hfatal e _ he rfl)
  refine System.Finishes.bind (finishes_settled rfl (fun c => by cases c <;> rfl) ?_)
  refine System.Finishes.bind (finishes_settled rfl (fun c => by cases c <;> rfl) ?_)
  dsimp only
  rw [if_neg fun h => by omega]
  refine System.Finishes.bind (finishes_nowIso fun createdAt => ?_)
  refine System.Finishes.bind (finishes_claim job.toSnapshotRef rfl fun winning v hv _ => ?_)
  have hsome : v.terminal.isSome = true := by rw [hv]; rfl
  rcases winning with ⟨j, createdAt', reason⟩ | ⟨createdAt', reason⟩
  · exact System.Finishes.bind (finishes_settled rfl (fun c => by cases c <;> rfl) (hok _ _ hsome))
  · exact hok _ _ hsome

/-- A terminalization that the principal admits claims the tombstone, and throws the
stage's error on. -/
theorem finishes_terminalizeAttempt {entry : Entry} {e : PipelineError}
    {Q : Except PipelineError Unit → SnapshotState → Prop}
    (hs : BoundTo entry.job.ref s) (h : ∀ v, v.terminal.isSome = true → Q (.error e) v) :
    Finishes env allowed t Q (terminalizeAttempt entry e) s := by
  refine System.Finishes.bind (System.Finishes.attempt ?_)
  refine System.Finishes.bind (finishes_bind (by rw [hs]; simp) ?_)
  refine System.Finishes.bind (finishes_settled rfl (fun c => by cases c <;> rfl) ?_)
  refine System.Finishes.bind (finishes_settled rfl (fun c => by cases c <;> rfl) ?_)
  refine System.Finishes.bind (finishes_nowIso fun createdAt => ?_)
  refine System.Finishes.bind (finishes_claim entry.job.ref rfl fun winning v hv _ => ?_)
  have hsome : v.terminal.isSome = true := by rw [hv]; rfl
  have hend : ∀ v : SnapshotState, v.terminal.isSome = true →
      Finishes env allowed t Q ((markTerminalFailureHandled entry entry.job.queue).settle >>=
        fun _ => throw e) v := by
    intro v hv
    refine System.Finishes.bind (System.Finishes.handle ?_)
    refine System.Finishes.bind (finishes_nowIso fun handledAt => ?_)
    exact finishes_settled rfl (fun c => by cases c <;> rfl) (h _ hv)
  rcases winning with ⟨j, createdAt', reason⟩ | ⟨createdAt', reason⟩
  · refine System.Finishes.bind ?_
    split
    · refine finishes_settled rfl (fun c => by cases c <;> rfl) ?_
      exact System.Finishes.bind (finishes_settled rfl (fun c => by cases c <;> rfl) (hend _ hsome))
    · exact System.Finishes.bind (finishes_settled rfl (fun c => by cases c <;> rfl) (hend _ hsome))
  · exact hend v hsome

theorem finishes_attempt {pid : ℕ} {entry : Entry} {job : ReconcileJob}
    (hjob : entry.job = .reconcile job)
    (hpass : DISTROKID_MAX_ATTEMPTS ≤ job.pass.getD INITIAL_PASS)
    (hs : s.binding.all (· = job.binding)) :
    Finishes env allowed t (fun _ v => v.terminal.isSome = true)
      (runPipelineStage env pid entry) s := by
  have href : entry.job.ref = job.toSnapshotRef := by rw [hjob]; rfl
  have hnot : entry.job.isFinalize = false := by rw [hjob]; rfl
  unfold runPipelineStage
  simp only [hnot, Bool.false_eq_true, if_false, href]
  refine System.Finishes.bind (finishes_resume hs fun stopped v hv hstop hgo => ?_)
  cases stopped with
  | true => exact hstop rfl
  | false =>
    refine System.Finishes.handle ?_
    rw [hjob]
    refine System.Finishes.bind (finishes_reconcile hpass hv (hgo rfl) (fun a v hv => hv) ?_)
    intro e v he hv
    have hshut : isShutdown e = false := by cases e <;> first | rfl | cases he
    simp only [hshut, he, Bool.false_eq_true, if_false, Bool.not_false, Bool.true_or, Bool.and_self,
      if_true]
    exact finishes_terminalizeAttempt (by rw [href]; exact hv) fun v hv => hv

end Alone

/-! ### Chains of scheduled jobs -/

/-- A process that runs a stage for `job` has enqueued `next`. -/
def ScheduledIn (log : List (Delivery × Event)) (job next : StageJob) : Prop :=
  ∃ d, (d, Event.enqueued next) ∈ log ∧ d.work.job? = some job

/-- A pass is handed on, or ends in a finalizer. -/
theorem StageJob.Schedules.passNumber {job next : StageJob} (h : job.Schedules next) :
    next.isFinalize = true ∨ job.isFinalize = false ∧ job.passNumber ≤ next.passNumber := by
  cases job <;> cases next <;> first | exact .inl rfl | exact h.elim | refine .inr ⟨rfl, ?_⟩
  case index.plan => exact le_rfl
  case plan.chunk job next | plan.reconcile job next =>
    simp only [Schedules] at h
    simp [StageJob.passNumber, h]
  case chunk.chunk | chunk.reconcile => exact h.ge
  case retry.chunk job next | retry.reconcile job next =>
    simp only [Schedules] at h
    simp [StageJob.passNumber, h]
  case reconcile.retry job next =>
    simp only [Schedules] at h
    simp only [StageJob.passNumber]
    omega

theorem StageJob.Schedules.reconcile {job : ReconcileJob} {next : StageJob}
    (h : (StageJob.reconcile job).Schedules next) :
    next.isFinalize = true ∨ job.pass.getD INITIAL_PASS < next.passNumber := by
  cases next <;> first | exact .inl rfl | exact h.elim | skip
  case retry next =>
    simp only [Schedules] at h
    simp only [StageJob.passNumber]
    omega

theorem Work.Schedules.of_job {work : Work} {job next : StageJob} (h : work.Schedules next)
    (hjob : work.job? = some job) : job.Schedules next := by
  unfold Work.Schedules at h
  rw [hjob] at h
  exact h

/-- Only a reconciliation schedules a retry. -/
theorem Work.Schedules.retry {work : Work} {next : RetryFailedJob}
    (h : work.Schedules (.retry next)) : ∃ job, work.job? = some (.reconcile job) ∧
      next.attempt = job.pass.getD INITIAL_PASS + 1 ∧ next.attempt ≤ DISTROKID_MAX_ATTEMPTS := by
  have hstage : ∀ job : StageJob, job.Schedules (.retry next) → ∃ r, job = .reconcile r ∧
      next.attempt = r.pass.getD INITIAL_PASS + 1 ∧ next.attempt ≤ DISTROKID_MAX_ATTEMPTS := by
    intro job hjob
    cases job <;> first | exact ⟨_, rfl, hjob⟩ | exact hjob.elim
  cases work with
  | stage job =>
    obtain ⟨r, rfl, hr⟩ := hstage job h
    exact ⟨r, rfl, hr⟩
  | attempt entry =>
    obtain ⟨r, hjob, hr⟩ := hstage entry.job h
    exact ⟨r, congrArg some hjob, hr⟩
  | _ => exact h.elim

section Chains

variable {log : List (Delivery × Event)}

/-- Every enqueued job follows from the work that enqueued it. -/
def Follows (log : List (Delivery × Event)) : Prop :=
  ∀ d next, (d, Event.enqueued next) ∈ log → d.work.Schedules next

theorem Follows.schedules (h : Follows log) {job next : StageJob}
    (hjob : ScheduledIn log job next) : job.Schedules next := by
  obtain ⟨d, hd, hj⟩ := hjob
  exact (h d next hd).of_job hj

/-- Along a chain of scheduled jobs that does not end in a finalizer, the pass never falls. -/
theorem Follows.chain (h : Follows log) {job last : StageJob}
    (hchain : Relation.ReflTransGen (ScheduledIn log) job last) (hlast : last.isFinalize = false) :
    job.isFinalize = false ∧ job.passNumber ≤ last.passNumber := by
  induction hchain using Relation.ReflTransGen.head_induction_on with
  | refl => exact ⟨hlast, le_rfl⟩
  | head hstep _ ih =>
    rcases (h.schedules hstep).passNumber with hfin | ⟨hnot, hle⟩
    · rw [ih.1] at hfin
      cases hfin
    · exact ⟨hnot, hle.trans ih.2⟩

/-- From one reconciliation to a later one of its chain, the pass rises. -/
theorem Follows.rises (h : Follows log) {job last : ReconcileJob}
    (hchain : Relation.TransGen (ScheduledIn log) (.reconcile job) (.reconcile last)) :
    job.pass.getD INITIAL_PASS < last.pass.getD INITIAL_PASS := by
  obtain ⟨next, hstep, hrest⟩ := Relation.TransGen.head'_iff.1 hchain
  obtain ⟨hnot, hle⟩ := h.chain hrest rfl
  rcases (h.schedules hstep).reconcile with hfin | hlt
  · rw [hnot] at hfin
    cases hfin
  · exact hlt.trans_le hle

end Chains

/-! ### Runs -/

/-- Every running program enqueues what follows from its work, and so has every other. -/
structure Scheduled (w : SnapshotWorld) : Prop where
  procs : ∀ q ∈ w.procs, Enqueues q.1.work.Schedules q.2
  log : Follows w.state.log

theorem Scheduled.step {w w' : SnapshotWorld} {m : Move Delivery Choice} (hw : Scheduled w)
    (h : (pipelineSystem env (anyOrder allowed)).step w m = some w') : Scheduled w' := by
  refine ⟨System.procs_invariant (J := fun (t : Delivery) (p : Pipe Unit) =>
    Enqueues t.work.Schedules p) enqueues_code (fun _ _ _ r hop => hop.2 r) hw.procs h, ?_⟩
  rcases step_anyOrder h with ⟨i, c, t, o, k, r, -, hi, hp⟩ | hsame
  · obtain ⟨es, hlog, hes⟩ := perform_log hp
    intro d next hmem
    rw [hlog] at hmem
    rcases List.mem_append.1 hmem with hmem | hmem
    · obtain ⟨e, he, heq⟩ := List.mem_map.1 hmem
      cases heq
      have hop : o.Enqueues t.work.Schedules := (hw.procs _ (List.mem_of_getElem? hi)).1
      have hev := hes _ he
      cases o <;> simp only [Op.logs, reduceCtorEq, or_self] at hev
      cases hev
      exact hop
    · exact hw.log d next hmem
  · exact fun d next hmem => hw.log d next (hsame.log ▸ hmem)

theorem scheduled_reaches {s : SnapshotState} (hs : s.log = []) {w : SnapshotWorld}
    (h : (pipelineSystem env (anyOrder allowed)).Reaches (World.idle s) w) : Scheduled w := by
  refine h.invariant (fun _ _ _ hw hstep => hw.step hstep) ⟨fun q hq => ?_, fun d next hmem => ?_⟩
  · cases hq
  · simp [World.idle, hs] at hmem

/-- Stages are delivered the jobs that were enqueued; the first stages may start by
themselves, and what finalizers are delivered does not matter. -/
def Delivered (s : SnapshotState) (work : Work) : Prop :=
  ∀ job, work.job? = some job → (∃ j, job = .index j) ∨ (∃ j, job = .plan j) ∨
    job.isFinalize = true ∨ ∃ d, (d, Event.enqueued job) ∈ s.log

/-- A finalizer, or a job within the passes. -/
def StageJob.Bounded (job : StageJob) : Prop :=
  job.isFinalize = false → job.passNumber ≤ DISTROKID_MAX_ATTEMPTS

theorem initial_le : INITIAL_PASS ≤ DISTROKID_MAX_ATTEMPTS := by decide

theorem StageJob.Schedules.bounded {job next : StageJob} (h : job.Schedules next)
    (hb : job.Bounded) : next.Bounded := by
  intro hnot
  cases job <;> cases next <;> first | exact h.elim | cases hnot
  case index.plan => exact initial_le
  case plan.chunk job next | plan.reconcile job next =>
    have hpass : next.pass = some INITIAL_PASS := h
    simpa [StageJob.passNumber, hpass] using initial_le
  case chunk.chunk | chunk.reconcile => exact h.trans_le (hb rfl)
  case retry.chunk job next | retry.reconcile job next =>
    have hpass : next.pass = some job.attempt := h
    simpa [StageJob.passNumber, hpass] using hb rfl
  case reconcile.retry => exact h.2

theorem Work.Schedules.bounded {work : Work} {next : StageJob} (h : work.Schedules next)
    (hwork : ∀ job, work.job? = some job → job.Bounded) : next.Bounded := by
  cases hjob : work.job? with
  | some job => exact (h.of_job hjob).bounded (hwork job hjob)
  | none =>
    cases work with
    | recover job =>
      intro hnot
      cases next with
      | index job => exact initial_le
      | chunk next =>
        have hpass : next.pass = some INITIAL_PASS := h
        simpa [StageJob.passNumber, hpass] using initial_le
      | reconcile next =>
        have hpass : next.pass = some INITIAL_PASS := h
        simpa [StageJob.passNumber, hpass] using initial_le
      | finalize job => cases hnot
      | _ => exact h.elim
    | stage job => cases hjob
    | attempt entry => cases hjob
    | _ => cases next <;> first | exact h.elim | exact fun hnot => by cases hnot

/-- Every stage that runs and every job that is enqueued keeps to the passes. -/
structure BoundedWorld (w : SnapshotWorld) : Prop extends Scheduled w where
  works : ∀ q ∈ w.procs, ∀ job, q.1.work.job? = some job → job.Bounded
  enqueued : ∀ d next, (d, Event.enqueued next) ∈ w.state.log → next.Bounded

theorem Delivered.bounded {s : SnapshotState} {work : Work} (h : Delivered s work)
    (hlog : ∀ d next, (d, Event.enqueued next) ∈ s.log → next.Bounded) :
    ∀ job, work.job? = some job → job.Bounded := by
  intro job hjob
  rcases h job hjob with ⟨j, rfl⟩ | ⟨j, rfl⟩ | hfin | ⟨d, hd⟩
  · exact fun _ => initial_le
  · exact fun _ => initial_le
  · intro hnot
    rw [hfin] at hnot
    cases hnot
  · exact hlog d job hd

theorem BoundedWorld.step {w w' : SnapshotWorld} {m : Move Delivery Choice}
    (hdelivered : ∀ s work, allowed s work = true → Delivered s work) (hw : BoundedWorld w)
    (h : (pipelineSystem env (anyOrder allowed)).step w m = some w') : BoundedWorld w' := by
  have hsched := hw.toScheduled.step h
  refine ⟨hsched, fun q hq => ?_, fun d next hmem => ?_⟩
  · cases m with
    | start t =>
      obtain ⟨s, hs, rfl⟩ := System.step_start h
      rcases List.mem_append.1 hq with hq | hq
      · exact hw.works q hq
      · rw [List.mem_singleton.1 hq]
        simp only [pipelineSystem, anyOrder] at hs
        split at hs
        · rename_i hallowed
          exact (hdelivered _ _ hallowed.2).bounded hw.enqueued
        · cases hs
    | go i c =>
      obtain ⟨t, o, k, r, s, hi, -, rfl⟩ := System.step_go h
      rcases List.mem_or_eq_of_mem_set hq with hq | rfl
      · exact hw.works q hq
      · have hmem : (t, Prog.op o k) ∈ w.procs := List.mem_of_getElem? hi
        exact fun job hjob => hw.works (t, .op o k) hmem job hjob
    | settle i =>
      obtain ⟨t, r, -, rfl⟩ := System.step_settle h
      exact hw.works q (List.mem_of_mem_eraseIdx hq)
    | crash i =>
      obtain ⟨t, p, -, rfl⟩ := System.step_crash h
      exact hw.works q (List.mem_of_mem_eraseIdx hq)
    | env c =>
      obtain ⟨s, -, rfl⟩ := System.step_env h
      exact hw.works q hq
  · rcases step_anyOrder h with ⟨i, c, t, o, k, r, -, hi, hp⟩ | hsame
    · obtain ⟨es, hlog, -⟩ := perform_log hp
      have hsrc : d.work.Schedules next := hsched.log d next hmem
      rw [hlog] at hmem
      rcases List.mem_append.1 hmem with hmem | hmem
      · obtain ⟨e, -, heq⟩ := List.mem_map.1 hmem
        cases heq
        exact hsrc.bounded (hw.works _ (List.mem_of_getElem? hi))
      · exact hw.enqueued d next hmem
    · exact hw.enqueued d next (hsame.log ▸ hmem)

/-- Passes are bounded. A retry is enqueued by a reconciliation, for a pass above its own
and within the attempts; along a chain of scheduled jobs the pass rises from each
reconciliation to the next; a reconciliation without another pass leaves the tombstone
recorded whenever it returns, and an attempt of it that is left alone ends with the
tombstone recorded; so nothing is scheduled for a pass beyond the attempts. -/
theorem bounded_passes {s : SnapshotState} (hs : s.Fresh) {w : SnapshotWorld}
    (h : (pipelineSystem env (anyOrder allowed)).Reaches (World.idle s) w) :
    (∀ d next, (d, Event.enqueued (.retry next)) ∈ w.state.log →
      ∃ job, d.work.job? = some (.reconcile job) ∧ job.pass.getD INITIAL_PASS < next.attempt ∧
        next.attempt ≤ DISTROKID_MAX_ATTEMPTS) ∧
    (∀ job last : ReconcileJob,
      Relation.TransGen (ScheduledIn w.state.log) (.reconcile job) (.reconcile last) →
      job.pass.getD INITIAL_PASS < last.pass.getD INITIAL_PASS) ∧
    (∀ d job, (d, Prog.ret ()) ∈ w.procs → d.work.job? = some (.reconcile job) →
      DISTROKID_MAX_ATTEMPTS ≤ job.pass.getD INITIAL_PASS → w.state.terminal.isSome = true) ∧
    (∀ pid entry job, entry.job = .reconcile job →
      DISTROKID_MAX_ATTEMPTS ≤ job.pass.getD INITIAL_PASS →
      w.state.binding.all (· = job.binding) →
      Finishes env allowed ⟨pid, .attempt entry⟩ (fun _ v => v.terminal.isSome = true)
        (code env ⟨pid, .attempt entry⟩) w.state) ∧
    ((∀ s work, allowed s work = true → Delivered s work) →
      ∀ d next, (d, Event.enqueued next) ∈ w.state.log → next.isFinalize = false →
        next.passNumber ≤ DISTROKID_MAX_ATTEMPTS) := by
  have hsched := scheduled_reaches hs.log h
  refine ⟨fun d next hmem => ?_, fun job last hchain => hsched.log.rises hchain,
    fun d job hmem hjob hpass => ?_, fun pid entry job hjob hpass hbind => ?_, fun hdelivered => ?_⟩
  · obtain ⟨job, hjob, heq, hle⟩ := (hsched.log d _ hmem).retry
    exact ⟨job, hjob, by omega, hle⟩
  · have hsound : ((verdict env allowed).withPost Recorded).Sound :=
      verdict_sound.withPost (fun _ _ _ _ => trivial) fun t s hi _ => recorded_code t s hi
    have hvalid : ((verdict env allowed).withPost Recorded).Valid w :=
      (Contract.valid_idle (VerdictInv.fresh hs)).reaches hsound h
    obtain ⟨i, hi⟩ := List.mem_iff_getElem?.1 hmem
    exact hvalid.safe i d _ hi w.state (VerdictGrows.refl _) hvalid.inv rfl job hjob hpass
  · exact finishes_attempt hjob hpass hbind
  · refine (h.invariant (fun _ _ _ hw hstep => BoundedWorld.step hdelivered hw hstep)
      ⟨⟨fun q hq => ?_, fun d next hmem => ?_⟩, fun q hq => ?_, fun d next hmem => ?_⟩).enqueued
    · cases hq
    · simp [World.idle, hs.log] at hmem
    · cases hq
    · simp [World.idle, hs.log] at hmem

def sampleReconcile (pass : ℕ) : ReconcileJob :=
  { toSnapshotRef := sampleRef, pass := some pass }

def sampleRetry (attempt : ℕ) : RetryFailedJob :=
  { toSnapshotRef := refOf sampleRef, attempt := attempt }

/-- The first pass of a snapshot whose one release was never read is reconciled. -/
def retriedRun : { ms //
    ∃ w ∈ (pipelineSystem sampleEnv (anyOrder anyWork)).run (World.idle (indexed ["a"])) ms,
      (⟨0, .stage (.reconcile (sampleReconcile 1))⟩, .enqueued (.retry (sampleRetry 2))) ∈
        w.state.log } :=
  ⟨.start ⟨0, .stage (.reconcile (sampleReconcile 1))⟩ :: awaits 0 (List.replicate 6 .done),
    by decide +kernel⟩

theorem bounded_passes_retried : ∃ w,
    (pipelineSystem sampleEnv (anyOrder anyWork)).Reaches (World.idle (indexed ["a"])) w ∧
      ∃ job : ReconcileJob, job.pass.getD INITIAL_PASS < (sampleRetry 2).attempt ∧
        (sampleRetry 2).attempt ≤ DISTROKID_MAX_ATTEMPTS := by
  obtain ⟨ms, w, hw, hmem⟩ := retriedRun
  have hfresh : (indexed ["a"]).Fresh := ⟨rfl, rfl, fun _ h => by cases h⟩
  obtain ⟨job, -, hpass⟩ := (bounded_passes hfresh ⟨ms, hw⟩).1 _ _ hmem
  exact ⟨w, ⟨ms, hw⟩, job, hpass⟩

end CatalogSentinel.Distrokid
