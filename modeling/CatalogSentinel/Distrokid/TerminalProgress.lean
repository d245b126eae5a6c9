import CatalogSentinel.Concurrent.CheckedWrite
import CatalogSentinel.Distrokid.Verdict

/-!
Whether a recorded terminal status stays. Every stage that writes a progress row
with a status of its own looks for the tombstone first, but the write is another
await. A finalizer that records the terminal status between the two is followed
by a row that says the snapshot is still running; runs in which no program
stands between its check and its write at that moment keep the terminal status.
-/

namespace CatalogSentinel.Distrokid

open CatalogSentinel.Data CatalogSentinel.Concurrent SnapshotState

/-- A progress write that would say that the snapshot has not ended, behind the look
for its tombstone. -/
def progressFence : Fence distrokid where
  check
    | Op.getTerminal => true
    | _ => false
  passes
    | Op.getTerminal, (tombstone : Option SnapshotTerminalTombstone) => tombstone.isNone
    | _, _ => false
  write
    | Op.putProgress p => !p.status.isTerminal
    | _ => false

/-! ### Every stage looks for the tombstone before it writes -/

variable {env : Env}

theorem guarded_await {o : Op} (ho : progressFence.write o = false) :
    progressFence.Guarded (await o) :=
  Fence.guarded_of_calls (Prog.calls_call ho)

theorem write_of_isRoutine {o : Op} (ho : o.isRoutine) : progressFence.write o = false := by
  cases o <;> first | rfl | cases ho

theorem guarded : StageProperty fun {α} (p : Pipe α) => progressFence.Guarded p where
  toCompositional := Fence.compositional_guarded
  routine ho := guarded_await (write_of_isRoutine ho)

theorem confirms_assertSnapshotCanContinue (job : SnapshotRef) :
    progressFence.Confirms (assertSnapshotCanContinue env job) := by
  refine ((guarded).assertPipelineDeadline job).confirms fun _ m => ?_
  refine Fence.Walk.bind (R := fun r m' => ∀ x, r = .ok x → m' = x.isNone)
    (Fence.walk_call (fun h => by cases h) ?_) (fun x m' hx => ?_) fun _ _ _ h => by cases h
  · rintro (e | x) y hy
    · cases hy
    · cases hy
      rfl
  · cases x with
    | none => exact fun _ => hx none rfl
    | some x => exact fun h => by cases h

theorem confirms_assertCanContinue (job : SnapshotRef) :
    progressFence.Confirms (assertCanContinue env job) := by
  have haborted : assertNotAborted.Calls fun o : Op =>
      progressFence.check o = false ∧ progressFence.write o = false := by
    refine (Prog.calls_call ⟨rfl, rfl⟩).bind fun r => ?_
    cases r with
    | none => exact Prog.calls_ret _
    | some e => exact Prog.calls_raise _
  exact (guarded).assertNotAborted.confirms fun _ =>
    (confirms_assertSnapshotCanContinue job).idle fun _ => haborted

/-- A stamp, then the write, right after the check. -/
theorem walk_stampedPut (f : String → SnapshotProgress) :
    progressFence.Walk (fun _ _ => True) (deps.nowIso >>= fun t => store.putProgress (f t)) true := by
  refine (Fence.walk_idle (Prog.calls_call ⟨rfl, rfl⟩) true).bind (fun t m hm => ?_) fun _ _ _ => trivial
  exact Fence.walk_call (fun _ => hm) fun _ => trivial

theorem guarded_resume (job : SnapshotRef) :
    progressFence.Guarded (resumeTerminalFinalizer job) :=
  (guarded).resume (fun _ _ => guarded_await rfl) job

theorem guarded_catalogIndex (job : CatalogIndexJob) :
    progressFence.Guarded (extractDistroKidCatalogIndex env job) := by
  have hcheck : progressFence.Confirms (assertCanContinue env job.toSnapshotRef) :=
    confirms_assertCanContinue _
  refine (guarded).unlessTerminal (guarded_resume _) ((guarded).withAccountLock ((guarded).raise _) ?_)
  refine (guarded_await rfl).bind fun releases => hcheck.guarded.bind fun _ =>
    (guarded_await rfl).bind fun _ => (guarded_await rfl).bind fun startedAt =>
    (guarded_await rfl).bind fun updatedAt => hcheck.bind fun _ => ?_
  refine (Fence.walk_call (Q := fun _ _ => True) (fun _ => rfl) fun _ => trivial).bind
    (fun _ m _ => ?_) fun _ _ _ => trivial
  exact (hcheck.guarded.bind fun _ => (guarded_await rfl).bind fun _ => (guarded).ret _) m

theorem guarded_markRunning (job : SnapshotRef) (chunkCount : ℕ) :
    progressFence.Guarded (markRunning env job chunkCount) := by
  refine (guarded_await rfl).bind fun progress => ?_
  cases progress with
  | none => exact (guarded).ret _
  | some p => exact (confirms_assertSnapshotCanContinue job).bind fun _ => walk_stampedPut _

theorem guarded_plan (job : PlanChunksJob) :
    progressFence.Guarded (planDistroKidReleaseChunks env job) :=
  (guarded).unlessTerminal (guarded_resume _) <| (guarded).planChunks (fun _ => guarded_await rfl)
    (guarded_markRunning _) (fun _ _ _ => guarded_await rfl) fun _ _ _ => guarded_await rfl

theorem guarded_recordChunkProgress (job : ReleaseChunkJob) (done : List ℕ)
    (progress : Option SnapshotProgress) :
    progressFence.Guarded (recordChunkProgress env job done progress) := by
  cases progress with
  | none => exact (guarded).ret _
  | some p =>
    exact (guarded_await rfl).bind fun all => (confirms_assertCanContinue job.toSnapshotRef).bind
      fun _ => walk_stampedPut _

theorem guarded_chunk (pid : ℕ) (job : ReleaseChunkJob) :
    progressFence.Guarded (extractDistroKidReleaseChunk env pid job) := by
  have hcheck : progressFence.Guarded (assertCanContinue env job.toSnapshotRef) :=
    (confirms_assertCanContinue _).guarded
  refine (guarded).unlessTerminal (guarded_resume _) ((guarded).withAccountLock
    ((guarded).deferChunk fun _ _ _ => guarded_await rfl) ?_)
  refine (guarded_await rfl).bind fun index => (guarded_await rfl).bind fun existing =>
    (guarded_await rfl).bind fun _ => (guarded_await rfl).bind fun extracted =>
    hcheck.bind fun _ => (guarded_await rfl).bind fun outcomes => (guarded_await rfl).bind fun _ =>
    hcheck.bind fun _ => (guarded_await rfl).bind fun _ => (guarded_await rfl).bind fun done =>
    (guarded_await rfl).bind fun progress => (guarded_recordChunkProgress _ _ _).bind fun _ => ?_
  exact ((guarded).chainNext (fun _ _ _ => guarded_await rfl) fun _ _ _ => guarded_await rfl).bind fun _ =>
    (guarded).ret _

theorem guarded_terminalize (job : StageJob) (stage : String) (error : PipelineError) :
    progressFence.Guarded (terminalizeDistroKidFailure job stage error) :=
  (guarded).terminalize (fun _ => guarded_await rfl)
    fun _ _ => guarded_await rfl

/-- The finalizer's own row is terminal, so it is not behind the fence. -/
theorem guarded_finalize (job : FinalizeJob) :
    progressFence.Guarded (finalizeDistroKidSnapshot job) :=
  (guarded).finalize (fun _ _ => guarded_await rfl) (fun _ _ => guarded_await rfl)
    (fun p hp => guarded_await (by simp [progressFence, hp]))
    (fun _ => guarded_await rfl) fun _ => guarded_await rfl

theorem guarded_processor (pid : ℕ) (job : StageJob) :
    progressFence.Guarded (processor env pid job) := by
  cases job with
  | index job => exact (guarded).discard (guarded_catalogIndex job)
  | plan job => exact (guarded).discard (guarded_plan job)
  | chunk job => exact (guarded).discard (guarded_chunk pid job)
  | retry job =>
    exact (guarded).discard ((guarded).unlessTerminal (guarded_resume _) ((guarded).retryFailed
      (fun _ => guarded_await rfl) (fun _ _ _ => guarded_await rfl) fun _ _ _ => guarded_await rfl))
  | reconcile job =>
    exact (guarded).discard ((guarded).reconcile (fun _ _ _ => guarded_await rfl)
      (fun _ => guarded_await rfl) fun _ _ => guarded_await rfl)
  | finalize job => exact guarded_finalize job

theorem guarded_code (d : Delivery) : progressFence.Guarded (code env d) :=
  (guarded).code guarded_resume (fun job _ => guarded_processor d.pid job) guarded_terminalize
    (fun _ _ _ => (guarded).cancel fun _ => guarded_await rfl)
    (fun _ _ => (guarded).recover (fun _ _ => guarded_await rfl) (fun _ _ => guarded_await rfl)
      guarded_plan guarded_terminalize)
    (fun _ _ _ _ => (guarded).onCheckpoint (fun _ => guarded_await rfl) fun _ => guarded_await rfl)
    fun _ _ => guarded_await rfl

/-! ### Runs -/

variable {allowed : SnapshotState → Work → Bool}

/-- A terminal status is recorded, and the tombstone it was taken from is stored. -/
def Ended (s : SnapshotState) : Prop := RecordedIn s.log ∧ s.terminal.isSome = true

/-- Once a terminal status is recorded, a progress row is terminal. -/
def TerminalKept : Delivery × Event → List (Delivery × Event) → Prop
  | (_, .progressPut p), past => RecordedIn past → p.status.isTerminal = true
  | _, _ => True

/-- A finalizer's terminal progress row is written while no other program stands between
its look for the tombstone and its own progress write. -/
def RecordsAlone (w : SnapshotWorld) (m : Move Delivery Choice) (_ : SnapshotWorld) : Prop :=
  ∀ i c t p k, m = .go i c → (∀ e, c ≠ .lost e) → w.procs[i]? = some (t, .op (.putProgress p) k) →
    t.isFinalizer = true → p.status.isTerminal = true →
    ∀ j q, j ≠ i → w.procs[j]? = some q → ¬ progressFence.Poised q.2

/-- The program writes no row that is not terminal. -/
def WritesTerminal {α : Type} (p : Pipe α) : Prop := p.Calls fun o => progressFence.write o = false

theorem writesTerminal : StageProperty fun {α} (p : Pipe α) => WritesTerminal p where
  toCompositional := Prog.compositional_calls _
  routine ho := Prog.calls_call (write_of_isRoutine ho)

theorem writesTerminal_await {o : Op} (ho : progressFence.write o = false) :
    WritesTerminal (await o) := Prog.calls_call ho

theorem writesTerminal_finalize (job : FinalizeJob) :
    WritesTerminal (finalizeDistroKidSnapshot job) :=
  (writesTerminal).finalize (fun _ _ => writesTerminal_await rfl) (fun _ _ => writesTerminal_await rfl)
    (fun p hp => writesTerminal_await (by simp [progressFence, hp]))
    (fun _ => writesTerminal_await rfl) fun _ => writesTerminal_await rfl

theorem writesTerminal_code {d : Delivery} (hd : d.isFinalizer = true) :
    WritesTerminal (code env d) := by
  have hproc : ∀ (pid : ℕ) (job : StageJob), job.isFinalize = true →
      WritesTerminal (processor env pid job) := by
    intro pid job hjob
    cases job with
    | finalize job => exact writesTerminal_finalize job
    | _ => cases hjob
  obtain ⟨pid, work⟩ := d
  cases work with
  | stage job => exact hproc pid job hd
  | attempt entry =>
    exact (writesTerminal).runPipelineStage ((writesTerminal).resume (fun _ _ => writesTerminal_await rfl) _)
      (hproc pid entry.job hd) (fun _ _ => (writesTerminal).terminalize (fun _ => writesTerminal_await rfl)
        fun _ _ => writesTerminal_await rfl) fun _ _ => writesTerminal_await rfl
  | _ => cases hd

structure Absorbing (env : Env) (allowed : SnapshotState → Work → Bool) (w : SnapshotWorld) :
    Prop where
  valid : (verdict env allowed).Valid w
  held : progressFence.Held Ended w
  finalizers : ∀ q ∈ w.procs, q.1.isFinalizer = true → WritesTerminal q.2
  kept : Justified TerminalKept w.state.log
  stored : RecordedIn w.state.log → ∃ p, w.state.progress = some p ∧ p.status.isTerminal = true

theorem recordedIn_cons {d : Delivery} {e : Event} {log : List (Delivery × Event)} :
    RecordedIn ((d, e) :: log) ↔ e.records = true ∨ RecordedIn log := by
  constructor
  · rintro ⟨d', p, hp, ht⟩
    rcases List.mem_cons.1 hp with hp | hp
    · cases hp
      exact .inl ht
    · exact .inr ⟨d', p, hp, ht⟩
  · rintro (he | ⟨d', p, hp, ht⟩)
    · cases e with
      | progressPut p => exact ⟨d, p, List.mem_cons_self, he⟩
      | _ => cases he
    · exact ⟨d', p, List.mem_cons_of_mem _ hp, ht⟩

theorem VerdictInv.ended {s : SnapshotState} (hs : VerdictInv s) (h : RecordedIn s.log) :
    Ended s := by
  obtain ⟨j, ⟨createdAt, reason, hj⟩, -⟩ := hs.recorded h
  exact ⟨h, by rw [hj]; rfl⟩

/-- A progress write takes effect, or changes nothing. -/
theorem perform_putProgress {d : Delivery} {s s' : SnapshotState} {p : SnapshotProgress}
    {c : Choice} {r : Except PipelineError Unit}
    (h : perform env d s (.putProgress p) c = some (r, s')) :
    s' = s ∨ (∀ e, c ≠ .lost e) ∧ s'.progress = some p ∧ s'.log = (d, .progressPut p) :: s.log := by
  rcases perform_settled (fun c => by cases c <;> rfl) h with ⟨-, he⟩ | ⟨hc, r', he⟩
  · cases he
    exact .inl rfl
  · obtain ⟨-, rfl⟩ := Prod.mk.inj (Option.some.inj he)
    exact .inr ⟨hc, rfl, rfl⟩

/-- Every other operation leaves what is said of the progress row alone. -/
theorem perform_unrecorded {d : Delivery} {s s' : SnapshotState} {o : Op} {c : Choice}
    {r : Except PipelineError o.Ans} (ho : ∀ p, o ≠ .putProgress p)
    (h : perform env d s o c = some (r, s')) :
    (RecordedIn s'.log → RecordedIn s.log) ∧
      (Justified TerminalKept s.log → Justified TerminalKept s'.log) := by
  obtain ⟨es, hlog, hes⟩ := perform_log h
  have hno : ∀ p, .progressPut p ∉ es := by
    intro p hp
    have := hes _ hp
    cases o <;> simp only [Op.logs, reduceCtorEq, or_self] at this
    cases this
    exact ho p rfl
  rw [hlog]
  refine ⟨?_, fun hj => hj.append fun x hx past => ?_⟩
  · rintro ⟨d', p, hp, ht⟩
    rcases List.mem_append.1 hp with hp | hp
    · obtain ⟨e, he, heq⟩ := List.mem_map.1 hp
      cases heq
      exact absurd he (hno p)
    · exact ⟨d', p, hp, ht⟩
  · obtain ⟨e, he, rfl⟩ := List.mem_map.1 hx
    cases e with
    | progressPut p => exact absurd he (hno p)
    | _ => trivial

/-- A step that records alone keeps a recorded terminal status. -/
theorem Absorbing.step {w w' : SnapshotWorld} {m : Move Delivery Choice}
    (hw : Absorbing env allowed w) (halone : RecordsAlone w m w')
    (h : (pipelineSystem env (anyOrder allowed)).step w m = some w') : Absorbing env allowed w' := by
  have hvalid := hw.valid.step verdict_sound h
  have hfinalizers : ∀ q ∈ w'.procs, q.1.isFinalizer = true → WritesTerminal q.2 :=
    System.procs_invariant (J := fun (t : Delivery) (p : Pipe Unit) => t.isFinalizer = true →
      WritesTerminal p) (fun _ => writesTerminal_code) (fun _ _ _ r hop ht => (hop ht).2 r)
      hw.finalizers h
  have hheld : (RecordedIn w'.state.log → RecordedIn w.state.log ∨
      ∀ q ∈ w.procs, ¬ progressFence.Poised q.2) → progressFence.Held Ended w' := by
    intro hshut
    refine hw.held.step guarded_code ?_ ?_ ?_ h
    · intro t s o c a s' hs hc hp
      cases o <;> cases hc
      rcases perform_cases hp with he | ⟨_, _, _, _, he⟩ | ⟨_, _, _, he⟩ | ⟨_, c', ha, _, _⟩
      · obtain ⟨ha, -⟩ := Prod.mk.inj (Option.some.inj he)
        cases ha
        obtain ⟨x, hx⟩ := Option.isSome_iff_exists.1 hs.2
        simp [progressFence, hx]
      · cases he
      · cases he
      · cases c' <;> cases ha
    · exact fun hs => (hshut hs.1).imp (fun hr => hw.valid.inv.ended hr) id
    · rintro i c t o k rfl hi hc hs
      obtain ⟨t', o', k', r, s, hi', hp, rfl⟩ := System.step_go h
      obtain ⟨rfl, hk⟩ := Prod.mk.inj (Option.some.inj (hi.symm.trans hi'))
      cases hk
      cases o <;> cases hc
      exact (perform_read rfl hp) ▸ hs
  have hidle : SameRecords w.state w'.state → Absorbing env allowed w' := by
    intro hsame
    refine ⟨hvalid, hheld fun hr => .inl (hsame.log ▸ hr), hfinalizers, hsame.log ▸ hw.kept,
      fun hr => ?_⟩
    rw [hsame.progress]
    exact hw.stored (hsame.log ▸ hr)
  rcases step_anyOrder h with ⟨i, c, t, o, k, r, rfl, hi, hp⟩ | hsame
  · by_cases hput : ∃ p, o = .putProgress p
    · obtain ⟨p, rfl⟩ := hput
      rcases perform_putProgress hp with hs | ⟨hc, hprogress, hlog⟩
      · exact hidle (by rw [hs]; exact ⟨rfl, rfl, rfl, rfl, rfl, rfl⟩)
      · have hkept : RecordedIn w.state.log → p.status.isTerminal = true := fun hr => by
          simpa [progressFence] using hw.held.no_write (hw.valid.inv.ended hr) hi
        refine ⟨hvalid, hheld fun hr => ?_, hfinalizers, by rw [hlog]; exact ⟨hkept, hw.kept⟩,
          fun hr => ⟨p, hprogress, ?_⟩⟩
        · rw [hlog, recordedIn_cons] at hr
          rcases hr with ht | hr
          · have hdurable : Justified DurableBefore w'.state.log := hvalid.inv.durable
            rw [hlog] at hdurable
            refine (hdurable.1 ht).symm.imp id fun hfin q hq => ?_
            obtain ⟨j, hj⟩ := List.mem_iff_getElem?.1 hq
            by_cases hij : j = i
            · rw [hij, hi] at hj
              cases hj
              exact Fence.not_poised_of_calls (hw.finalizers _ hq hfin)
            · exact halone i c t p k rfl hc hi hfin ht j q hij hj
          · exact .inl hr
        · rw [hlog, recordedIn_cons] at hr
          exact hr.elim id hkept
    · have hother : ∀ p, o ≠ .putProgress p := fun p hp => hput ⟨p, hp⟩
      obtain ⟨hrec, hkept⟩ := perform_unrecorded hother hp
      refine ⟨hvalid, hheld fun hr => .inl (hrec hr), hfinalizers, hkept hw.kept, fun hr => ?_⟩
      rw [(perform_frame hp).progress hother]
      exact hw.stored (hrec hr)
  · exact hidle hsame

theorem Absorbing.fresh {s : SnapshotState} (hs : s.Fresh) :
    Absorbing env allowed (World.idle s) := by
  refine ⟨Contract.valid_idle (VerdictInv.fresh hs), Fence.held_idle s, fun q hq => ?_, ?_,
    fun ⟨d, p, hp, _⟩ => ?_⟩
  · simp [World.idle] at hq
  · rw [show (World.idle s : SnapshotWorld).state.log = [] from hs.log]
    trivial
  · simp [World.idle, hs.log] at hp

/-- Where every terminal row is recorded alone, the terminal status stays: no later write
of any stage takes it back. -/
theorem terminal_progress_stays {s : SnapshotState} (hs : s.Fresh) {w : SnapshotWorld}
    {ms : List (Move Delivery Choice)}
    (halone : (pipelineSystem env (anyOrder allowed)).Along RecordsAlone (World.idle s) ms)
    (h : (pipelineSystem env (anyOrder allowed)).run (World.idle s) ms = some w) :
    (∀ later earlier d p, w.state.log = later ++ (d, .progressPut p) :: earlier →
      RecordedIn earlier → p.status.isTerminal = true) ∧
    (RecordedIn w.state.log → ∃ p, w.state.progress = some p ∧ p.status.isTerminal = true) := by
  have hw : Absorbing env allowed w := System.run_invariant
    (fun _ _ _ hv hp hstep => Absorbing.step hv hp hstep) (Absorbing.fresh hs) halone h
  refine ⟨fun later earlier d p hlog => ?_, hw.stored⟩
  have hkept := hw.kept
  rw [hlog] at hkept
  exact hkept.at

theorem alone_of_single {w w' : SnapshotWorld} {m : Move Delivery Choice}
    (h : w.procs.length ≤ 1) : RecordsAlone w m w' := by
  intro i c t p k _ _ hi _ _ j q hij hj _
  have hi' := (List.getElem?_eq_some_iff.1 hi).1
  have hj' := (List.getElem?_eq_some_iff.1 hj).1
  omega

theorem terminal_progress_stays_redelivered : ∃ w,
    (pipelineSystem sampleEnv (anyOrder anyWork)).Reaches (World.idle .empty) w ∧
      ∃ p, w.state.progress = some p ∧ p.status.isTerminal = true := by
  obtain ⟨ms, halone, w, hw, -, hrecorded⟩ := redeliveredRun
  have hrecords := System.Along.mono _ (Q := RecordsAlone) halone fun _ _ _ h => alone_of_single h
  exact ⟨w, ⟨ms, hw⟩, (terminal_progress_stays fresh_empty hrecords hw).2 ⟨_, _, hrecorded, rfl⟩⟩

/-- A deployment whose clock knows a lease. -/
def leaseEnv : Env :=
  { sampleEnv with
    dateParse := fun t => if t = "deadline" then some 1000 else if t = "expiry" then some 100000 else none }

def leaseRef : SnapshotRef :=
  { sampleRef with deadlineAt := some "deadline", sessionExpiresAt := some "expiry" }

/-- Every call succeeds, at time zero, and the catalogue is empty. -/
def calm (_ : Delivery) : Op → Choice
  | .now => .time 0
  | .nowIso => .stamp "t"
  | .readCatalogIndex _ => .catalogue []
  | _ => .done

/-- The recovery sweep has looked for the tombstone and is about to write RUNNING. The
plan stage, the reconciliation and the finalizer run; then the sweep writes. -/
def overtakenSweep : { cues // ∃ w ∈ (pipelineSystem leaseEnv (anyOrder anyWork)).play calm
      (World.idle .empty) cues,
    w.state.log = (⟨1, .recover { toSnapshotRef := leaseRef, artists := [] }⟩,
      .progressPut { plannedProgress leaseRef 0 "t" "t" with status := .running }) :: w.state.log.tail ∧
    (⟨4, .stage (.finalize { sampleFinalize .complete with toSnapshotRef := leaseRef })⟩,
      .progressPut { plannedProgress leaseRef 0 "t" "t" with status := .terminal .complete }) ∈
        w.state.log.tail } :=
  ⟨[.start ⟨0, .stage (.index { toSnapshotRef := leaseRef, artists := [] })⟩, .awaits 0 28, .settle 0,
    .start ⟨1, .recover { toSnapshotRef := leaseRef, artists := [] }⟩, .awaits 0 19,
    .start ⟨2, .stage (.plan { toSnapshotRef := leaseRef, chunkSize := none })⟩, .awaits 1 15, .settle 1,
    .start ⟨3, .stage (.reconcile (reconcileJob leaseRef INITIAL_PASS))⟩, .awaits 1 8, .settle 1,
    .start ⟨4, .stage (.finalize { sampleFinalize .complete with toSnapshotRef := leaseRef })⟩,
    .awaits 1 10, .settle 1, .awaits 0 1], by decide +kernel⟩

theorem terminal_progress_taken_back : ∃ w : SnapshotWorld,
    (pipelineSystem leaseEnv (anyOrder anyWork)).Reaches (World.idle .empty) w ∧
      ∃ d p earlier, w.state.log = (d, .progressPut p) :: earlier ∧ RecordedIn earlier ∧
        p.status.isTerminal = false := by
  obtain ⟨cues, w, hw, hlast, hrecorded⟩ := overtakenSweep
  exact ⟨w, System.reaches_play hw, _, _, _, hlast, ⟨_, _, hrecorded, rfl⟩, rfl⟩

end CatalogSentinel.Distrokid
