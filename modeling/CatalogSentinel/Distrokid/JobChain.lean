import CatalogSentinel.Checkpoint.Records
import CatalogSentinel.Concurrent.Watch
import CatalogSentinel.Distrokid.TerminalProgress

/-!
The jobs that come from one index job. Every stage hands the snapshot's identity,
its session handle and its two instants on, through the job objects it builds and
through the tombstone, which a durable store rebuilds on its way in and out. Browser
work is only started by a delivery that has just found the deadline ahead of it.
-/

namespace CatalogSentinel.Distrokid

open CatalogSentinel.Data CatalogSentinel.Concurrent CatalogSentinel.Checkpoint

/-- A field as the stages read it: an empty text counts as missing. -/
def present (field : Option String) : Option String := field.filter (· ≠ "")

/-- Two jobs of one chain. Timestamps agree as instants. -/
structure SameChain (parse : String → Option ℤ) (a b : SnapshotRef) : Prop where
  tenantId : b.tenantId = a.tenantId
  connectionId : b.connectionId = a.connectionId
  snapshotId : b.snapshotId = a.snapshotId
  distributor : b.distributor = a.distributor
  steelSessionId : present b.steelSessionId = present a.steelSessionId
  consentId : present b.consentId = present a.consentId
  artistWorkspaceId : present b.artistWorkspaceId = present a.artistWorkspaceId
  sessionExpiresAt : (present b.sessionExpiresAt).map parse = (present a.sessionExpiresAt).map parse
  deadlineAt : (present b.deadlineAt).map parse = (present a.deadlineAt).map parse

variable {parse : String → Option ℤ} {a b c : SnapshotRef}

theorem SameChain.refl (a : SnapshotRef) : SameChain parse a a := by
  constructor <;> rfl

theorem SameChain.trans (h : SameChain parse a b) (h' : SameChain parse b c) :
    SameChain parse a c where
  tenantId := h'.tenantId.trans h.tenantId
  connectionId := h'.connectionId.trans h.connectionId
  snapshotId := h'.snapshotId.trans h.snapshotId
  distributor := h'.distributor.trans h.distributor
  steelSessionId := h'.steelSessionId.trans h.steelSessionId
  consentId := h'.consentId.trans h.consentId
  artistWorkspaceId := h'.artistWorkspaceId.trans h.artistWorkspaceId
  sessionExpiresAt := h'.sessionExpiresAt.trans h.sessionExpiresAt
  deadlineAt := h'.deadlineAt.trans h.deadlineAt

theorem present_present (field : Option String) : present (present field) = present field := by
  simp [present, Option.filter_filter]

theorem sameChain_refOf (a : SnapshotRef) : SameChain parse a (refOf a) where
  tenantId := rfl
  connectionId := rfl
  snapshotId := rfl
  distributor := rfl
  steelSessionId := present_present _
  consentId := present_present _
  artistWorkspaceId := present_present _
  sessionExpiresAt := congrArg _ (present_present _)
  deadlineAt := congrArg _ (present_present _)

/-! ### What the sanitizer keeps -/

section Sanitizer

variable {P : Platform}

theorem present_unlessEmpty {name : String} {max : ℕ} {field kept : Option String}
    (h : unlessEmpty (fun v => textValue v name max) field = .ok kept) :
    present kept = present field := by
  have hkept : kept = present field := optionMapM_checked (fun _ _ => textValue_ok) h
  rw [hkept, present_present]

theorem instant_unlessEmpty (hP : P.Faithful) {name : String} {field kept : Option String}
    (h : unlessEmpty (fun v => isoTimestamp P v name) field = .ok kept) :
    (present kept).map P.dateParse = (present field).map P.dateParse := by
  change (present field).mapM _ = _ at h
  cases hfield : present field with
  | none =>
    rw [hfield] at h
    obtain rfl := Except.ok.inj h
    rfl
  | some text =>
    rw [hfield] at h
    obtain ⟨iso, hiso, hkept⟩ := bind_ok.1 h
    obtain ⟨epoch, hepoch, rfl⟩ := isoTimestamp_ok hiso
    obtain rfl := Except.ok.inj hkept
    have hne : P.toISOString epoch ≠ "" :=
      ne_empty_of_textValue (hP.dateText text epoch name hepoch)
    simp [present, hne, hepoch, hP.date text epoch hepoch]

/-- The rebuilt finalizer job is of the same chain. -/
theorem sameChain_sanitizeFinalizeJob (hP : P.Faithful) {job kept : FinalizeJob}
    {binding : SnapshotCheckpointBinding} (h : sanitizeFinalizeJob P job binding = .ok kept) :
    SameChain P.dateParse job.toSnapshotRef kept.toSnapshotRef := by
  unfold sanitizeFinalizeJob at h
  split at h
  · cases h
  rename_i hbinding
  split at h
  · cases h
  have hbound : job.binding = binding := not_not.1 hbinding
  obtain ⟨consentId, hconsent, h⟩ := bind_ok.1 h
  obtain ⟨workspaceId, hworkspace, h⟩ := bind_ok.1 h
  obtain ⟨session, hsession, h⟩ := bind_ok.1 h
  obtain ⟨expiry, hexpiry, h⟩ := bind_ok.1 h
  obtain ⟨deadline, hdeadline, h⟩ := bind_ok.1 h
  obtain ⟨version, -, h⟩ := bind_ok.1 h
  obtain ⟨completeness, -, h⟩ := bind_ok.1 h
  split at h
  · cases h
  obtain ⟨pass, -, h⟩ := bind_ok.1 h
  obtain rfl := Except.ok.inj h
  subst hbound
  exact ⟨rfl, rfl, rfl, rfl, present_unlessEmpty hsession, present_unlessEmpty hconsent,
    present_unlessEmpty hworkspace, instant_unlessEmpty hP hexpiry, instant_unlessEmpty hP hdeadline⟩

end Sanitizer

/-! ### A snapshot on a checkpoint store -/

section Store

variable (durable : Bool) (P : Platform) (env : Env) (s : SnapshotState)

def checkpointError : CheckpointError → PipelineError
  | .principalMismatch => .principalMismatch
  | .bindingRequired snapshotId =>
    .other s!"snapshot checkpoint {snapshotId} must be principal-bound before use"
  | .invalid message => .other message
  | .postgres message => .other message
  | .redis message => .other message

/-- The in-memory store keeps a tombstone as it is; a durable one rebuilds it, when it is
claimed and whenever it is read. -/
def kept (t : SnapshotTerminalTombstone) : Except PipelineError SnapshotTerminalTombstone :=
  if durable then
    match s.binding with
    | none => .error (.other "snapshot checkpoint must be principal-bound before use")
    | some binding => (sanitizeTombstone P t binding).mapError checkpointError
  else .ok t

def keptAnswer : Option SnapshotTerminalTombstone →
    Except PipelineError (Option SnapshotTerminalTombstone)
  | none => .ok none
  | some t => (kept durable P s t).map some

/-- `perform` over such a store. A tombstone that is refused is not written. -/
def performAt (d : Delivery) :
    (o : Op) → Choice → Option (Except PipelineError o.Ans × SnapshotState)
  | .claimTerminal t, c =>
    match kept durable P s t, c with
    | .error _, .lost e => perform env d s (.claimTerminal t) (.lost e)
    | .error e, _ => some (.error e, s)
    | .ok t, c => (perform env d s (.claimTerminal t) c).map fun r =>
        (r.1.bind (kept durable P r.2), r.2)
  | .getTerminal, c => (perform env d s .getTerminal c).map fun r =>
      (r.1.bind (keptAnswer durable P r.2), r.2)
  | o, c => perform env d s o c

end Store

/-- The index job, or a job that the snapshot's log says was enqueued. -/
def knownJob (j₀ : CatalogIndexJob) (s : SnapshotState) (job : StageJob) : Bool :=
  job = .index j₀ || s.log.any fun entry => entry.2 = .enqueued job

/-- What may be done for a snapshot: deliveries of its jobs, in any order and number,
terminalizations of them, recoveries of an index job, and what needs no job. -/
def descends (j₀ : CatalogIndexJob) (s : SnapshotState) : Work → Bool
  | .stage job => knownJob j₀ s job
  | .terminalize job .. => knownJob j₀ s job
  | .recover job => knownJob j₀ s (.index job)
  | .attempt entry => knownJob j₀ s entry.job
  | _ => true

/-- The pipeline of the snapshot of one index job, on a checkpoint store. -/
def chainSystem (durable : Bool) (P : Platform) (env : Env) (j₀ : CatalogIndexJob) :
    System distrokid PipelineError SnapshotState Delivery Choice :=
  { pipelineSystem { env with dateParse := P.dateParse } (anyOrder (descends j₀)) with
    perform := fun d s o c => performAt durable P { env with dateParse := P.dateParse } s d o c }

/-- Nothing has been decided or enqueued for the index job's snapshot yet. -/
structure Opened (j₀ : CatalogIndexJob) (s : SnapshotState) : Prop where
  log : s.log = []
  terminal : s.terminal = none
  entries : ∀ entry ∈ s.entries, entry.job = .index j₀

/-! ### The chain -/

section Chain

variable (parse : String → Option ℤ) (j₀ : CatalogIndexJob)

/-- The job is of the index job's chain. -/
def Descends (job : SnapshotRef) : Prop := SameChain parse j₀.toSnapshotRef job

def TombstoneDescends (t : SnapshotTerminalTombstone) : Prop :=
  ∀ job, t.finalizeJob? = some job → Descends parse j₀ job.toSnapshotRef

def EntriesDescend (entries : List Entry) : Prop :=
  ∀ entry ∈ entries, Descends parse j₀ entry.job.ref

/-- Nothing but jobs of the chain is enqueued or claimed for the verdict. -/
def Op.Chained : Op → Prop
  | .enqueue job _ => Descends parse j₀ job.ref
  | .claimTerminal t => TombstoneDescends parse j₀ t
  | _ => True

/-- Nothing but jobs of the chain comes back. -/
def Op.AnswersChained : (o : Op) → Except PipelineError o.Ans → Prop
  | .claimTerminal _, .ok t => TombstoneDescends parse j₀ t
  | .getTerminal, .ok terminal => ∀ t, terminal = some t → TombstoneDescends parse j₀ t
  | .getFailed _, .ok entries => EntriesDescend parse j₀ entries
  | _, _ => True

def chainWatch : Watch distrokid PipelineError where
  admits := Op.AnswersChained parse j₀
  ok _ o := Op.Chained parse j₀ o

/-- Whatever it is answered of the chain, the program adds nothing else to it. -/
abbrev KeepsChain {α : Type} (p : Pipe α) : Prop := (chainWatch parse j₀).Keeps p

variable {parse j₀}

theorem Op.chained_of_isRoutine {o : Op} (ho : o.isRoutine) : o.Chained parse j₀ := by
  cases o <;> trivial

theorem keepsChain : StageProperty fun {α} (p : Pipe α) => KeepsChain parse j₀ p where
  toCompositional := Watch.compositional
  routine ho := Watch.keeps_call fun _ => Op.chained_of_isRoutine ho

theorem keepsChain_await {o : Op} (ho : o.Chained parse j₀) : KeepsChain parse j₀ (await o) :=
  Watch.keeps_call fun _ => ho

theorem tombstoneDescends_terminal {job : FinalizeJob} {createdAt : String}
    {reason : Option String} : TombstoneDescends parse j₀ (.terminal job createdAt reason) ↔
      Descends parse j₀ job.toSnapshotRef :=
  ⟨fun h => h job rfl, fun h job' hjob => by cases hjob; exact h⟩

theorem tombstoneDescends_cancelled {createdAt reason : String} :
    TombstoneDescends parse j₀ (.cancelled createdAt reason) :=
  fun _ hjob => by cases hjob

/-- A tombstone of the chain is handed over to a finalizer of it. -/
theorem keepsChain_handsOver {α : Type} {f : SnapshotTerminalTombstone → Pipe α}
    (hf : HandsOver (KeepsChain parse j₀) f) {t : SnapshotTerminalTombstone}
    (ht : TombstoneDescends parse j₀ t) : KeepsChain parse j₀ (f t) := by
  cases t with
  | cancelled createdAt reason => exact hf.cancelled createdAt reason
  | terminal job createdAt reason =>
    obtain ⟨before, a, hbefore, he⟩ := hf.terminal job createdAt reason
    rw [he]
    exact keepsChain.bind hbefore fun _ =>
      keepsChain.bind (keepsChain_await (tombstoneDescends_terminal.1 ht)) fun _ => keepsChain.ret a

/-- What follows a read of the tombstone may rely on its being of the chain. -/
theorem chainVerdict : VerdictProperty fun {α} (p : Pipe α) => KeepsChain parse j₀ p where
  toStageProperty := keepsChain
  getTerminal hnone hf := by
    refine Watch.keeps_await (fun _ => trivial) fun terminal hterminal => ?_
    cases terminal with
    | none => exact hnone
    | some t =>
      have hall : ∀ t', some t = some t' → TombstoneDescends parse j₀ t' := hterminal
      exact keepsChain_handsOver hf (hall t rfl)

theorem claims_keepsChain {t : SnapshotTerminalTombstone} (ht : TombstoneDescends parse j₀ t) :
    Claims (KeepsChain parse j₀) t :=
  fun hf => Watch.keeps_await (fun _ => ht) fun _ hwinning => keepsChain_handsOver hf hwinning

/-! ### The code of the processes -/

theorem descends_of_eq {job next : SnapshotRef} (hjob : Descends parse j₀ job)
    (h : next = job) : Descends parse j₀ next := h ▸ hjob

theorem descends_of_refOf {job next : SnapshotRef} (hjob : Descends parse j₀ job)
    (h : next = refOf job) : Descends parse j₀ next :=
  descends_of_eq (hjob.trans (sameChain_refOf job)) h

variable {env : Env}

theorem keepsChain_resume (job : SnapshotRef) :
    KeepsChain parse j₀ (resumeTerminalFinalizer job) :=
  chainVerdict.resume keepsChain.bindCheckpoint

theorem keepsChain_plan {job : PlanChunksJob} (hjob : Descends parse j₀ job.toSnapshotRef) :
    KeepsChain parse j₀ (planDistroKidReleaseChunks env job) :=
  keepsChain.unlessTerminal (keepsChain_resume _) <| keepsChain.planChunks
    (fun _ => keepsChain_await trivial) (fun _ => keepsChain.markRunning fun _ _ =>
      keepsChain_await trivial)
    (fun _ _ hj => keepsChain_await (descends_of_refOf hjob hj.1))
    fun _ _ hj => keepsChain_await (descends_of_refOf hjob hj.1)

theorem keepsChain_chunk {pid : ℕ} {job : ReleaseChunkJob}
    (hjob : Descends parse j₀ job.toSnapshotRef) :
    KeepsChain parse j₀ (extractDistroKidReleaseChunk env pid job) :=
  keepsChain.unlessTerminal (keepsChain_resume _) <| keepsChain.withAccountLock
    (keepsChain.deferChunk fun _ _ hj => keepsChain_await (descends_of_eq hjob hj.1))
    (keepsChain.chunkWork (keepsChain_await trivial) (fun _ => keepsChain_await trivial)
      (fun _ => keepsChain_await trivial) (fun _ => keepsChain_await trivial)
      (fun _ _ => keepsChain_await trivial) (fun _ => keepsChain_await trivial)
      (fun _ _ hj => keepsChain_await (descends_of_refOf hjob hj.1))
      fun _ _ hj => keepsChain_await (descends_of_refOf hjob hj.1))

theorem keepsChain_reconcile {job : ReconcileJob} (hjob : Descends parse j₀ job.toSnapshotRef) :
    KeepsChain parse j₀ (reconcileDistroKidSnapshot env job) :=
  chainVerdict.reconcile keepsChain.bindCheckpoint
    (fun _ _ hj => keepsChain_await (descends_of_refOf hjob hj.1))
    fun _ _ => claims_keepsChain (tombstoneDescends_terminal.2 (descends_of_refOf hjob rfl))

theorem keepsChain_terminalize {job : StageJob} (hjob : Descends parse j₀ job.ref)
    (stage : String) (error : PipelineError) :
    KeepsChain parse j₀ (terminalizeDistroKidFailure job stage error) :=
  chainVerdict.terminalize keepsChain.bindCheckpoint
    fun _ _ _ => claims_keepsChain (tombstoneDescends_terminal.2 (descends_of_refOf hjob rfl))

theorem keepsChain_finalizer {job : FinalizeJob} (hjob : Descends parse j₀ job.toSnapshotRef) :
    KeepsChain parse j₀ (finalizeDistroKidSnapshot job) :=
  keepsChain.finalize (fun _ _ => keepsChain_await (tombstoneDescends_terminal.2 hjob))
    (fun _ _ => keepsChain_await trivial) (fun _ _ => keepsChain_await trivial)
    (fun _ => keepsChain_await trivial) fun _ => keepsChain_await trivial

theorem keepsChain_processor {pid : ℕ} {job : StageJob} (hjob : Descends parse j₀ job.ref) :
    KeepsChain parse j₀ (processor env pid job) := by
  cases job with
  | index job =>
    exact keepsChain.discard (keepsChain.unlessTerminal (keepsChain_resume _)
      (keepsChain.withAccountLock (keepsChain.raise _) (keepsChain.catalogIndexWork (keepsChain_await trivial)
          (fun _ => keepsChain_await trivial) (fun _ _ => keepsChain_await trivial)
          fun _ _ hj => keepsChain_await (descends_of_refOf hjob hj))))
  | plan job => exact keepsChain.discard (keepsChain_plan hjob)
  | chunk job => exact keepsChain.discard (keepsChain_chunk hjob)
  | retry job =>
    exact keepsChain.discard (keepsChain.unlessTerminal (keepsChain_resume _)
      (keepsChain.retryFailed (fun _ => keepsChain_await trivial)
        (fun _ _ hj => keepsChain_await (descends_of_refOf hjob hj.1))
        fun _ _ hj => keepsChain_await (descends_of_refOf hjob hj.1)))
  | reconcile job => exact keepsChain.discard (keepsChain_reconcile hjob)
  | finalize job => exact keepsChain_finalizer hjob

theorem keepsChain_recover {job : CatalogIndexJob} (hjob : Descends parse j₀ job.toSnapshotRef) :
    KeepsChain parse j₀ (recoverDurableDistroKidSnapshots env job) :=
  keepsChain.settle <| keepsChain.discard <| chainVerdict.recoverSnapshot keepsChain.bindCheckpoint
    (fun _ => keepsChain_await hjob) (fun _ hj => keepsChain_plan (descends_of_eq hjob hj))
    fun _ _ => keepsChain_terminalize hjob _ _

/-- The jobs that a process is started for. -/
def Work.Descend (parse : String → Option ℤ) (j₀ : CatalogIndexJob) : Work → Prop
  | stage job => Descends parse j₀ job.ref
  | terminalize job .. => Descends parse j₀ job.ref
  | recover job => Descends parse j₀ job.toSnapshotRef
  | attempt entry => Descends parse j₀ entry.job.ref
  | _ => True

theorem keepsChain_code {d : Delivery} (hd : d.work.Descend parse j₀) :
    KeepsChain parse j₀ (code env d) := by
  obtain ⟨pid, work⟩ := d
  cases work with
  | stage job => exact keepsChain_processor hd
  | terminalize job stage error => exact keepsChain.discard (keepsChain_terminalize hd _ _)
  | cancel job reason =>
    exact keepsChain.discard (keepsChain.bind (keepsChain_await trivial) fun _ =>
      keepsChain.bind (keepsChain.read rfl) fun _ => keepsChain_await tombstoneDescends_cancelled)
  | recover job => exact keepsChain_recover hd
  | checkpoint delivery job batch =>
    exact keepsChain.onCheckpoint (fun _ => keepsChain_await trivial) fun _ => keepsChain_await trivial
  | attempt entry =>
    exact keepsChain.runPipelineStage (keepsChain_resume _) (keepsChain_processor hd)
      (keepsChain_terminalize hd) fun _ _ => keepsChain_await trivial
  | sweepFailed =>
    refine keepsChain.discard (keepsChain.recoverFailedOf
      (K := fun job => Descends parse j₀ job.ref) (fun queue f hok herr => ?_)
      (fun job stage error hjob => keepsChain_terminalize hjob stage error)
      fun _ _ => keepsChain_await trivial)
    refine fun past => ⟨trivial, fun r hr => ?_⟩
    cases r with
    | ok entries => exact hok entries hr _
    | error e => exact herr e _

/-! ### The snapshot holds nothing else -/

variable (parse j₀) in
structure Chained (s : SnapshotState) : Prop where
  terminal : ∀ t, s.terminal = some t → TombstoneDescends parse j₀ t
  entries : EntriesDescend parse j₀ s.entries
  log : ∀ d job, (d, Event.enqueued job) ∈ s.log → Descends parse j₀ job.ref

variable {d : Delivery} {s s' : SnapshotState} {o : Op} {c : Choice}

/-- The jobs of the queue entries are those that were there, and the one being enqueued. -/
theorem perform_entries {r : Except PipelineError o.Ans} (h : perform env d s o c = some (r, s')) :
    ∀ e ∈ s'.entries, (∃ e₀ ∈ s.entries, e₀.job = e.job) ∨ ∃ delayMs, o = .enqueue e.job delayMs := by
  intro e he
  rcases perform_state h with rfl | ⟨r', heff⟩ | hatt
  · exact .inl ⟨e, he, rfl⟩
  · have hupdated : ∀ (id : JobId) (f : Entry → Entry), (∀ e, (f e).job = e.job) →
        e ∈ updateEntry s.entries id f → ∃ e₀ ∈ s.entries, e₀.job = e.job := by
      intro id f hf hmem
      obtain ⟨e₀, he₀, rfl⟩ := List.mem_map.1 hmem
      refine ⟨e₀, he₀, ?_⟩
      split
      · exact (hf e₀).symm
      · rfl
    have hframe := (effect_frame heff).entries
    cases o <;> simp only [effect, Option.some.injEq, Prod.mk.injEq, reduceCtorEq] at heff
    case enqueue job delayMs =>
      obtain ⟨-, rfl⟩ := heff
      change e ∈ addEntry s.entries job at he
      unfold addEntry at he
      split at he
      · exact .inl ⟨e, he, rfl⟩
      · rcases List.mem_append.1 he with he | he
        · exact .inl ⟨e, he, rfl⟩
        · rw [List.mem_singleton.1 he]
          exact .inr ⟨delayMs, rfl⟩
    case retryJob id =>
      obtain ⟨-, rfl⟩ := heff
      exact .inl (hupdated id _ (fun e => by split <;> rfl) he)
    case updateProgress id p =>
      obtain ⟨-, rfl⟩ := heff
      exact .inl (hupdated id (fun e => { e with progress := p }) (fun e => rfl) he)
    all_goals
      rw [hframe (by simp) (by simp) (by simp)] at he
      exact .inl ⟨e, he, rfl⟩
  · cases o <;> simp only [attempted, Option.some.injEq, reduceCtorEq] at hatt <;> subst hatt <;>
      exact .inl ⟨e, he, rfl⟩

/-- A claim answers the tombstone that was there, or else the one it writes. -/
theorem perform_claim {t : SnapshotTerminalTombstone}
    {r : Except PipelineError SnapshotTerminalTombstone}
    (h : perform env d s (.claimTerminal t) c = some (r, s')) :
    (s'.terminal = s.terminal ∨ s'.terminal = some t) ∧
      ∀ t', r = .ok t' → s'.terminal = some t' := by
  have heffect : ∀ r', effect env d s (.claimTerminal t) = some (r', s') →
      (s'.terminal = s.terminal ∨ s'.terminal = some t) ∧ ∀ t', r' = .ok t' → s'.terminal = some t' := by
    intro r' he
    have he' := Option.some.inj he
    split at he'
    · rename_i existing hexisting
      obtain ⟨rfl, rfl⟩ := Prod.mk.inj he'
      exact ⟨.inl rfl, fun t' ht' => hexisting.trans (congrArg some (Except.ok.inj ht'))⟩
    · obtain ⟨rfl, rfl⟩ := Prod.mk.inj he'
      exact ⟨.inr rfl, fun t' ht' => congrArg some (Except.ok.inj ht')⟩
  rcases perform_cases h with he | ⟨e, r', -, he, rfl⟩ | ⟨e, -, he, rfl⟩ | ⟨a, c', ha, -, -⟩
  · exact heffect r he
  · exact ⟨(heffect r' he).1, fun t' ht' => by cases ht'⟩
  · obtain rfl := Option.some.inj he
    exact ⟨.inl rfl, fun t' ht' => by cases ht'⟩
  · cases c' <;> cases ha

/-- A job that the log says was enqueued was there, or is being enqueued. -/
theorem perform_enqueued {r : Except PipelineError o.Ans} (h : perform env d s o c = some (r, s'))
    {d' : Delivery} {job : StageJob} (hmem : (d', Event.enqueued job) ∈ s'.log) :
    (d', Event.enqueued job) ∈ s.log ∨ ∃ delayMs, o = .enqueue job delayMs := by
  obtain ⟨es, hlog, hes⟩ := perform_log h
  rw [hlog] at hmem
  rcases List.mem_append.1 hmem with hmem | hmem
  · obtain ⟨e, he, heq⟩ := List.mem_map.1 hmem
    cases heq
    have hev := hes _ he
    cases o <;> simp only [Op.logs, reduceCtorEq, or_self] at hev
    cases hev
    exact .inr ⟨_, rfl⟩
  · exact .inl hmem

theorem Chained.perform (hs : Chained parse j₀ s) (ho : o.Chained parse j₀)
    {r : Except PipelineError o.Ans} (h : perform env d s o c = some (r, s')) :
    Chained parse j₀ s' := by
  refine ⟨fun t ht => ?_, fun e he => ?_, fun d' job hmem => ?_⟩
  · by_cases hclaim : ∃ t', o = .claimTerminal t'
    · obtain ⟨t', rfl⟩ := hclaim
      rcases (perform_claim h).1 with hsame | hnew
      · exact hs.terminal t (hsame ▸ ht)
      · rw [← Option.some.inj (hnew.symm.trans ht)]
        exact ho
    · rw [(perform_frame h).terminal fun t' ht' => hclaim ⟨t', ht'⟩] at ht
      exact hs.terminal t ht
  · rcases perform_entries h e he with ⟨e₀, he₀, hjob⟩ | ⟨delayMs, rfl⟩
    · exact hjob ▸ hs.entries e₀ he₀
    · exact ho
  · rcases perform_enqueued h hmem with hmem | ⟨delayMs, rfl⟩
    · exact hs.log d' job hmem
    · exact ho

/-- What a claim or a read comes back with is of the chain. -/
theorem Chained.answers (hs : Chained parse j₀ s) (ho : o.Chained parse j₀)
    {r : Except PipelineError o.Ans} (h : Distrokid.perform env d s o c = some (r, s')) :
    o.AnswersChained parse j₀ r := by
  cases r with
  | error e => cases o <;> trivial
  | ok a =>
    cases o <;> try trivial
    case claimTerminal t => exact (hs.perform ho h).terminal a ((perform_claim h).2 a rfl)
    case getTerminal =>
      rcases perform_cases h with he | ⟨e, r', -, -, he⟩ | ⟨e, -, -, he⟩ | ⟨b, c', hb, -, -⟩
      · obtain ⟨ha, -⟩ := Prod.mk.inj (Option.some.inj he)
        exact fun t ht => hs.terminal t ((Except.ok.inj ha).trans ht)
      · cases he
      · cases he
      · cases c' <;> cases hb
    case getFailed queue =>
      rcases perform_cases h with he | ⟨e, r', -, -, he⟩ | ⟨e, -, -, he⟩ | ⟨b, c', hb, -, -⟩
      · obtain ⟨ha, -⟩ := Prod.mk.inj (Option.some.inj he)
        intro entry hentry
        rw [← Except.ok.inj ha] at hentry
        exact hs.entries entry (List.mem_filter.1 hentry).1
      · cases he
      · cases he
      · cases c' <;> cases hb

end Chain

/-! ### Runs -/

section Runs

variable {durable : Bool} {P : Platform} {env : Env} {j₀ : CatalogIndexJob}
variable {d : Delivery} {s s' : SnapshotState} {o : Op} {c : Choice}

theorem sanitized_descends (hP : P.Faithful) {binding : SnapshotCheckpointBinding}
    {t t' : SnapshotTerminalTombstone} (ht : TombstoneDescends P.dateParse j₀ t)
    (h : sanitizeTombstone P t binding = .ok t') : TombstoneDescends P.dateParse j₀ t' := by
  cases t with
  | cancelled createdAt reason =>
    obtain ⟨createdAt', -, h⟩ := bind_ok.1 h
    obtain ⟨reason', -, h⟩ := bind_ok.1 h
    obtain rfl := Except.ok.inj h
    exact tombstoneDescends_cancelled
  | terminal job createdAt reason =>
    obtain ⟨job', hjob, h⟩ := bind_ok.1 h
    obtain ⟨createdAt', -, h⟩ := bind_ok.1 h
    obtain ⟨reason', -, h⟩ := bind_ok.1 h
    obtain rfl := Except.ok.inj h
    have hfrom : Descends P.dateParse j₀ job.toSnapshotRef := tombstoneDescends_terminal.1 ht
    exact tombstoneDescends_terminal.2 (hfrom.trans (sameChain_sanitizeFinalizeJob hP hjob))

theorem kept_durable {t t' : SnapshotTerminalTombstone} (hdurable : durable = true)
    (h : kept durable P s t = .ok t') :
    ∃ binding, s.binding = some binding ∧ sanitizeTombstone P t binding = .ok t' := by
  unfold kept at h
  rw [if_pos hdurable] at h
  split at h
  · cases h
  · rename_i binding hbinding
    refine ⟨binding, hbinding, ?_⟩
    cases hsan : sanitizeTombstone P t binding with
    | error e =>
      rw [hsan] at h
      cases h
    | ok t'' =>
      rw [hsan] at h
      rw [Except.ok.inj h]

theorem kept_descends (hP : P.Faithful) {t t' : SnapshotTerminalTombstone}
    (ht : TombstoneDescends P.dateParse j₀ t) (h : kept durable P s t = .ok t') :
    TombstoneDescends P.dateParse j₀ t' := by
  cases hdurable : durable with
  | false =>
    rw [hdurable] at h
    exact Except.ok.inj h ▸ ht
  | true =>
    obtain ⟨binding, -, hsan⟩ := kept_durable hdurable h
    exact sanitized_descends hP ht hsan

theorem keptAnswer_descends (hP : P.Faithful) {terminal answered : Option SnapshotTerminalTombstone}
    (hterminal : ∀ t, terminal = some t → TombstoneDescends P.dateParse j₀ t)
    (h : keptAnswer durable P s terminal = .ok answered) :
    ∀ t, answered = some t → TombstoneDescends P.dateParse j₀ t := by
  intro t' ht'
  cases terminal with
  | none =>
    obtain rfl := Except.ok.inj h
    cases ht'
  | some t =>
    change (kept durable P s t).map some = _ at h
    cases hkept : kept durable P s t with
    | error e =>
      rw [hkept] at h
      cases h
    | ok answered' =>
      rw [hkept] at h
      obtain rfl := Option.some.inj ((Except.ok.inj h).trans ht')
      exact kept_descends hP (hterminal t rfl) hkept

/-- A claim is refused before it is made, or made with the tombstone as the store keeps it. -/
theorem performAt_claim {t : SnapshotTerminalTombstone} {r : Except PipelineError SnapshotTerminalTombstone}
    (h : performAt durable P env s d (.claimTerminal t) c = some (r, s')) :
    (s' = s ∧ ∃ e, r = .error e) ∨ ∃ t' r', kept durable P s t = .ok t' ∧
      perform env d s (.claimTerminal t') c = some (r', s') ∧ r = r'.bind (kept durable P s') := by
  cases hkept : kept durable P s t with
  | error e =>
    refine .inl ?_
    cases c <;> simp only [performAt, hkept] at h
    case lost e' =>
      simp only [perform, attempted] at h
      split at h
      · obtain ⟨rfl, rfl⟩ := Prod.mk.inj (Option.some.inj h)
        exact ⟨rfl, e', rfl⟩
      · cases h
    all_goals
      obtain ⟨rfl, rfl⟩ := Prod.mk.inj (Option.some.inj h)
      exact ⟨rfl, e, rfl⟩
  | ok t' =>
    simp only [performAt, hkept] at h
    obtain ⟨⟨r', s''⟩, hp, he⟩ := Option.map_eq_some_iff.1 h
    obtain ⟨rfl, rfl⟩ := Prod.mk.inj he
    exact .inr ⟨t', r', rfl, hp, rfl⟩

theorem performAt_getTerminal {r : Except PipelineError (Option SnapshotTerminalTombstone)}
    (h : performAt durable P env s d .getTerminal c = some (r, s')) :
    ∃ r', perform env d s .getTerminal c = some (r', s') ∧ r = r'.bind (keptAnswer durable P s') := by
  obtain ⟨⟨r', s''⟩, hp, he⟩ := Option.map_eq_some_iff.1 h
  obtain ⟨rfl, rfl⟩ := Prod.mk.inj he
  exact ⟨r', hp, rfl⟩

theorem Chained.performAt (hP : P.Faithful) (hs : Chained P.dateParse j₀ s)
    (ho : o.Chained P.dateParse j₀) {r : Except PipelineError o.Ans}
    (h : performAt durable P env s d o c = some (r, s')) :
    Chained P.dateParse j₀ s' ∧ o.AnswersChained P.dateParse j₀ r := by
  have hplain : ∀ r', Distrokid.perform env d s o c = some (r', s') →
      Chained P.dateParse j₀ s' ∧ o.AnswersChained P.dateParse j₀ r' := fun r' h =>
    ⟨hs.perform ho h, hs.answers ho h⟩
  cases o with
  | claimTerminal t =>
    rcases performAt_claim h with ⟨rfl, e, rfl⟩ | ⟨t', r', hkept, hp, rfl⟩
    · exact ⟨hs, trivial⟩
    · have hto : TombstoneDescends P.dateParse j₀ t' := kept_descends hP ho hkept
      have hr' := hs.answers (o := .claimTerminal t') hto hp
      refine ⟨hs.perform (o := .claimTerminal t') hto hp, ?_⟩
      cases r' with
      | error e => trivial
      | ok winning =>
        show Op.AnswersChained P.dateParse j₀ (.claimTerminal t) (kept durable P s' winning)
        cases hwinning : kept durable P s' winning with
        | error e => trivial
        | ok answered => exact kept_descends hP hr' hwinning
  | getTerminal =>
    obtain ⟨r', hp, rfl⟩ := performAt_getTerminal h
    have hr' : Op.AnswersChained P.dateParse j₀ .getTerminal r' := hs.answers ho hp
    refine ⟨hs.perform ho hp, ?_⟩
    cases r' with
    | error e => trivial
    | ok terminal =>
      show Op.AnswersChained P.dateParse j₀ .getTerminal (keptAnswer durable P s' terminal)
      cases hkept : keptAnswer durable P s' terminal with
      | error e => trivial
      | ok answered => exact keptAnswer_descends hP hr' hkept
  | _ => exact hplain r h

theorem Opened.chained (hs : Opened j₀ s) : Chained P.dateParse j₀ s := by
  refine ⟨fun t ht => ?_, fun e he => ?_, fun d job hmem => ?_⟩
  · rw [hs.terminal] at ht
    cases ht
  · rw [hs.entries e he]
    exact SameChain.refl _
  · rw [hs.log] at hmem
    cases hmem

theorem Chained.known (hs : Chained P.dateParse j₀ s) {job : StageJob}
    (h : knownJob j₀ s job = true) : Descends P.dateParse j₀ job.ref := by
  simp only [knownJob, Bool.or_eq_true, decide_eq_true_eq, List.any_eq_true] at h
  rcases h with rfl | ⟨⟨d', e⟩, hmem, rfl⟩
  · exact SameChain.refl _
  · exact hs.log d' job hmem

theorem Chained.works (hs : Chained P.dateParse j₀ s) {work : Work} (h : descends j₀ s work = true) :
    work.Descend P.dateParse j₀ := by
  cases work with
  | stage job => exact hs.known h
  | terminalize job stage error => exact hs.known h
  | recover job =>
    have hindex : knownJob j₀ s (.index job) = true := h
    exact hs.known hindex
  | attempt entry => exact hs.known h
  | _ => trivial

/-- Whatever is reached, the snapshot holds jobs of its index job's chain alone. -/
theorem chained_of_reaches (hP : P.Faithful) (hs : Opened j₀ s) {w : SnapshotWorld}
    (h : (chainSystem durable P env j₀).Reaches (World.idle s) w) :
    Chained P.dateParse j₀ w.state := by
  refine Watch.invariant_of_reaches (W := chainWatch P.dateParse j₀) (J := Chained P.dateParse j₀)
    (fun s running t s' hs hstart => ?_) (fun _ t s o c r s' hs ho hp => hs.performAt hP ho hp)
    (fun s t r hs => hs) (fun s t hs => hs) (fun s c s' hs henv => ?_) hs.chained h
  · simp only [chainSystem, pipelineSystem, anyOrder] at hstart
    split at hstart
    · rename_i hallowed
      obtain rfl := Option.some.inj hstart
      exact ⟨⟨hs.terminal, hs.entries, hs.log⟩, keepsChain_code (hs.works hallowed.2)⟩
    · cases hstart
  · cases c <;> cases henv
    exact ⟨hs.terminal, hs.entries, hs.log⟩

end Runs

/-! ### The start of browser work -/

section Browser

abbrev Past := List (Settled distrokid PipelineError)

/-- What a delivery has just heard under the account lock: a clock that shows less than the
job's deadline, which leaves the session its cleanup grace; no tombstone; no abort. -/
def ClockSeen (parse : String → Option ℤ) (job : SnapshotRef) (past : Past) : Prop :=
  ∃ (now deadline expiry : ℤ) (rest : Past),
    past = ⟨Op.aborted, .ok none⟩ :: ⟨Op.getTerminal, .ok none⟩ :: ⟨Op.now, .ok now⟩ :: rest ∧
    (present job.deadlineAt).bind parse = some deadline ∧
    (present job.sessionExpiresAt).bind parse = some expiry ∧
    deadline + DISTROKID_SESSION_CLEANUP_GRACE_MS ≤ expiry ∧ now < deadline

/-- Browser work is started right after that; that of a chunk, after a read of the index
and the outcomes that say what is left to extract. -/
def Fenced (parse : String → Option ℤ) : Op → Past → Prop
  | .readCatalogIndex job, past => ClockSeen parse job.toSnapshotRef past
  | .extractChunk job _, past => ∃ existing index rest,
      past = ⟨Op.openExisting, .ok existing⟩ :: ⟨Op.getIndex, .ok index⟩ :: rest ∧
        ClockSeen parse job.toSnapshotRef rest
  | _, _ => True

def browserWatch (parse : String → Option ℤ) : Watch distrokid PipelineError where
  admits _ _ := True
  ok past o := Fenced parse o past

variable {env : Env} {α : Type} {past : Past} {job : SnapshotRef}

abbrev KeepsFence (env : Env) {α : Type} (p : Pipe α) : Prop := (browserWatch env.dateParse).Keeps p

def Op.startsBrowser : Op → Bool
  | readCatalogIndex _ => true
  | extractChunk .. => true
  | _ => false

theorem keepsFence_await {o : Op} (ho : o.startsBrowser = false) : KeepsFence env (await o) :=
  Watch.keeps_call fun _ => by cases o <;> trivial

theorem keepsFence : OutsideProperty fun {α} (p : Pipe α) => KeepsFence env p where
  toCompositional := Watch.compositional
  outside ho := keepsFence_await (by
    rename_i o
    cases o <;> first | rfl | cases ho)

theorem deadlineMs_required (hreq : env.requireDeadline = true) {answer : Option ℤ}
    (h : deadlineMs env job = .ok answer) : ∃ deadline expiry, answer = some deadline ∧
      (present job.deadlineAt).bind env.dateParse = some deadline ∧
      (present job.sessionExpiresAt).bind env.dateParse = some expiry ∧
      deadline + DISTROKID_SESSION_CLEANUP_GRACE_MS ≤ expiry := by
  unfold deadlineMs at h
  split at h
  · rw [if_pos hreq] at h
    cases h
  rename_i deadlineAt hdeadlineAt
  change present job.deadlineAt = some deadlineAt at hdeadlineAt
  split at h
  · cases h
  rename_i deadline hdeadline
  split at h
  · rename_i sessionExpiresAt hexpiresAt
    change present job.sessionExpiresAt = some sessionExpiresAt at hexpiresAt
    split at h
    · cases h
    rename_i expiry hexpiry
    split at h
    · cases h
    rename_i hgrace
    refine ⟨deadline, expiry, (Except.ok.inj h).symm, ?_, ?_, by omega⟩
    · rw [hdeadlineAt]
      exact hdeadline
    · rw [hexpiresAt]
      exact hexpiry
  · rw [if_pos hreq] at h
    cases h

/-- A check of the deadline that passes has just read the clock. -/
theorem watched_assertPipelineDeadline (hreq : env.requireDeadline = true) :
    (browserWatch env.dateParse).Watched (fun past r => r = .ok () →
      ∃ (now deadline expiry : ℤ) (rest : Past), past = ⟨Op.now, .ok now⟩ :: rest ∧
        (present job.deadlineAt).bind env.dateParse = some deadline ∧
        (present job.sessionExpiresAt).bind env.dateParse = some expiry ∧
        deadline + DISTROKID_SESSION_CLEANUP_GRACE_MS ≤ expiry ∧ now < deadline)
      (assertPipelineDeadline env job) past := by
  unfold assertPipelineDeadline
  split
  · exact fun h => by cases h
  · rename_i hnone
    obtain ⟨deadline, expiry, hsome, -⟩ := deadlineMs_required hreq hnone
    cases hsome
  · rename_i limit hlimit
    obtain ⟨deadline, expiry, hsome, hdeadline, hexpiry, hgrace⟩ := deadlineMs_required hreq hlimit
    obtain rfl := Option.some.inj hsome
    refine Watch.Watched.bind (Q := fun p r => ∃ past, p = ⟨Op.now, r⟩ :: past)
      (Watch.watched_call trivial fun r _ => ⟨past, rfl⟩) (fun p now hp => ?_)
      fun p e _ h => by cases h
    obtain ⟨past, rfl⟩ := hp
    split
    · exact fun h => by cases h
    · rename_i hbefore
      exact fun _ => ⟨now, limit, expiry, past, rfl, hdeadline, hexpiry, hgrace, not_le.1 hbefore⟩

theorem watched_assertCanContinue (hreq : env.requireDeadline = true) :
    (browserWatch env.dateParse).Watched (fun past r => r = .ok () → ClockSeen env.dateParse job past)
      (assertCanContinue env job) past := by
  refine Watch.Watched.bind (keepsFence.assertNotAborted past) (fun past _ _ => ?_)
    fun _ _ _ h => by cases h
  refine Watch.Watched.bind (Q := fun p r => r = .ok () → ∃ (now deadline expiry : ℤ) (rest : Past),
    p = ⟨Op.getTerminal, .ok none⟩ :: ⟨Op.now, .ok now⟩ :: rest ∧
      (present job.deadlineAt).bind env.dateParse = some deadline ∧
      (present job.sessionExpiresAt).bind env.dateParse = some expiry ∧
      deadline + DISTROKID_SESSION_CLEANUP_GRACE_MS ≤ expiry ∧ now < deadline) ?_ ?_
    fun _ _ _ h => by cases h
  · refine Watch.Watched.bind (watched_assertPipelineDeadline hreq) (fun p _ hp => ?_)
      fun _ _ _ h => by cases h
    obtain ⟨now, deadline, expiry, rest, rfl, hfacts⟩ := hp rfl
    refine ⟨trivial, fun r _ => ?_⟩
    rcases r with e | _ | t
    · exact fun h => by cases h
    · exact fun _ => ⟨now, deadline, expiry, rest, rfl, hfacts⟩
    · exact fun h => by cases h
  · intro p _ hp
    obtain ⟨now, deadline, expiry, rest, rfl, hfacts⟩ := hp rfl
    refine ⟨trivial, fun r _ => ?_⟩
    rcases r with e | _ | reason
    · exact fun h => by cases h
    · exact fun _ => ⟨now, deadline, expiry, rest, rfl, hfacts⟩
    · exact fun h => by cases h

/-- Work under the account lock starts with the deadline ahead of it. -/
theorem keepsFence_withAccountLock (hreq : env.requireDeadline = true) {stopped : α}
    {busy work : Pipe α} (hbusy : KeepsFence env busy)
    (hwork : ∀ past, ClockSeen env.dateParse job past →
      (browserWatch env.dateParse).Watched (fun _ _ => True) work past) :
    KeepsFence env (withAccountLock env job stopped busy work) := by
  have hlocked : KeepsFence env (underAccountLock env job work) := by
    unfold underAccountLock
    split
    · exact keepsFence.raise _
    · refine keepsFence.ensure (fun past => ?_) (keepsFence.settle (keepsFence.routine rfl))
      refine Watch.Watched.bind (watched_assertCanContinue hreq) (fun past _ hseen => ?_)
        fun _ _ _ => trivial
      refine Watch.Watched.bind (Q := fun _ _ => True)
        ((hwork past (hseen rfl)).attempt fun _ _ _ => trivial) (fun past r _ => ?_) fun _ _ _ => trivial
      exact keepsFence.bind keepsFence.assertNotAborted (fun _ => keepsFence.ofExcept r) past
  refine keepsFence.bind (keepsFence_await rfl) fun got => ?_
  split
  · refine keepsFence.handle hlocked fun e => ?_
    split
    · exact keepsFence.ret _
    · exact keepsFence.raise _
  · exact hbusy

theorem keepsFence_catalogIndex (hreq : env.requireDeadline = true) (job : CatalogIndexJob) :
    KeepsFence env (extractDistroKidCatalogIndex env job) := by
  refine keepsFence.unlessTerminal (keepsFence_withAccountLock hreq (keepsFence.raise _) fun past hseen => ?_)
  refine Watch.Watched.bind (Q := fun _ _ => True) (Watch.watched_call hseen fun _ _ => trivial)
    (fun past releases _ => ?_) fun _ _ _ => trivial
  exact (keepsFence.bind (keepsFence.assertCanContinue _) fun _ =>
    keepsFence.bind (keepsFence_await rfl) fun _ => keepsFence.bind (keepsFence.read rfl) fun _ =>
    keepsFence.bind (keepsFence.read rfl) fun _ => keepsFence.bind (keepsFence.assertCanContinue _) fun _ =>
    keepsFence.bind (keepsFence_await rfl) fun _ => keepsFence.bind (keepsFence.assertCanContinue _) fun _ =>
    keepsFence.bind (keepsFence_await rfl) fun _ => keepsFence.ret _) past

theorem keepsFence_chunk (hreq : env.requireDeadline = true) (pid : ℕ) (job : ReleaseChunkJob) :
    KeepsFence env (extractDistroKidReleaseChunk env pid job) := by
  refine keepsFence.unlessTerminal (keepsFence_withAccountLock hreq
    (keepsFence.deferChunk fun _ _ _ => keepsFence_await rfl) fun past hseen => ?_)
  refine Watch.Watched.bind (Q := fun p r => p = ⟨Op.getIndex, r⟩ :: past)
    (Watch.watched_call trivial fun _ _ => rfl) (fun p index hp => ?_) fun _ _ _ => trivial
  obtain rfl := hp
  refine Watch.Watched.bind (Q := fun p r => p = ⟨Op.openExisting, r⟩ :: ⟨Op.getIndex, .ok index⟩ :: past)
    (Watch.watched_call trivial fun _ _ => rfl) (fun p existing hp => ?_) fun _ _ _ => trivial
  obtain rfl := hp
  refine Watch.Watched.bind (Q := fun _ _ => True)
    (Watch.watched_call ⟨existing, index, past, rfl, hseen⟩ fun _ _ => trivial) (fun past _ _ => ?_)
    fun _ _ _ => trivial
  exact (keepsFence.bind (keepsFence.read rfl) fun _ => keepsFence.bind (keepsFence.assertCanContinue _) fun _ =>
    keepsFence.bind (keepsFence_await rfl) fun _ => keepsFence.bind (keepsFence_await rfl) fun _ =>
    keepsFence.bind (keepsFence.assertCanContinue _) fun _ => keepsFence.bind (keepsFence_await rfl) fun _ =>
    keepsFence.bind (keepsFence.read rfl) fun _ => keepsFence.bind (keepsFence.read rfl) fun _ =>
    keepsFence.bind (keepsFence.recordChunkProgress fun _ => keepsFence_await rfl) fun _ =>
    keepsFence.bind (keepsFence.chainNext (fun _ _ _ => keepsFence_await rfl) fun _ _ _ => keepsFence_await rfl)
      fun _ => keepsFence.ret _) past

theorem keepsFence_code (hreq : env.requireDeadline = true) (d : Delivery) :
    KeepsFence env (code env d) :=
  keepsFence.code
    (fun _ _ => keepsFence.processor (fun j _ => keepsFence_catalogIndex hreq j)
      fun j _ => keepsFence_chunk hreq d.pid j)
    (fun _ _ _ _ => keepsFence.onCheckpoint (fun _ => keepsFence_await rfl) fun _ => keepsFence_await rfl)
    fun _ _ => keepsFence_await rfl

end Browser

/-- The job chain keeps identity and deadline. Every job that is enqueued while a snapshot
runs from its index job carries the index job's identity, session handle and instants; and
where deadlines are required, whatever a delivery has been answered until it starts browser
work ends with a clock before the job's deadline, which leaves the session its grace. -/
theorem job_chain {durable : Bool} {P : Platform} {env : Env} {j₀ : CatalogIndexJob}
    (hP : P.Faithful) {s : SnapshotState} (hs : Opened j₀ s) {w : SnapshotWorld}
    (h : (chainSystem durable P env j₀).Reaches (World.idle s) w) :
    (∀ d job, (d, Event.enqueued job) ∈ w.state.log →
      SameChain P.dateParse j₀.toSnapshotRef job.ref) ∧
    (env.requireDeadline = true → ∀ d o k, (d, Prog.op o k) ∈ w.procs →
      (∃ past, ((chainSystem durable P env j₀).code d).Follows past (.op o k)) ∧
      ∀ past, ((chainSystem durable P env j₀).code d).Follows past (.op o k) →
        Fenced P.dateParse o past) := by
  refine ⟨(chained_of_reaches hP hs h).log, fun hreq d o k hmem => ?_⟩
  refine ⟨Watch.follows_of_reaches h _ hmem, fun past hpast => ?_⟩
  have hreq' : ({ env with dateParse := P.dateParse } : Env).requireDeadline = true := hreq
  have hkeeps : KeepsFence { env with dateParse := P.dateParse }
      ((chainSystem durable P env j₀).code d) := keepsFence_code hreq' d
  exact ((hkeeps []).follows hpast fun _ _ => trivial).1

/-- The language, of two dates an hour apart. -/
def hourPlatform : Platform where
  dateParse t :=
    if t = "2026-01-01T01:00:00.000Z" then some 1767229200000
    else if t = "2026-01-01T02:00:00.000Z" then some 1767232800000 else none
  toISOString epoch :=
    if epoch = 1767229200000 then "2026-01-01T01:00:00.000Z" else "2026-01-01T02:00:00.000Z"
  parseUrl _ := none

theorem hourPlatform_cases {text : String} {epoch : ℤ}
    (h : hourPlatform.dateParse text = some epoch) :
    epoch = 1767229200000 ∨ epoch = 1767232800000 := by
  simp only [hourPlatform] at h
  split at h
  · exact .inl (Option.some.inj h).symm
  · split at h
    · exact .inr (Option.some.inj h).symm
    · cases h

theorem faithful_hourPlatform : hourPlatform.Faithful where
  date text epoch h := by
    rcases hourPlatform_cases h with rfl | rfl
    · decide +kernel
    · decide +kernel
  dateText text epoch name h := by
    have hchecked : ∀ t, (isBlank t || utf16Length t > 64 || hasControlCharacter t true) = false →
        textValue t name 64 = .ok t := by
      intro t ht
      unfold textValue
      rw [if_neg (by simp [ht])]
    rcases hourPlatform_cases h with rfl | rfl
    · exact hchecked _ (by decide +kernel)
    · exact hchecked _ (by decide +kernel)
  url text url h := by cases h
  urlText text url h := by cases h

def leasedIndex : CatalogIndexJob :=
  { toSnapshotRef := { sampleRef with
      steelSessionId := some "v2.sealed"
      deadlineAt := some "2026-01-01T01:00:00.000Z"
      sessionExpiresAt := some "2026-01-01T02:00:00.000Z" }
    artists := [] }

def leasedSystem : System distrokid PipelineError SnapshotState Delivery Choice :=
  chainSystem true hourPlatform { sampleEnv with requireDeadline := true } leasedIndex

/-- A running program is about to start browser work. -/
def startsBrowserWork (w : SnapshotWorld) : Bool :=
  w.procs.any fun q => match q.2 with
    | .op o _ => Op.startsBrowser o
    | _ => false

/-- The index stage is about to read the catalogue; it has read it and enqueued the plan. -/
def leasedRun : { cues : List (System.Cue Delivery) × List (System.Cue Delivery) //
    (∃ w ∈ leasedSystem.play calm (World.idle .empty) cues.1, startsBrowserWork w = true) ∧
    ∃ w ∈ leasedSystem.play calm (World.idle .empty) cues.2,
      (⟨0, .stage (.index leasedIndex)⟩, Event.enqueued
        (.plan { toSnapshotRef := refOf leasedIndex.toSnapshotRef, chunkSize := none })) ∈ w.state.log } :=
  ⟨([.start ⟨0, .stage (.index leasedIndex)⟩, .awaits 0 8],
    [.start ⟨0, .stage (.index leasedIndex)⟩, .awaits 0 27]), by decide +kernel⟩

theorem job_chain_leased :
    (∃ w, leasedSystem.Reaches (World.idle .empty) w ∧ startsBrowserWork w = true ∧
      ∀ d o k, (d, Prog.op o k) ∈ w.procs → ∃ past, (leasedSystem.code d).Follows past (.op o k) ∧
        Fenced hourPlatform.dateParse o past) ∧
    ∃ w, leasedSystem.Reaches (World.idle .empty) w ∧ ∃ d job,
      (d, Event.enqueued job) ∈ w.state.log ∧
        SameChain hourPlatform.dateParse leasedIndex.toSnapshotRef job.ref := by
  have hopened : Opened leasedIndex .empty := ⟨rfl, rfl, fun e he => by cases he⟩
  obtain ⟨cues, ⟨w, hw, hstarts⟩, ⟨w', hw', hmem⟩⟩ := leasedRun
  have hreach := System.reaches_play hw
  have hreach' := System.reaches_play hw'
  refine ⟨⟨w, hreach, hstarts, fun d o k hop => ?_⟩, ⟨w', hreach', _, _, hmem, ?_⟩⟩
  · obtain ⟨⟨past, hpast⟩, hall⟩ :=
      (job_chain faithful_hourPlatform hopened hreach).2 rfl d o k hop
    exact ⟨past, hpast, hall past hpast⟩
  · exact (job_chain faithful_hourPlatform hopened hreach').1 _ _ hmem

end CatalogSentinel.Distrokid
