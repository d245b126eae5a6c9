import CatalogSentinel.Distrokid.FailedLedger

/-!
What the attempts and the sweeps do to the failed ledger after the answers they have had.
An entry is marked only by a program that claimed the tombstone and enqueued its
finalizer; a finalizer's cooldown is counted on from the entry as it was read; and a
sweep that counts no failure has settled every entry that it read.
-/

namespace CatalogSentinel.Distrokid.Ledger

open CatalogSentinel.Data CatalogSentinel.Concurrent

abbrev QueuePast := List (Settled queues PipelineError)

/-- The past holds this await, answered so. -/
def Answered (past : QueuePast) (o : QueueOp) (a : o.Ans) : Prop :=
  (⟨o, .ok a⟩ : Settled queues PipelineError) ∈ past

/-- The tombstone of the snapshot was claimed, and its finalizer enqueued if it has one. -/
def Terminalized (past : QueuePast) (snapshotId : String) : Prop :=
  ∃ t₀ t, Answered past (.within snapshotId (.claimTerminal t₀)) t ∧
    ∀ job, t.finalizeJob? = some job →
      Answered past (.within snapshotId (.enqueue (.finalize job) 0)) ()

/-- The entry was read from the failed set of a queue. -/
def ReadBy (past : QueuePast) (entry : Entry) : Prop :=
  ∃ queue first last, ∃ entries : List Entry,
    Answered past (.getFailed queue first last) entries ∧ entry ∈ entries

/-- The entry was moved back to waiting; or it was inside its cooldown, for a finalizer, and
marked as handled, for any other stage. -/
def LeftBy (past : QueuePast) (entry : Entry) : Prop :=
  Answered past (.within entry.job.ref.snapshotId (.retryJob entry.id)) () ∨
    if entry.job.isFinalize then
      ∃ now : ℤ, Answered past (.within entry.job.ref.snapshotId .now) now ∧
        now < entry.progress.finalizeRecoveryNotBefore
    else entry.progress.terminalFailureHandled = true ∨
      ∃ progress, progress.terminalFailureHandled = true ∧
        Answered past (.within entry.job.ref.snapshotId (.updateProgress entry.id progress)) ()

/-- Every queue was read, and every entry that was read has been settled. -/
structure Swept (past : QueuePast) : Prop where
  queues : ∀ queue ∈ DK_QUEUE_NAMES, ∃ first last entries,
    Answered past (.getFailed queue first last) entries
  entries : ∀ entry, ReadBy past entry → LeftBy past entry

/-- A finalizer's recovery is counted on from the entry that was read; any other entry is
marked after its snapshot was terminalized. -/
def MayUpdate (past : QueuePast) (snapshotId : String) (id : JobId) (progress : JobProgress) : Prop :=
  if isFinalizer id then
    ∃ entry, ReadBy past entry ∧ entry.job.ref.snapshotId = snapshotId ∧ entry.id = id ∧
      progress.terminalFailureHandled = entry.progress.terminalFailureHandled ∧
      progress.finalizeRecoveryAttempts = entry.progress.finalizeRecoveryAttempts + 1
  else Terminalized past snapshotId

def Allowed (past : QueuePast) : QueueOp → Prop
  | .within snapshotId (.updateProgress id progress) => MayUpdate past snapshotId id progress
  | .returned stats => stats.failed = 0 → Swept past
  | .clean .. => ∃ stats, Answered past (.returned stats) () ∧ stats.failed = 0
  | _ => True

/-- The entry is kept under the id of its job. -/
def Filed (entry : Entry) : Prop := entry.id = entry.job.jobId

def FiledIn (queue : String) (entries : List Entry) : Prop :=
  ∀ entry ∈ entries, Filed entry ∧ entry.job.queue = queue

def Admitted : (o : QueueOp) → Except PipelineError o.Ans → Prop
  | .getFailed queue _ _, .ok entries => FiledIn queue entries
  | _, _ => True

def ledgerWatch : Watch queues PipelineError where
  admits := Admitted
  ok := Allowed

theorem Filed.isFinalizer {entry : Entry} (h : Filed entry) :
    isFinalizer entry.id = entry.job.isFinalize := by
  have hq : entry.id.queue = entry.job.queue := congrArg JobId.queue h
  unfold Ledger.isFinalizer
  rw [hq]
  cases entry.job <;> rfl

/-! ### Programs of one snapshot -/

section Within

variable {env : Env} {snapshotId : String} {α : Type} {past past' : QueuePast}

/-- Whatever it is answered, the program marks nothing. -/
abbrev KeepsWithin (snapshotId : String) {α : Type} (p : Pipe α) : Prop :=
  ledgerWatch.Keeps (p.embed (within snapshotId))

theorem keepsWithin_await {o : Op} (ho : ∀ past, Allowed past (.within snapshotId o)) :
    KeepsWithin snapshotId (Distrokid.await o) :=
  Watch.keeps_embed_call ho

theorem keepsWithin (snapshotId : String) :
    OutsideProperty fun {α} (p : Pipe α) => KeepsWithin snapshotId p where
  toCompositional := Watch.compositional.embed
  outside ho := keepsWithin_await fun _ => by
    rename_i o _
    cases o <;> trivial

theorem keepsWithin_processor (pid : ℕ) (job : StageJob) :
    KeepsWithin snapshotId (processor env pid job) := by
  have h := keepsWithin snapshotId
  have hawait : ∀ {o : Op}, (∀ past, Allowed past (.within snapshotId o)) →
      KeepsWithin snapshotId (Distrokid.await o) := keepsWithin_await
  refine h.processor (fun j _ => h.unlessTerminal <| h.withAccountLock (h.raise _) ?_)
    fun j _ => h.unlessTerminal <| h.withAccountLock (h.deferChunk fun _ _ _ => h.outside rfl) ?_
  · exact h.catalogIndexWork (hawait fun _ => trivial) (fun _ => h.outside rfl)
      (fun _ _ => h.outside rfl) fun _ _ _ => h.outside rfl
  · exact h.chunkWork (hawait fun _ => trivial) (fun _ => hawait fun _ => trivial)
      (fun _ => hawait fun _ => trivial) (fun _ => hawait fun _ => trivial) (fun _ _ => h.outside rfl)
      (fun _ => h.outside rfl) (fun _ _ _ => h.outside rfl) fun _ _ _ => h.outside rfl

/-- The past of a program goes on within snapshots only. -/
structure Grown (past past' : QueuePast) : Prop where
  subset : past ⊆ past'
  within : ∀ x ∈ past', x ∈ past ∨ ∃ snapshotId o, x.1 = QueueOp.within snapshotId o

theorem Grown.refl (past : QueuePast) : Grown past past := ⟨fun _ h => h, fun _ h => .inl h⟩

theorem Grown.trans {past₁ past₂ past₃ : QueuePast} (h : Grown past₁ past₂)
    (h' : Grown past₂ past₃) : Grown past₁ past₃ where
  subset := List.Subset.trans h.subset h'.subset
  within x hx := (h'.within x hx).elim (h.within x) .inr

theorem Answered.mono {o : QueueOp} {a : o.Ans} (ha : Answered past o a) (h : past ⊆ past') :
    Answered past' o a := h ha

theorem ReadBy.mono {entry : Entry} (hr : ReadBy past entry) (h : past ⊆ past') :
    ReadBy past' entry := by
  obtain ⟨queue, first, last, entries, ha, he⟩ := hr
  exact ⟨queue, first, last, entries, ha.mono h, he⟩

theorem Terminalized.mono (ht : Terminalized past snapshotId) (h : past ⊆ past') :
    Terminalized past' snapshotId := by
  obtain ⟨t₀, t, hclaim, hfin⟩ := ht
  exact ⟨t₀, t, hclaim.mono h, fun job hjob => (hfin job hjob).mono h⟩

theorem LeftBy.mono {entry : Entry} (hl : LeftBy past entry) (h : past ⊆ past') :
    LeftBy past' entry := by
  rcases hl with hl | hl
  · exact .inl (hl.mono h)
  · refine .inr ?_
    split
    · rename_i hfin
      rw [if_pos hfin] at hl
      obtain ⟨now, ha, hlt⟩ := hl
      exact ⟨now, ha.mono h, hlt⟩
    · rename_i hfin
      rw [if_neg hfin] at hl
      rcases hl with hl | ⟨progress, hp, ha⟩
      · exact .inl hl
      · exact .inr ⟨progress, hp, ha.mono h⟩

theorem watched_grown {Q : QueuePast → Except PipelineError α → Prop} {p : Pipe α}
    (hp : ledgerWatch.Watched Q (p.embed (within snapshotId)) past) :
    ledgerWatch.Watched (fun past' r => Grown past past' ∧ Q past' r)
      (p.embed (within snapshotId)) past := by
  refine hp.embedded.mono ?_
  rintro past' r ⟨⟨new, rfl, hnew⟩, hQ⟩
  refine ⟨⟨List.subset_append_right _ _, fun x hx => ?_⟩, hQ⟩
  rcases List.mem_append.1 hx with hx | hx
  · obtain ⟨o, ho⟩ := hnew x hx
    exact .inr ⟨snapshotId, o, ho⟩
  · exact .inl hx

/-- One part of a program of which only the return is spoken about, and the rest. -/
theorem watched_step {β : Type} {p : Pipe α} {f : α → Pipe β}
    {Q : QueuePast → α → Prop} {R : QueuePast → β → Prop}
    (hp : ledgerWatch.Watched (fun past r => ∀ a, r = .ok a → Q past a)
      (p.embed (within snapshotId)) past)
    (hf : ∀ past', Grown past past' → ∀ a, Q past' a →
      ledgerWatch.Watched (fun past r => ∀ b, r = .ok b → R past b)
        ((f a).embed (within snapshotId)) past') :
    ledgerWatch.Watched (fun past r => ∀ b, r = .ok b → R past b)
      ((p >>= f).embed (within snapshotId)) past := by
  rw [Prog.embed_bind]
  refine (watched_grown hp).bind (fun past' a hQ => hf past' hQ.1 a (hQ.2 a rfl)) ?_
  exact fun _ e _ b hb => by cases hb

theorem watched_return {Q : QueuePast → α → Prop} {a : α} (h : Q past a) :
    ledgerWatch.Watched (fun past r => ∀ a, r = .ok a → Q past a)
      ((pure a : Pipe α).embed (within snapshotId)) past := by
  intro a' ha
  cases ha
  exact h

theorem watched_quiet {p : Pipe α} (hp : KeepsWithin snapshotId p) :
    ledgerWatch.Watched (fun _ r => ∀ a, r = .ok a → True) (p.embed (within snapshotId)) past :=
  (hp past).mono fun _ _ _ _ _ => trivial

theorem watched_answer {o : Op} (ho : Allowed past (.within snapshotId o)) :
    ledgerWatch.Watched (fun past r => ∀ a, r = .ok a → Answered past (.within snapshotId o) a)
      ((Distrokid.await o).embed (within snapshotId)) past := by
  refine Watch.watched_embed_call ho fun r _ a ha => ?_
  cases r with
  | ok a' =>
    cases ha
    exact List.mem_cons_self
  | error e => cases ha

/-- A terminalization that returns has claimed the tombstone and enqueued its finalizer. -/
theorem watched_terminalize (job : StageJob) (stage : String) (error : PipelineError) :
    ledgerWatch.Watched (fun past r => ∀ t, r = .ok t → Terminalized past snapshotId)
      ((terminalizeDistroKidFailure job stage error).embed (within snapshotId)) past := by
  have hawait : ∀ {o : Op}, (∀ past, Allowed past (.within snapshotId o)) →
      KeepsWithin snapshotId (Distrokid.await o) := keepsWithin_await
  refine watched_step (watched_quiet (hawait fun _ => trivial)) fun past _ _ _ => ?_
  refine watched_step (watched_quiet (hawait fun _ => trivial)) fun past _ index _ => ?_
  refine watched_step (watched_quiet (hawait fun _ => trivial)) fun past _ outcomes _ => ?_
  refine watched_step (watched_quiet (hawait fun _ => trivial)) fun past _ createdAt _ => ?_
  refine watched_step (watched_answer trivial) fun past _ winning hclaim => ?_
  cases winning with
  | cancelled createdAt' reason =>
    exact watched_return ⟨_, _, hclaim, fun job hjob => by cases hjob⟩
  | terminal finalizeJob createdAt' reason =>
    refine watched_step (Q := fun _ _ => True) (watched_quiet ?_) fun past₁ h₁ _ _ => ?_
    · split
      · exact hawait fun _ => trivial
      · exact (keepsWithin snapshotId).ret _
    · refine watched_step (watched_answer trivial) fun past₂ h₂ _ henqueued => ?_
      refine watched_return ⟨_, _, hclaim.mono (h₁.trans h₂).subset, fun job hjob => ?_⟩
      cases hjob
      exact henqueued

/-- A mark that is written says that the failure has been handled. -/
theorem watched_markHandled {entry : Entry} (stage : String)
    (hfinal : isFinalizer entry.id = false) (ht : Terminalized past snapshotId) :
    ledgerWatch.Watched (fun past r => ∀ a, r = .ok a → ∃ progress,
        progress.terminalFailureHandled = true ∧
        Answered past (.within snapshotId (.updateProgress entry.id progress)) ())
      ((markTerminalFailureHandled entry stage).embed (within snapshotId)) past := by
  refine watched_step (watched_quiet ((keepsWithin snapshotId).read rfl)) fun past₁ h₁ handledAt _ => ?_
  refine (watched_answer ?_).mono fun past r hr a ha => ⟨_, rfl, hr a ha⟩
  show MayUpdate _ _ _ _
  rw [MayUpdate, if_neg (by simp [hfinal])]
  exact ht.mono h₁.subset

/-! ### Attempts -/

theorem keepsWithin_terminalizeAttempt {entry : Entry} (stageError : PipelineError)
    (hfinal : isFinalizer entry.id = false) :
    KeepsWithin snapshotId (terminalizeAttempt entry stageError) := by
  intro past
  have hterm : ledgerWatch.Watched (fun past r => ∀ w, r = .ok w → ∀ t, w = .ok t →
      Terminalized past snapshotId) ((terminalizeDistroKidFailure entry.job entry.job.queue
        stageError).embed (within snapshotId)).attempt past := by
    refine (watched_terminalize _ _ _).attempt fun past r hr w hw t ht => ?_
    cases hw
    exact hr t ht
  rw [← Prog.embed_attempt] at hterm
  refine (watched_step (R := fun _ _ => True) hterm fun past₁ _ winning hwinning => ?_).mono
    fun _ _ _ => trivial
  cases winning with
  | error e => exact fun b hb => trivial
  | ok t =>
    have hmark := watched_markHandled entry.job.queue hfinal (hwinning t rfl)
    refine watched_step (Q := fun _ _ => True) ?_ fun _ _ _ _ => fun _ _ => trivial
    rw [Prog.settle, Prog.embed_handle]
    exact hmark.handle (fun _ _ _ _ _ => trivial) fun _ _ _ => fun _ _ => trivial

/-- An attempt marks its entry only after it has terminalized the snapshot. -/
theorem keepsWithin_attempt {entry : Entry} (pid : ℕ) (hfiled : Filed entry) :
    KeepsWithin snapshotId (runPipelineStage env pid entry) := by
  have h := keepsWithin snapshotId
  refine h.bind ?_ fun resumed => ?_
  · split
    · exact h.ret _
    · exact h.resume _
  · split
    · exact h.ret _
    · refine h.handle (keepsWithin_processor pid entry.job) fun stageError => ?_
      split
      · exact h.raise _
      · split
        · rename_i hexhausted
          refine keepsWithin_terminalizeAttempt stageError ?_
          rw [hfiled.isFinalizer]
          simp only [Bool.and_eq_true, Bool.not_eq_true'] at hexhausted
          exact hexhausted.1
        · exact h.raise _

/-! ### The sweep of one entry -/

theorem watched_retryFinalizer {entry : Entry} {stats : FailedRecoveryStats}
    (hfinal : entry.job.isFinalize = true) (hfiled : Filed entry) (hread : ReadBy past entry)
    (hhome : entry.job.ref.snapshotId = snapshotId) :
    ledgerWatch.Watched (fun past r => ∀ stats', r = .ok stats' →
        stats'.failed = stats.failed ∧ LeftBy past entry)
      ((retryFinalizer entry stats).embed (within snapshotId)) past := by
  subst hhome
  refine watched_step (watched_answer trivial) fun past₁ h₁ now hnow => ?_
  by_cases hcool : entry.progress.finalizeRecoveryNotBefore > now
  · rw [if_pos hcool]
    refine watched_return ⟨rfl, .inr ?_⟩
    rw [if_pos hfinal]
    exact ⟨now, hnow, hcool⟩
  · rw [if_neg hcool]
    refine watched_step (watched_answer trivial) fun past₂ h₂ now' _ => ?_
    refine watched_step (watched_answer ?_) fun past₃ h₃ _ _ => ?_
    · show MayUpdate _ _ _ _
      rw [MayUpdate, if_pos (by rw [hfiled.isFinalizer, hfinal])]
      exact ⟨entry, hread.mono (h₁.trans h₂).subset, rfl, rfl, rfl, rfl⟩
    · refine watched_step (watched_answer trivial) fun past₄ h₄ _ hretried => ?_
      exact watched_return ⟨rfl, .inl hretried⟩

/-- An entry that is swept without a failure has been settled. -/
theorem watched_recoverEntry {queue : String} {entry : Entry} (stats : FailedRecoveryStats)
    (hfiled : Filed entry) (hqueue : entry.job.queue = queue) (hread : ReadBy past entry) :
    ledgerWatch.Watched (fun past r => ∀ stats', r = .ok stats' →
        stats'.failed = stats.failed ∧ LeftBy past entry)
      (recoverEntry queue entry stats) past := by
  have hfinal : queue = "distrokid-finalize" ↔ entry.job.isFinalize = true := by
    rw [← hqueue]
    cases entry.job <;> simp [StageJob.queue, StageJob.isFinalize]
  unfold recoverEntry recoverFailedJob
  split
  · refine watched_step (watched_answer trivial) fun past₁ _ _ hretried => ?_
    exact watched_return ⟨rfl, .inl hretried⟩
  · split
    · rename_i hq
      exact watched_retryFinalizer (hfinal.1 hq) hfiled hread rfl
    · rename_i hq
      have hstage : entry.job.isFinalize = false := by
        rw [← Bool.not_eq_true]
        exact fun h => hq (hfinal.2 h)
      have hleft : ∀ {past : QueuePast}, (entry.progress.terminalFailureHandled = true ∨
          ∃ progress, progress.terminalFailureHandled = true ∧
            Answered past (.within entry.job.ref.snapshotId (.updateProgress entry.id progress)) ()) →
          LeftBy past entry := by
        intro past h
        refine .inr ?_
        rw [if_neg (by simp [hstage])]
        exact h
      split
      · rename_i hhandled
        exact watched_return ⟨rfl, hleft (.inl hhandled)⟩
      · refine watched_step (Q := fun past _ => Terminalized past entry.job.ref.snapshotId) ?_
          fun past₁ _ _ hterm => ?_
        · refine watched_step (watched_terminalize _ _ _) fun past₁ _ t hterm => ?_
          exact watched_return hterm
        · have hid : isFinalizer entry.id = false := by rw [hfiled.isFinalizer, hstage]
          refine watched_step (watched_markHandled queue hid hterm) fun past₂ _ _ hmarked => ?_
          exact watched_return ⟨rfl, hleft (.inr hmarked)⟩

end Within

/-! ### The sweep of the queues -/

section Sweep

variable {env : Env} {past past' : QueuePast}

theorem watched_recoverFailedEntries {queue : String} {entries : List Entry}
    (stats : FailedRecoveryStats) (hfiled : FiledIn queue entries)
    (hread : ∀ entry ∈ entries, ReadBy past entry) :
    ledgerWatch.Watched (fun past' r => Grown past past' ∧ ∀ stats', r = .ok stats' →
        stats.failed ≤ stats'.failed ∧ (stats'.failed = 0 → ∀ entry ∈ entries, LeftBy past' entry))
      (recoverFailedEntries recoverEntry queue entries stats) past := by
  induction entries generalizing stats past with
  | nil =>
    refine ⟨Grown.refl past, fun stats' hs => ?_⟩
    cases hs
    exact ⟨le_rfl, fun _ entry he => by cases he⟩
  | cons entry entries ih =>
    obtain ⟨hid, hqueue⟩ := hfiled entry List.mem_cons_self
    have hhead : ledgerWatch.Watched (fun past₁ r => Grown past past₁ ∧ ∀ stats₁, r = .ok stats₁ →
        stats.failed ≤ stats₁.failed ∧ (stats₁.failed = 0 → LeftBy past₁ entry))
        ((recoverEntry queue entry stats).handle
          fun _ => pure { stats with failed := stats.failed + 1 }) past := by
      have hjob := watched_recoverEntry stats hid hqueue
        (hread entry List.mem_cons_self)
      refine (watched_grown hjob).handle (fun past₁ stats₁ h => ?_) fun past₁ e h => ?_
      · refine ⟨h.1, fun stats₂ hs => ?_⟩
        cases hs
        exact ⟨(h.2 _ rfl).1.ge, fun _ => (h.2 _ rfl).2⟩
      · refine ⟨h.1, fun stats₂ hs => ?_⟩
        cases hs
        exact ⟨Nat.le_succ _, fun hzero => absurd hzero (Nat.succ_ne_zero _)⟩
    refine hhead.bind (fun past₁ stats₁ h₁ => ?_) fun past₁ e h₁ => ⟨h₁.1, fun _ hs => by cases hs⟩
    have htail := ih stats₁
      (fun e he => hfiled e (List.mem_cons_of_mem _ he))
      fun e he => (hread e (List.mem_cons_of_mem _ he)).mono h₁.1.subset
    refine htail.mono fun past₂ r h₂ => ⟨h₁.1.trans h₂.1, fun stats' hs => ?_⟩
    obtain ⟨hle, hleft⟩ := h₂.2 stats' hs
    obtain ⟨hle₁, hleft₁⟩ := h₁.2 stats₁ rfl
    refine ⟨hle₁.trans hle, fun hzero e he => ?_⟩
    rcases List.mem_cons.1 he with rfl | he
    · exact (hleft₁ (by omega)).mono h₂.1.subset
    · exact hleft hzero e he

/-- An await of a queue's failed set adds one answer to the past. -/
theorem watched_getFailed (queue : String) (first last : ℕ) :
    ledgerWatch.Watched (fun past' r => ∃ jobs : Except PipelineError (List Entry), r = .ok jobs ∧
        past' = ⟨.getFailed queue first last, jobs⟩ :: past ∧
        ∀ entries, jobs = .ok entries → FiledIn queue entries)
      (await (.getFailed queue first last)).attempt past := by
  have hcall : ledgerWatch.Watched (fun past' r =>
      past' = (⟨.getFailed queue first last, r⟩ : Settled queues PipelineError) :: past ∧
        Admitted (.getFailed queue first last) r) (await (.getFailed queue first last)) past :=
    Watch.watched_call trivial fun r hr => ⟨rfl, hr⟩
  refine hcall.attempt fun past' jobs h => ⟨jobs, rfl, h.1, fun entries he => ?_⟩
  have hadmitted := h.2
  subst he
  exact hadmitted

/-- What a sweep has read that it had not read before, it has settled, unless it has counted
a failure. -/
structure SweptSince (past : QueuePast) (queues : List String) (past' : QueuePast) : Prop where
  queues : ∀ queue ∈ queues, ∃ first last entries,
    Answered past' (.getFailed queue first last) entries
  entries : ∀ entry, ReadBy past' entry → ReadBy past entry ∨ LeftBy past' entry

theorem readBy_cons {queue : String} {first last : ℕ} {entries : List Entry} {entry : Entry}
    (h : ReadBy ((⟨.getFailed queue first last, .ok entries⟩ : Settled queues PipelineError) :: past)
      entry) : ReadBy past entry ∨ entry ∈ entries := by
  obtain ⟨queue', first', last', entries', ha, he⟩ := h
  rcases List.mem_cons.1 ha with heq | ha
  · cases heq
    exact .inr he
  · exact .inl ⟨queue', first', last', entries', ha, he⟩

theorem Grown.readBy_back {entry : Entry} (h : Grown past past') (hr : ReadBy past' entry) :
    ReadBy past entry := by
  obtain ⟨queue, first, last, entries, ha, he⟩ := hr
  rcases h.within _ ha with ha | ⟨snapshotId, o, ho⟩
  · exact ⟨queue, first, last, entries, ha, he⟩
  · cases ho

theorem watched_recoverFailedQueues {batchSize : ℕ} {names : List String}
    (stats : FailedRecoveryStats) :
    ledgerWatch.Watched (fun past' r => past ⊆ past' ∧ ∀ stats', r = .ok stats' →
        stats.failed ≤ stats'.failed ∧ (stats'.failed = 0 → SweptSince past names past'))
      (recoverFailedQueues (fun queue => await (.getFailed queue 0 (batchSize - 1))) recoverEntry names
        stats) past := by
  induction names generalizing stats past with
  | nil =>
    refine ⟨List.Subset.refl _, fun stats' hs => ?_⟩
    cases hs
    exact ⟨le_rfl, fun _ => ⟨nofun, fun entry he => .inl he⟩⟩
  | cons queue names ih =>
    refine (watched_getFailed queue 0 (batchSize - 1)).bind (fun past₁ jobs hjobs => ?_)
      fun past₁ e h => by obtain ⟨_, h, -⟩ := h; cases h
    obtain ⟨jobs', hok, rfl, hfiled⟩ := hjobs
    cases hok
    cases jobs with
    | error e =>
      refine (ih { stats with failed := stats.failed + 1 }).mono fun past₂ r h => ?_
      refine ⟨fun x hx => h.1 (List.mem_cons_of_mem _ hx), fun stats' hs => ?_⟩
      obtain ⟨hle, -⟩ := h.2 stats' hs
      have hlt : stats.failed + 1 ≤ stats'.failed := hle
      exact ⟨by omega, fun hzero => by omega⟩
    | ok entries =>
      have hread : ∀ entry ∈ entries, ReadBy
          (⟨.getFailed queue 0 (batchSize - 1), .ok entries⟩ :: past) entry :=
        fun entry he => ⟨_, _, _, entries, List.mem_cons_self, he⟩
      refine (watched_recoverFailedEntries stats (hfiled entries rfl) hread).bind
        (fun past₂ stats₂ h₂ => ?_) fun past₂ e h₂ =>
          ⟨fun x hx => h₂.1.subset (List.mem_cons_of_mem _ hx), fun _ hs => by cases hs⟩
      refine (ih stats₂).mono fun past₃ r h₃ => ?_
      refine ⟨fun x hx => h₃.1 (h₂.1.subset (List.mem_cons_of_mem _ hx)), fun stats' hs => ?_⟩
      obtain ⟨hle₂, hleft₂⟩ := h₂.2 stats₂ rfl
      obtain ⟨hle₃, hswept₃⟩ := h₃.2 stats' hs
      refine ⟨hle₂.trans hle₃, fun hzero => ⟨fun name hname => ?_, fun entry he => ?_⟩⟩
      · rcases List.mem_cons.1 hname with rfl | hname
        · exact ⟨_, _, entries, h₃.1 (h₂.1.subset List.mem_cons_self)⟩
        · exact (hswept₃ hzero).queues name hname
      · rcases (hswept₃ hzero).entries entry he with he | hleft
        · rcases readBy_cons (h₂.1.readBy_back he) with he | he
          · exact .inl he
          · exact .inr ((hleft₂ (by omega) entry he).mono h₃.1)
        · exact .inr hleft

/-- A sweep that counts no failure has settled every entry that it read. -/
theorem watched_sweep (batchSize : Option ℕ) :
    ledgerWatch.Watched (fun past r => ∀ stats, r = .ok stats → stats.failed = 0 → Swept past)
      (recoverFailedDistroKidJobs batchSize) [] := by
  refine (watched_recoverFailedQueues _).mono fun past r h stats hs hzero => ?_
  obtain ⟨-, hswept⟩ := h.2 stats hs
  refine ⟨(hswept hzero).queues, fun entry he => ?_⟩
  refine ((hswept hzero).entries entry he).resolve_left ?_
  rintro ⟨queue, first, last, entries, ha, -⟩
  cases ha

theorem watched_returned {stats : FailedRecoveryStats} (h : stats.failed = 0 → Swept past) :
    ledgerWatch.Watched (fun past r => r.isOk → Answered past (.returned stats) ())
      (await (.returned stats)) past := by
  refine Watch.watched_call h fun r _ hr => ?_
  cases r with
  | ok a => exact List.mem_cons_self
  | error e => cases hr

theorem watched_cleanExpiredQueues {stats : FailedRecoveryStats} (names : List String)
    (ha : Answered past (.returned stats) ()) (hzero : stats.failed = 0) :
    ledgerWatch.Watched (fun _ _ => True) (cleanExpiredQueues names) past := by
  induction names generalizing past with
  | nil => trivial
  | cons queue names ih =>
    have hclean : ∀ {past : QueuePast} (graceMs limit : ℕ) (status : EntryStatus),
        Answered past (.returned stats) () → ledgerWatch.Watched
          (fun past' _ => Answered past' (.returned stats) ())
          (await (.clean queue graceMs limit status)).settle past := by
      intro past graceMs limit status hpast
      have hcall : ledgerWatch.Watched (fun past' _ => Answered past' (.returned stats) ())
          (await (.clean queue graceMs limit status)) past :=
        Watch.watched_call ⟨stats, hpast, hzero⟩ fun r _ => List.mem_cons_of_mem _ hpast
      exact hcall.handle (fun _ _ h => h) fun _ _ h => h
    refine (hclean _ _ _ ha).bind (fun past₁ _ h₁ => ?_) fun _ _ _ => trivial
    refine (hclean _ _ _ h₁).bind (fun past₂ _ h₂ => ?_) fun _ _ _ => trivial
    exact ih h₂

theorem watched_recoverFailedJobs (batchSize : Option ℕ) :
    ledgerWatch.Watched (fun _ _ => True) (recoverFailedJobs batchSize) [] := by
  refine (watched_sweep batchSize).bind (fun past stats h => ?_) fun _ _ _ => trivial
  exact (watched_returned (h stats rfl)).mono fun _ _ _ => trivial

theorem watched_triggerRecovery (batchSize : Option ℕ) :
    ledgerWatch.Watched (fun _ _ => True) (triggerRecovery batchSize) [] := by
  refine Watch.Watched.handle (Q := fun _ _ => True) ?_ (fun _ _ _ => trivial) fun _ _ _ => trivial
  refine (watched_sweep batchSize).bind (fun past stats h => ?_) fun _ _ _ => trivial
  refine (watched_returned (h stats rfl)).bind (fun past₁ _ h₁ => ?_) fun _ _ _ => trivial
  split
  · rename_i hclean
    exact watched_cleanExpiredQueues _ (h₁ rfl) (of_decide_eq_true hclean)
  · trivial

/-- What a process may be started for keeps the watch. -/
theorem watched_code {batchSize : Option ℕ} {p : Process}
    (hattempt : ∀ entry, p.activity = .deliver (.attempt entry) → Filed entry)
    (hsweep : p.activity ≠ .deliver .sweepFailed) :
    ledgerWatch.Watched (fun _ _ => True) (code env batchSize p) [] := by
  obtain ⟨pid, activity⟩ := p
  cases activity with
  | recoverFailedJobs => exact watched_recoverFailedJobs batchSize
  | triggerRecovery worker => exact watched_triggerRecovery batchSize
  | deliver work =>
    have h := keepsWithin (snapshotOf work)
    have hcode : KeepsWithin (snapshotOf work) (Distrokid.code env ⟨pid, work⟩) := by
      cases work with
      | stage job => exact keepsWithin_processor pid job
      | terminalize job stage error => exact h.discard (h.terminalize _ _ _)
      | cancel job reason =>
        exact h.discard (h.cancel fun _ => h.outside rfl)
      | recover job => exact h.recover job
      | checkpoint delivery job batch =>
        exact h.onCheckpoint (fun _ => keepsWithin_await fun _ => trivial)
          fun _ => keepsWithin_await fun _ => trivial
      | attempt entry => exact keepsWithin_attempt pid (hattempt entry rfl)
      | sweepFailed => exact absurd rfl hsweep
    exact hcode []

end Sweep

end CatalogSentinel.Distrokid.Ledger
