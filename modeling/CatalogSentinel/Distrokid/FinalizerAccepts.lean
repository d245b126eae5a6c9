import CatalogSentinel.Concurrent.Knowledge
import CatalogSentinel.Distrokid.JobChain

/-!
The finalizer accepts what is left for it. The job schema leaves fields out that the tombstone's
sanitizer asks for, but a finalizer is only ever enqueued with the job of a tombstone, which the
store has rebuilt and would rebuild the same. So it fails only where a dependency does.
-/

namespace CatalogSentinel.Distrokid

open CatalogSentinel.Data CatalogSentinel.Concurrent CatalogSentinel.Checkpoint

/-! ### What a finalizer is enqueued for -/

def Op.enqueuesFinalizer : Op → Bool
  | enqueue (.finalize _) _ => true
  | _ => false

section Announced

variable (parse : String → Option ℤ) (j₀ : CatalogIndexJob)

/-- The checkpoint was bound, and the job was read from the tombstone. -/
def Announced (past : Past) (job : FinalizeJob) : Prop :=
  ⟨Op.bindSnapshot j₀.toSnapshotRef.binding, .ok ()⟩ ∈ past ∧
    ∃ createdAt reason, ⟨Op.getTerminal, .ok (some (.terminal job createdAt reason))⟩ ∈ past ∨
      ∃ t, ⟨Op.claimTerminal t, .ok (.terminal job createdAt reason)⟩ ∈ past

/-- A finalizer is enqueued for nothing else. -/
def announceWatch : Watch distrokid PipelineError where
  admits := Op.AnswersChained parse j₀
  ok past o := ∀ job delayMs, o = .enqueue (.finalize job) delayMs → Announced j₀ past job

abbrev Announces {α : Type} (p : Pipe α) (past : Past) : Prop :=
  (announceWatch parse j₀).Watched (fun _ _ => True) p past

abbrev KeepsAnnounced {α : Type} (p : Pipe α) : Prop := (announceWatch parse j₀).Keeps p

variable {parse j₀} {env : Env} {past past' : Past} {α : Type}

theorem Announced.suffix {job : FinalizeJob} (h : Announced j₀ past job) (hpast : past <:+ past') :
    Announced j₀ past' job := by
  obtain ⟨hbound, createdAt, reason, hread | ⟨t, hclaimed⟩⟩ := h
  · exact ⟨hpast.mem hbound, createdAt, reason, .inl (hpast.mem hread)⟩
  · exact ⟨hpast.mem hbound, createdAt, reason, .inr ⟨t, hpast.mem hclaimed⟩⟩

theorem announceWatch_ok {o : Op} (ho : o.enqueuesFinalizer = false) : (announceWatch parse j₀).ok past o := by
  intro job delayMs h
  subst h
  cases ho

theorem keepsAnnounced_await {o : Op} (ho : o.enqueuesFinalizer = false) :
    KeepsAnnounced parse j₀ (await o) :=
  Watch.keeps_call fun _ => announceWatch_ok ho

theorem keepsAnnounced : StageProperty fun {α} (p : Pipe α) => KeepsAnnounced parse j₀ p where
  toCompositional := Watch.compositional
  routine ho := keepsAnnounced_await (by
    rename_i o
    cases o <;> first | rfl | cases ho)

theorem announces_await {o : Op} {f : o.Ans → Pipe α} (ho : o.enqueuesFinalizer = false)
    (hf : ∀ a, o.AnswersChained parse j₀ (.ok a) → Announces parse j₀ (f a) (⟨o, .ok a⟩ :: past)) :
    Announces parse j₀ (await o >>= f) past :=
  Watch.watched_await (announceWatch_ok ho) hf

theorem binding_of_descends {job : SnapshotRef} (h : Descends parse j₀ job) :
    job.binding = j₀.toSnapshotRef.binding := by
  simp only [SnapshotRef.binding, h.tenantId, h.connectionId, h.snapshotId, h.distributor]

theorem announceWatch_enqueue {job : FinalizeJob} {delayMs : ℕ} (hjob : Announced j₀ past job) :
    (announceWatch parse j₀).ok past (.enqueue (.finalize job) delayMs) := by
  intro job' delayMs' h
  cases h
  exact hjob

variable (parse j₀) in
/-- Once the chain's checkpoint is bound, a finalizer is enqueued for what was read alone. -/
def BoundAnnounces {α : Type} (p : Pipe α) : Prop :=
  ∀ past, ⟨Op.bindSnapshot j₀.toSnapshotRef.binding, .ok ()⟩ ∈ past → Announces parse j₀ p past

theorem KeepsAnnounced.bound {p : Pipe α} (hp : KeepsAnnounced parse j₀ p) : BoundAnnounces parse j₀ p :=
  fun past _ => hp past

theorem boundAnnounces : StageProperty fun {α} (p : Pipe α) => BoundAnnounces parse j₀ p where
  toCompositional := Watch.compositional_from fun hpast hbound => hpast.mem hbound
  routine ho := KeepsAnnounced.bound (keepsAnnounced.routine ho)

/-- A job of the chain binds the chain's checkpoint. -/
theorem announces_bind {job : SnapshotRef} (hjob : Descends parse j₀ job) {p : Pipe α}
    (hp : BoundAnnounces parse j₀ p) : KeepsAnnounced parse j₀ (bindCheckpoint job >>= fun _ => p) := by
  intro past
  unfold bindCheckpoint
  rw [binding_of_descends hjob]
  exact announces_await rfl fun _ _ => hp _ List.mem_cons_self

/-- A verdict that was answered may be handed over. -/
theorem announces_handsOver {f : SnapshotTerminalTombstone → Pipe α}
    (hf : HandsOver (BoundAnnounces parse j₀) f) {t : SnapshotTerminalTombstone}
    (hbound : ⟨Op.bindSnapshot j₀.toSnapshotRef.binding, .ok ()⟩ ∈ past)
    (ht : ∀ job createdAt reason, t = .terminal job createdAt reason → Announced j₀ past job) :
    Announces parse j₀ (f t) past := by
  cases t with
  | cancelled createdAt reason => exact hf.cancelled createdAt reason past hbound
  | terminal job createdAt reason =>
    obtain ⟨before, a, hbefore, he⟩ := hf.terminal job createdAt reason
    have hannounced := ht job createdAt reason rfl
    rw [he]
    exact ((hbefore past hbound).suffix List.suffix_rfl).bind
      (fun past' _ h => Watch.watched_await (announceWatch_enqueue (hannounced.suffix h.2)) fun _ _ => trivial)
      fun _ _ _ => trivial

theorem announcesVerdict : VerdictProperty fun {α} (p : Pipe α) => BoundAnnounces parse j₀ p where
  toStageProperty := boundAnnounces
  getTerminal hnone hf past hbound := by
    refine announces_await rfl fun terminal _ => ?_
    have hbound' := List.mem_cons_of_mem ⟨Op.getTerminal, .ok terminal⟩ hbound
    cases terminal with
    | none => exact hnone _ hbound'
    | some t =>
      refine announces_handsOver hf hbound' fun job createdAt reason ht => ?_
      subst ht
      exact ⟨hbound', createdAt, reason, .inl List.mem_cons_self⟩

theorem claims_announces (t : SnapshotTerminalTombstone) : Claims (BoundAnnounces parse j₀) t := by
  refine fun hf past hbound => announces_await rfl fun winning _ => ?_
  have hbound' := List.mem_cons_of_mem ⟨Op.claimTerminal t, .ok winning⟩ hbound
  refine announces_handsOver hf hbound' fun job createdAt reason ht => ?_
  subst ht
  exact ⟨hbound', createdAt, reason, .inr ⟨t, List.mem_cons_self⟩⟩

/-! ### The code of the processes -/

theorem keepsAnnounced_resume {job : SnapshotRef} (hjob : Descends parse j₀ job) :
    KeepsAnnounced parse j₀ (resumeTerminalFinalizer job) :=
  announcesVerdict.resume (announces_bind hjob)

theorem keepsAnnounced_plan {job : PlanChunksJob} (hjob : Descends parse j₀ job.toSnapshotRef) :
    KeepsAnnounced parse j₀ (planDistroKidReleaseChunks env job) :=
  keepsAnnounced.unlessTerminal (keepsAnnounced_resume hjob) <| keepsAnnounced.planChunks
    (fun _ => keepsAnnounced_await rfl)
    (fun _ => keepsAnnounced.markRunning fun _ _ => keepsAnnounced_await rfl)
    (fun _ _ _ => keepsAnnounced_await rfl) fun _ _ _ => keepsAnnounced_await rfl

theorem keepsAnnounced_reconcile {job : ReconcileJob} (hjob : Descends parse j₀ job.toSnapshotRef) :
    KeepsAnnounced parse j₀ (reconcileDistroKidSnapshot env job) :=
  announcesVerdict.reconcile (announces_bind hjob) (fun _ _ _ => (keepsAnnounced_await rfl).bound)
    fun _ _ => claims_announces _

theorem keepsAnnounced_terminalize {job : StageJob} (hjob : Descends parse j₀ job.ref) (stage : String)
    (error : PipelineError) : KeepsAnnounced parse j₀ (terminalizeDistroKidFailure job stage error) :=
  announcesVerdict.terminalize (announces_bind hjob) fun _ _ _ => claims_announces _

theorem keepsAnnounced_processor {pid : ℕ} {job : StageJob} (hjob : Descends parse j₀ job.ref) :
    KeepsAnnounced parse j₀ (processor env pid job) := by
  cases job with
  | index job =>
    exact keepsAnnounced.discard (keepsAnnounced.unlessTerminal (keepsAnnounced_resume hjob)
      (keepsAnnounced.withAccountLock (keepsAnnounced.raise _) (keepsAnnounced.catalogIndexWork
          (keepsAnnounced_await rfl) (fun _ => keepsAnnounced_await rfl) (fun _ _ => keepsAnnounced_await rfl)
          fun _ _ _ => keepsAnnounced_await rfl)))
  | plan job => exact keepsAnnounced.discard (keepsAnnounced_plan hjob)
  | chunk job =>
    exact keepsAnnounced.discard (keepsAnnounced.unlessTerminal (keepsAnnounced_resume hjob)
      (keepsAnnounced.withAccountLock (keepsAnnounced.deferChunk fun _ _ _ => keepsAnnounced_await rfl)
        (keepsAnnounced.chunkWork (keepsAnnounced_await rfl) (fun _ => keepsAnnounced_await rfl)
          (fun _ => keepsAnnounced_await rfl) (fun _ => keepsAnnounced_await rfl)
          (fun _ _ => keepsAnnounced_await rfl) (fun _ => keepsAnnounced_await rfl)
          (fun _ _ _ => keepsAnnounced_await rfl) fun _ _ _ => keepsAnnounced_await rfl)))
  | retry job =>
    exact keepsAnnounced.discard (keepsAnnounced.unlessTerminal (keepsAnnounced_resume hjob)
      (keepsAnnounced.retryFailed (fun _ => keepsAnnounced_await rfl)
        (fun _ _ _ => keepsAnnounced_await rfl) fun _ _ _ => keepsAnnounced_await rfl))
  | reconcile job => exact keepsAnnounced.discard (keepsAnnounced_reconcile hjob)
  | finalize job =>
    exact keepsAnnounced.finalize (fun _ _ => keepsAnnounced_await rfl)
      (fun _ _ => keepsAnnounced_await rfl) (fun _ _ => keepsAnnounced_await rfl)
      (fun _ => keepsAnnounced_await rfl) fun _ => keepsAnnounced_await rfl

theorem keepsAnnounced_recover {job : CatalogIndexJob} (hjob : Descends parse j₀ job.toSnapshotRef) :
    KeepsAnnounced parse j₀ (recoverDurableDistroKidSnapshots env job) :=
  keepsAnnounced.settle <| keepsAnnounced.discard <| announcesVerdict.recoverSnapshot
    (announces_bind hjob) (fun _ => (keepsAnnounced_await rfl).bound)
    (fun _ hj => (keepsAnnounced_plan (descends_of_eq hjob hj)).bound)
    fun _ _ => (keepsAnnounced_terminalize hjob _ _).bound

theorem keepsAnnounced_code {d : Delivery} (hd : d.work.Descend parse j₀) :
    KeepsAnnounced parse j₀ (code env d) := by
  obtain ⟨pid, work⟩ := d
  cases work with
  | stage job => exact keepsAnnounced_processor hd
  | terminalize job stage error => exact keepsAnnounced.discard (keepsAnnounced_terminalize hd _ _)
  | cancel job reason =>
    exact keepsAnnounced.discard (keepsAnnounced.cancel fun _ => keepsAnnounced_await rfl)
  | recover job => exact keepsAnnounced_recover hd
  | checkpoint delivery job batch =>
    exact keepsAnnounced.onCheckpoint (fun _ => keepsAnnounced_await rfl) fun _ => keepsAnnounced_await rfl
  | attempt entry =>
    exact keepsAnnounced.runPipelineStage (keepsAnnounced_resume hd) (keepsAnnounced_processor hd)
      (keepsAnnounced_terminalize hd) fun _ _ => keepsAnnounced_await rfl
  | sweepFailed =>
    refine keepsAnnounced.discard (keepsAnnounced.recoverFailedOf
      (K := fun job => Descends parse j₀ job.ref) (fun queue f hok herr => ?_)
      (fun job stage error hjob => keepsAnnounced_terminalize hjob stage error)
      fun _ _ => keepsAnnounced_await rfl)
    refine fun past => ⟨announceWatch_ok rfl, fun r hr => ?_⟩
    cases r with
    | ok entries => exact hok entries hr _
    | error e => exact herr e _

end Announced

/-! ### What the store holds of a verdict -/

section Held

variable (durable : Bool) (P : Platform)

/-- The checkpoint is the job's, and the job is its verdict. -/
structure Decided (s : SnapshotState) (job : FinalizeJob) : Prop where
  binding : s.binding = some job.binding
  terminal : ∃ createdAt reason, s.terminal = some (.terminal job createdAt reason)

/-- A durable store rebuilds its verdict as it is. -/
def RebuildsVerdict (s : SnapshotState) : Prop :=
  durable = true → ∀ job createdAt reason, s.terminal = some (.terminal job createdAt reason) →
    ∃ binding, s.binding = some binding ∧
      sanitizeTombstone P (.terminal job createdAt reason) binding = .ok (.terminal job createdAt reason)

/-- What an answer says of the store. -/
def Heard (s : SnapshotState) : (o : Op) → Except PipelineError o.Ans → Prop
  | .bindSnapshot binding, .ok _ => s.binding = some binding
  | .getTerminal, .ok terminal => ∀ job createdAt reason,
      terminal = some (.terminal job createdAt reason) → s.terminal = some (.terminal job createdAt reason)
  | .claimTerminal _, .ok winning => ∀ job createdAt reason,
      winning = .terminal job createdAt reason → s.terminal = some (.terminal job createdAt reason)
  | _, _ => True

/-- A binding and a tombstone stay. -/
structure Endures (s s' : SnapshotState) : Prop where
  binding : ∀ binding, s.binding = some binding → s'.binding = some binding
  terminal : ∀ t, s.terminal = some t → s'.terminal = some t

theorem Endures.refl (s : SnapshotState) : Endures s s := ⟨fun _ => id, fun _ => id⟩

variable {durable P} {env : Env} {d : Delivery} {s s' : SnapshotState} {o : Op} {c : Choice}

theorem Decided.endures {job : FinalizeJob} (h : Decided s job) (hs : Endures s s') : Decided s' job := by
  obtain ⟨createdAt, reason, hterminal⟩ := h.terminal
  exact ⟨hs.binding _ h.binding, createdAt, reason, hs.terminal _ hterminal⟩

theorem Heard.endures {r : Except PipelineError o.Ans} (h : Heard s o r) (hs : Endures s s') : Heard s' o r := by
  cases r with
  | error e => cases o <;> trivial
  | ok a =>
    cases o <;> try trivial
    case bindSnapshot binding => exact hs.binding _ h
    case getTerminal => exact fun job createdAt reason ha => hs.terminal _ (h job createdAt reason ha)
    case claimTerminal t => exact fun job createdAt reason ha => hs.terminal _ (h job createdAt reason ha)

theorem effect_endures {r : Except PipelineError o.Ans} (h : effect env d s o = some (r, s')) : Endures s s' := by
  cases o <;> simp only [effect, Option.some.injEq, Prod.mk.injEq, reduceCtorEq] at h
  case bindSnapshot b =>
    split at h
    · rename_i hall
      obtain ⟨-, rfl⟩ := Prod.mk.inj h
      refine ⟨fun binding hbinding => ?_, fun _ => id⟩
      rw [hbinding] at hall
      have hsame : binding = b := of_decide_eq_true hall
      rw [hsame]
    · obtain ⟨-, rfl⟩ := Prod.mk.inj h
      exact Endures.refl _
  case claimTerminal t =>
    split at h
    · obtain ⟨-, rfl⟩ := Prod.mk.inj h
      exact Endures.refl _
    · rename_i hnone
      obtain ⟨-, rfl⟩ := Prod.mk.inj h
      refine ⟨fun _ => id, fun t' ht' => ?_⟩
      rw [hnone] at ht'
      cases ht'
  case acquireLock =>
    split at h <;> obtain ⟨-, rfl⟩ := Prod.mk.inj h <;> exact ⟨fun _ => id, fun _ => id⟩
  case releaseLock =>
    obtain ⟨-, rfl⟩ := h
    split <;> exact ⟨fun _ => id, fun _ => id⟩
  all_goals
    obtain ⟨-, rfl⟩ := h
    exact ⟨fun _ => id, fun _ => id⟩

theorem perform_endures {r : Except PipelineError o.Ans} (h : perform env d s o c = some (r, s')) :
    Endures s s' := by
  rcases perform_state h with rfl | ⟨r', heff⟩ | hatt
  · exact Endures.refl _
  · exact effect_endures heff
  · cases o <;> simp only [attempted, Option.some.injEq, reduceCtorEq] at hatt <;> subst hatt <;>
      exact ⟨fun _ => id, fun _ => id⟩

theorem performAt_endures {r : Except PipelineError o.Ans}
    (h : performAt durable P env s d o c = some (r, s')) : Endures s s' := by
  cases o with
  | claimTerminal t =>
    rcases performAt_claim h with ⟨rfl, -⟩ | ⟨t', r', -, hp, -⟩
    · exact Endures.refl _
    · exact perform_endures hp
  | getTerminal =>
    obtain ⟨r', hp, -⟩ := performAt_getTerminal h
    exact perform_endures hp
  | _ => exact perform_endures (o := _) h

/-- Only a claim writes a tombstone, and it writes what the store keeps of the proposed one. -/
theorem performAt_terminal {r : Except PipelineError o.Ans} {t : SnapshotTerminalTombstone}
    (h : performAt durable P env s d o c = some (r, s')) (ht : s'.terminal = some t) :
    s.terminal = some t ∨ ∃ proposed, kept durable P s proposed = .ok t := by
  cases o with
  | claimTerminal proposed =>
    rcases performAt_claim h with ⟨rfl, -⟩ | ⟨t', r', hkept, hp, -⟩
    · exact .inl ht
    · rcases (perform_claim hp).1 with hsame | hnew
      · exact .inl (hsame ▸ ht)
      · obtain rfl := Option.some.inj (hnew.symm.trans ht)
        exact .inr ⟨proposed, hkept⟩
  | getTerminal =>
    obtain ⟨r', hp, -⟩ := performAt_getTerminal h
    exact .inl ((perform_frame hp).terminal (fun _ => nofun) ▸ ht)
  | _ => exact .inl ((perform_frame (o := _) h).terminal (fun _ => nofun) ▸ ht)

theorem RebuildsVerdict.performAt (hP : P.Faithful) (hs : RebuildsVerdict durable P s) {r : Except PipelineError o.Ans}
    (h : performAt durable P env s d o c = some (r, s')) : RebuildsVerdict durable P s' := by
  intro hdurable job createdAt reason hterminal
  have hendures := performAt_endures h
  rcases performAt_terminal h hterminal with hold | ⟨proposed, hkept⟩
  · obtain ⟨binding, hbinding, hsan⟩ := hs hdurable job createdAt reason hold
    exact ⟨binding, hendures.binding _ hbinding, hsan⟩
  · obtain ⟨binding, hbinding, hsan⟩ := kept_durable hdurable hkept
    refine ⟨binding, hendures.binding _ hbinding, (sanitizeTombstone_again hP hsan).2 ?_⟩
    cases proposed with
    | terminal job' createdAt' reason' => trivial
    | cancelled createdAt' reason' =>
      obtain ⟨_, -, hsan⟩ := bind_ok.1 hsan
      obtain ⟨_, -, hsan⟩ := bind_ok.1 hsan
      cases Except.ok.inj hsan

/-- The store answers the verdict that it holds. -/
theorem RebuildsVerdict.kept (hs : RebuildsVerdict durable P s) {t : SnapshotTerminalTombstone} {job : FinalizeJob}
    {createdAt : String} {reason : Option String} (ht : s.terminal = some t)
    (h : kept durable P s t = .ok (.terminal job createdAt reason)) : t = .terminal job createdAt reason := by
  cases hdurable : durable with
  | false =>
    rw [hdurable] at h
    exact Except.ok.inj h
  | true =>
    obtain ⟨binding, hbinding, hsan⟩ := kept_durable hdurable h
    cases t with
    | terminal job' createdAt' reason' =>
      obtain ⟨binding', hbinding', hagain⟩ := hs hdurable job' createdAt' reason' ht
      obtain rfl := Option.some.inj (hbinding.symm.trans hbinding')
      exact Except.ok.inj (hagain.symm.trans hsan)
    | cancelled createdAt' reason' =>
      obtain ⟨_, -, hsan⟩ := bind_ok.1 hsan
      obtain ⟨_, -, hsan⟩ := bind_ok.1 hsan
      cases Except.ok.inj hsan

theorem perform_getTerminal {terminal : Option SnapshotTerminalTombstone}
    (h : perform env d s .getTerminal c = some (.ok terminal, s')) : s'.terminal = terminal := by
  rcases perform_cases h with he | ⟨e, r', -, -, he⟩ | ⟨e, -, -, he⟩ | ⟨a, c', ha, -, -⟩
  · obtain ⟨hanswer, rfl⟩ := Prod.mk.inj (Option.some.inj he)
    exact Except.ok.inj hanswer
  · cases he
  · cases he
  · cases c' <;> cases ha

theorem heard_performAt (hs : RebuildsVerdict durable P s') {r : Except PipelineError o.Ans}
    (h : performAt durable P env s d o c = some (r, s')) : Heard s' o r := by
  cases r with
  | error e => cases o <;> trivial
  | ok a =>
    cases o <;> try trivial
    case bindSnapshot b =>
      rcases perform_cases (o := .bindSnapshot b) h with he | ⟨e, r', -, -, he⟩ | ⟨e, -, -, he⟩ | ⟨a', c', ha, -, -⟩
      · have heff := Option.some.inj he
        split at heff
        · obtain ⟨-, rfl⟩ := Prod.mk.inj heff
          rfl
        · cases (Prod.mk.inj heff).1
      · cases he
      · cases he
      · cases c' <;> cases ha
    case getTerminal =>
      obtain ⟨r', hp, hr⟩ := performAt_getTerminal h
      intro job createdAt reason ha
      subst ha
      rcases r' with e | _ | t
      · cases hr
      · cases hr
      · have hterminal := perform_getTerminal hp
        cases hkept : kept durable P s' t with
        | error e =>
          have hrefused : keptAnswer durable P s' (some t) = .error e := by
            show (kept durable P s' t).map some = _
            rw [hkept]
            rfl
          cases hr.trans hrefused
        | ok t' =>
          have hanswer : keptAnswer durable P s' (some t) = .ok (some t') := by
            show (kept durable P s' t).map some = _
            rw [hkept]
            rfl
          obtain rfl := Option.some.inj (Except.ok.inj (hr.trans hanswer))
          rw [hterminal, hs.kept hterminal hkept]
    case claimTerminal t =>
      rcases performAt_claim h with ⟨-, e, he⟩ | ⟨t', r', -, hp, hr⟩
      · cases he
      · intro job createdAt reason ha
        subst ha
        cases r' with
        | error e => cases hr
        | ok winning =>
          have hwinning := (perform_claim hp).2 winning rfl
          rw [hwinning, hs.kept hwinning hr.symm]

end Held

/-! ### The finalizer's awaits -/

section Finalizer

variable (P : Platform) (job : FinalizeJob)

/-- The store reads the text as a date. -/
def Dated (iso : String) : Prop := ∃ t, isoTimestamp P iso "terminal createdAt" = .ok t

/-- Nothing fails, and a clock shows a date. -/
def Op.Answered : (o : Op) → Except PipelineError o.Ans → Prop
  | .nowIso, .ok iso => Dated P iso
  | _, .ok _ => True
  | _, .error _ => False

/-- What the finalizer of the job awaits. -/
def Op.OfFinalizer : Op → Prop
  | .bindSnapshot binding => binding = job.binding
  | .claimTerminal t => ∃ iso, Dated P iso ∧ t = .terminal job iso (some "legacy-finalizer")
  | .nowIso | .getProgress | .getOutcomes | .putProgress _ | .persistSnapshot .. => True
  | .logAlreadyDurable _ | .releaseSession _ => True
  | _ => False

def finalizerWatch : Watch distrokid PipelineError where
  admits := Op.Answered P
  ok _ := Op.OfFinalizer P job

/-- Where nothing fails, the program awaits what the finalizer awaits, and ends without an error. -/
def RunsThrough {α : Type} (p : Pipe α) : Prop :=
  ∀ past, (finalizerWatch P job).Watched (fun _ r => ∃ a, r = .ok a) p past

variable {P job} {α β : Type}

theorem runsThrough_ret (a : α) : RunsThrough P job (Prog.ret a : Pipe α) := fun _ => ⟨a, rfl⟩

theorem runsThrough_await {o : Op} (ho : o.OfFinalizer P job) : RunsThrough P job (await o) :=
  fun _ => Watch.watched_call ho fun r hr => by
    cases r with
    | ok a => exact ⟨a, rfl⟩
    | error e => cases o <;> cases hr

theorem RunsThrough.bind {p : Pipe α} {f : α → Pipe β} (hp : RunsThrough P job p)
    (hf : ∀ a, RunsThrough P job (f a)) : RunsThrough P job (p >>= f) :=
  fun past => (hp past).bind (fun past' a _ => hf a past') fun _ _ h => by
    obtain ⟨a, ha⟩ := h
    cases ha

theorem RunsThrough.handle {p : Pipe α} {h : PipelineError → Pipe α} (hp : RunsThrough P job p) :
    RunsThrough P job (p.handle h) :=
  fun past => (hp past).handle (fun _ a _ => ⟨a, rfl⟩) fun _ _ h => by
    obtain ⟨a, ha⟩ := h
    cases ha

/-- What follows a read of the clock may rely on its being a date. -/
theorem runsThrough_nowIso {f : String → Pipe α} (hf : ∀ iso, Dated P iso → RunsThrough P job (f iso)) :
    RunsThrough P job (deps.nowIso >>= f) := by
  intro past
  refine ⟨trivial, fun r hr => ?_⟩
  cases r with
  | ok iso => exact hf iso hr _
  | error e => cases hr

theorem runsThrough_finalizeDistroKidSnapshot : RunsThrough P job (finalizeDistroKidSnapshot job) := by
  refine RunsThrough.bind (runsThrough_await rfl) fun _ => runsThrough_nowIso fun createdAt hdated =>
    RunsThrough.bind (runsThrough_await ⟨createdAt, hdated, rfl⟩) fun winning => ?_
  cases winning with
  | cancelled createdAt' reason => exact runsThrough_ret ()
  | terminal finalJob createdAt' reason =>
    refine RunsThrough.bind (runsThrough_await trivial) fun progress =>
      RunsThrough.bind ?_ fun _ => runsThrough_await trivial
    split
    · exact runsThrough_await trivial
    · exact RunsThrough.bind (runsThrough_await trivial) fun outcomes =>
        RunsThrough.bind (runsThrough_await trivial) fun _ =>
        RunsThrough.bind (runsThrough_await trivial) fun startedAt =>
        RunsThrough.bind (runsThrough_await trivial) fun updatedAt => runsThrough_await trivial

/-- The delivery runs the finalizer of this job, from the queue or as an attempt of its entry. -/
theorem runsThrough_code {env : Env} {d : Delivery} (hd : d.work.job? = some (.finalize job)) :
    RunsThrough P job (code env d) := by
  obtain ⟨pid, work⟩ := d
  cases work with
  | stage stageJob =>
    obtain rfl := Option.some.inj hd
    exact runsThrough_finalizeDistroKidSnapshot
  | attempt entry =>
    have hjob : entry.job = .finalize job := Option.some.inj hd
    show RunsThrough P job (runPipelineStage env pid entry)
    unfold runPipelineStage
    rw [hjob]
    exact runsThrough_finalizeDistroKidSnapshot.handle
  | _ => cases hd

/-! ### How the store answers them -/

variable (P) in
/-- The environment fails no call, and its clock shows a date. -/
def Choice.Answers : Choice → Prop
  | .lost _ | .torn _ => False
  | .stamp iso => Dated P iso
  | _ => True

variable {durable : Bool} {env : Env} {d : Delivery} {s s' : SnapshotState} {o : Op} {c : Choice}

/-- A verdict that the store holds is kept as it is. -/
theorem RebuildsVerdict.kept_stored (hs : RebuildsVerdict durable P s) {createdAt : String} {reason : Option String}
    (hterminal : s.terminal = some (.terminal job createdAt reason)) :
    Distrokid.kept durable P s (.terminal job createdAt reason) = .ok (.terminal job createdAt reason) := by
  unfold Distrokid.kept
  cases hdurable : durable with
  | false => rfl
  | true =>
    obtain ⟨binding, hbinding, hsan⟩ := hs hdurable job createdAt reason hterminal
    rw [if_pos rfl, hbinding]
    show (sanitizeTombstone P _ binding).mapError checkpointError = _
    rw [hsan]
    rfl

/-- So the finalizer's own proposal of that verdict is not refused. -/
theorem RebuildsVerdict.kept_proposed (hs : RebuildsVerdict durable P s) (hjob : Decided s job) {iso : String}
    (hdated : Dated P iso) :
    ∃ t, Distrokid.kept durable P s (.terminal job iso (some "legacy-finalizer")) = .ok t := by
  unfold Distrokid.kept
  cases hdurable : durable with
  | false => exact ⟨_, rfl⟩
  | true =>
    obtain ⟨createdAt, reason, hterminal⟩ := hjob.terminal
    obtain ⟨binding, hbinding, hsan⟩ := hs hdurable job createdAt reason hterminal
    obtain ⟨job', hagain, -⟩ := bind_ok.1 hsan
    obtain ⟨created, hcreated⟩ := hdated
    have hreason : unlessEmpty (fun v => textValue v "terminal reason" 512) (some "legacy-finalizer") =
        .ok (some "legacy-finalizer") := by decide +kernel
    have hproposed : sanitizeTombstone P (.terminal job iso (some "legacy-finalizer")) binding =
        .ok (.terminal job' created (some "legacy-finalizer")) :=
      bind_ok.2 ⟨job', hagain, bind_ok.2 ⟨created, hcreated, bind_ok.2 ⟨_, hreason, rfl⟩⟩⟩
    refine ⟨.terminal job' created (some "legacy-finalizer"), ?_⟩
    rw [if_pos rfl, hbinding]
    show (sanitizeTombstone P _ binding).mapError checkpointError = _
    rw [hproposed]
    rfl

theorem perform_answers (hc : c.Answers P) {r : Except PipelineError o.Ans}
    (h : perform env d s o c = some (r, s')) :
    effect env d s o = some (r, s') ∨ ∃ a, answer env o c = some a ∧ r = .ok a := by
  have hanswer : ∀ c', (answer env o c').map (fun a => (Except.ok a, s)) = some (r, s') →
      ∃ a, answer env o c' = some a ∧ r = .ok a := by
    intro c' hc'
    obtain ⟨a, ha, he⟩ := Option.map_eq_some_iff.1 hc'
    cases he
    exact ⟨a, ha, rfl⟩
  cases c with
  | done => exact .inl h
  | lost e => cases hc
  | torn e => cases hc
  | _ => exact .inr (hanswer _ h)

/-- A store that holds the job's verdict answers whatever its finalizer awaits, if nothing fails. -/
theorem performAt_answered (hs : RebuildsVerdict durable P s) (hjob : Decided s job) (ho : o.OfFinalizer P job)
    (hc : c.Answers P) {r : Except PipelineError o.Ans}
    (h : performAt durable P env s d o c = some (r, s')) : o.Answered P r := by
  have hplain : ∀ r', perform env d s o c = some (r', s') → (∀ r s', effect env d s o = some (r, s') →
      ∃ a, r = .ok a) → (∃ a, r' = .ok a) := by
    intro r' hp heffect
    rcases perform_answers hc hp with heff | ⟨a, -, ha⟩
    · exact heffect _ _ heff
    · exact ⟨a, ha⟩
  cases o <;> simp only [Op.OfFinalizer] at ho
  case claimTerminal t =>
    obtain ⟨iso, hdated, rfl⟩ := ho
    obtain ⟨t, hkept⟩ := hs.kept_proposed hjob hdated
    obtain ⟨createdAt, reason, hterminal⟩ := hjob.terminal
    simp only [performAt, hkept] at h
    obtain ⟨⟨r', s''⟩, hp, he⟩ := Option.map_eq_some_iff.1 h
    obtain ⟨rfl, rfl⟩ := Prod.mk.inj he
    rcases perform_answers hc hp with heff | ⟨a, ha, -⟩
    · simp only [effect, hterminal, Option.some.injEq, Prod.mk.injEq] at heff
      obtain ⟨rfl, rfl⟩ := heff
      show Op.Answered P (.claimTerminal _) (kept durable P s _)
      rw [hs.kept_stored hterminal]
      trivial
    · cases c <;> cases ha
  case bindSnapshot binding =>
    subst ho
    obtain ⟨a, rfl⟩ := hplain r h fun r s' heff => by
      simp only [effect, hjob.binding, Option.all_some, decide_true, if_true, Option.some.injEq,
        Prod.mk.injEq] at heff
      exact ⟨(), heff.1.symm⟩
    trivial
  case nowIso =>
    rcases perform_answers hc h with heff | ⟨iso, hiso, rfl⟩
    · cases heff
    · cases c <;> cases hiso
      exact hc
  all_goals
    obtain ⟨a, rfl⟩ := hplain r h fun r s' heff => ⟨_, (Prod.mk.inj (Option.some.inj heff)).1.symm⟩
    trivial

/-- Whatever the finalizer awaits can be answered. -/
theorem performAt_possible {iso : String} (hclock : Dated P iso) (ho : o.OfFinalizer P job) :
    ∃ c r s', Choice.Answers P c ∧ performAt durable P env s d o c = some (r, s') := by
  cases o <;> simp only [Op.OfFinalizer] at ho
  case claimTerminal t =>
    cases hkept : kept durable P s t with
    | error e => exact ⟨.done, .error e, s, trivial, by simp only [performAt, hkept]⟩
    | ok t' =>
      cases heff : effect env d s (.claimTerminal t') with
      | none => cases heff
      | some r => exact ⟨.done, r.1.bind (kept durable P r.2), r.2, trivial,
        by simp only [performAt, hkept, perform, heff, Option.map_some]⟩
  case nowIso => exact ⟨.stamp iso, _, _, hclock, rfl⟩
  all_goals exact ⟨.done, _, _, trivial, rfl⟩

end Finalizer

/-! ### Runs -/

section Runs

variable (durable : Bool) (P : Platform) (j₀ : CatalogIndexJob) (d₀ : Delivery)

/-- The verdict of a finalizer that was enqueued is decided. -/
structure Accepting (s : SnapshotState) : Prop where
  chained : Chained P.dateParse j₀ s
  rebuilds : RebuildsVerdict durable P s
  enqueued : ∀ d job, (d, Event.enqueued (.finalize job)) ∈ s.log → Decided s job

/-- A finalizer knows its job to be decided, every process what it has heard, and the one delivery
that nothing has failed it. -/
def finalizers : Knowledge distrokid PipelineError SnapshotState Delivery where
  inv := Accepting durable P j₀
  own d s := ∀ job, d.work.job? = some (.finalize job) → Decided s job
  holds d s x := Heard s x.1 x.2 ∧ (d = d₀ → Op.Answered P x.1 x.2)

/-- What the delivery awaits is answered. -/
def Undisturbed (d : Delivery) (w : SnapshotWorld) (m : Move Delivery Choice) (_ : SnapshotWorld) : Prop :=
  ∀ i c, m = .go i c → (w.procs[i]?).map Prod.fst = some d → c.Answers P

variable {durable P j₀ d₀} {env : Env} {d : Delivery} {s s' : SnapshotState} {o : Op} {c : Choice}

/-- A finalizer is announced for the verdict that the store holds. -/
theorem Accepting.decided (hs : Accepting durable P j₀ s) {past : Past}
    (hpast : ∀ x ∈ past, Heard s x.1 x.2) {job : FinalizeJob} (hjob : Announced j₀ past job) :
    Decided s job := by
  obtain ⟨hbound, createdAt, reason, hread⟩ := hjob
  have hbinding : s.binding = some j₀.toSnapshotRef.binding := hpast _ hbound
  have hterminal : s.terminal = some (.terminal job createdAt reason) := by
    rcases hread with hread | ⟨t, hclaimed⟩
    · exact hpast _ hread job createdAt reason rfl
    · exact hpast _ hclaimed job createdAt reason rfl
  have hdescends := tombstoneDescends_terminal.1 (hs.chained.terminal _ hterminal)
  exact ⟨by rw [hbinding, binding_of_descends hdescends], createdAt, reason, hterminal⟩

theorem performAt_enqueued {r : Except PipelineError o.Ans}
    (h : performAt durable P env s d o c = some (r, s')) {d' : Delivery} {job : StageJob}
    (hmem : (d', Event.enqueued job) ∈ s'.log) :
    (d', Event.enqueued job) ∈ s.log ∨ ∃ delayMs, o = .enqueue job delayMs := by
  cases o with
  | claimTerminal t =>
    rcases performAt_claim h with ⟨rfl, -⟩ | ⟨t', r', -, hp, -⟩
    · exact .inl hmem
    · rcases perform_enqueued hp hmem with hmem | ⟨delayMs, hop⟩
      · exact .inl hmem
      · cases hop
  | getTerminal =>
    obtain ⟨r', hp, -⟩ := performAt_getTerminal h
    rcases perform_enqueued hp hmem with hmem | ⟨delayMs, hop⟩
    · exact .inl hmem
    · cases hop
  | _ => exact perform_enqueued (o := _) h hmem

/-- One await of a program that announces what it enqueues. -/
theorem Accepting.performAt (hP : P.Faithful) (hs : Accepting durable P j₀ s) {past : Past}
    (hpast : ∀ x ∈ past, Heard s x.1 x.2) (hchained : o.Chained P.dateParse j₀)
    (hannounced : ∀ job delayMs, o = .enqueue (.finalize job) delayMs → Announced j₀ past job)
    {r : Except PipelineError o.Ans} (h : performAt durable P env s d o c = some (r, s')) :
    Accepting durable P j₀ s' where
  chained := (hs.chained.performAt hP hchained h).1
  rebuilds := hs.rebuilds.performAt hP h
  enqueued d' job hmem := by
    have hendures := performAt_endures h
    rcases performAt_enqueued h hmem with hmem | ⟨delayMs, hop⟩
    · exact (hs.enqueued d' job hmem).endures hendures
    · exact (hs.decided hpast (hannounced job delayMs hop)).endures hendures

theorem carries_of_endures (hs' : Accepting durable P j₀ s') (h : Endures s s') :
    (finalizers durable P j₀ d₀).Carries s s' where
  inv := hs'
  own _ hown job hjob := (hown job hjob).endures h
  known _ _ hx := ⟨hx.1.endures h, hx.2⟩

/-- A state that differs in nothing that the knowledge is about. -/
theorem carries_of_eq (hs : Accepting durable P j₀ s) (hbinding : s'.binding = s.binding)
    (hterminal : s'.terminal = s.terminal) (hentries : s'.entries = s.entries) (hlog : s'.log = s.log) :
    (finalizers durable P j₀ d₀).Carries s s' := by
  have hendures : Endures s s' := ⟨fun _ h => hbinding ▸ h, fun _ h => hterminal ▸ h⟩
  refine carries_of_endures ⟨⟨hterminal ▸ hs.chained.terminal, hentries ▸ hs.chained.entries,
    hlog ▸ hs.chained.log⟩, fun hdurable => ?_, fun d job hmem => ?_⟩ hendures
  · rw [hbinding, hterminal]
    exact hs.rebuilds hdurable
  · rw [hlog] at hmem
    exact (hs.enqueued d job hmem).endures hendures

theorem Accepting.known (hs : Accepting durable P j₀ s) {job : FinalizeJob}
    (h : knownJob j₀ s (.finalize job) = true) : Decided s job := by
  simp only [knownJob, reduceCtorEq, decide_false, Bool.false_or, List.any_eq_true, decide_eq_true_eq] at h
  obtain ⟨⟨d, e⟩, hmem, rfl⟩ := h
  exact hs.enqueued d job hmem

/-- One step of the system, in which the one delivery is not disturbed. -/
theorem kept_step (hP : P.Faithful) {W : Watch distrokid PipelineError}
    (hW : W = (chainWatch P.dateParse j₀).also (announceWatch P.dateParse j₀).ok)
    {w w' : SnapshotWorld} {m : Move Delivery Choice}
    (hw : (finalizers durable P j₀ d₀).Kept W (chainSystem durable P env j₀) w)
    (hfinalizer : ∃ job, d₀.work.job? = some (.finalize job)) (hm : Undisturbed P d₀ w m w')
    (h : (chainSystem durable P env j₀).step w m = some w') :
    (finalizers durable P j₀ d₀).Kept W (chainSystem durable P env j₀) w' := by
  subst hW
  refine hw.step (fun running d s hstart => ?_) (fun i c d o k past r s hmove hi hown hfollows hok hknown hp => ?_)
    (fun d r => ?_) (fun d => ?_) (fun c s henv => ?_) h
  · simp only [chainSystem, pipelineSystem, anyOrder] at hstart
    split at hstart
    · rename_i hallowed
      obtain rfl := Option.some.inj hstart
      have hdescend := hw.inv.chained.works hallowed.2
      refine ⟨carries_of_eq hw.inv rfl rfl rfl rfl, fun past =>
        (keepsChain_code hdescend past).also (keepsAnnounced_code hdescend past), fun job hjob => ?_⟩
      have hknown : knownJob j₀ w.state (.finalize job) = true := by
        obtain ⟨pid, work⟩ := d
        cases work with
        | stage stageJob => exact Option.some.inj hjob ▸ hallowed.2
        | attempt entry => exact Option.some.inj hjob ▸ hallowed.2
        | _ => cases hjob
      exact (hw.inv.known hknown).endures ⟨fun _ => id, fun _ => id⟩
    · cases hstart
  · have hheard : ∀ x ∈ past, Heard w.state x.1 x.2 := fun x hx => (hknown x hx).1
    have hendures : Endures w.state s := performAt_endures hp
    have hinv : Accepting durable P j₀ s := hw.inv.performAt hP hheard hok.1 hok.2 hp
    refine ⟨carries_of_endures hinv hendures, (hw.inv.chained.performAt hP hok.1 hp).2,
      heard_performAt hinv.rebuilds hp, fun hd => ?_⟩
    subst hd
    obtain ⟨job, hjob⟩ := hfinalizer
    have hrest := (runsThrough_code hjob []).follows hfollows fun x hx => (hknown x hx).2 rfl
    refine performAt_answered hw.inv.rebuilds (hown job hjob) hrest.1 (hm i c hmove ?_) hp
    rw [hi]
    rfl
  · exact Knowledge.Carries.refl hw.inv
  · exact Knowledge.Carries.refl hw.inv
  · cases c <;> cases henv
    exact carries_of_eq hw.inv rfl rfl rfl rfl

theorem job_of_isFinalizer (hd : d.isFinalizer = true) : ∃ job, d.work.job? = some (.finalize job) := by
  have hjob : ∀ job : StageJob, job.isFinalize = true → ∃ finalizeJob, some job = some (.finalize finalizeJob) := by
    intro job h
    cases job with
    | finalize job => exact ⟨job, rfl⟩
    | _ => cases h
  obtain ⟨pid, work⟩ := d
  cases work with
  | stage job => exact hjob job hd
  | attempt entry => exact hjob entry.job hd
  | _ => cases hd

/-- What the run has done so far with the delivery's awaits. -/
theorem kept_of_run (hP : P.Faithful) (hs : Opened j₀ s) {ms : List (Move Delivery Choice)}
    {w : SnapshotWorld} (hfinalizer : ∃ job, d₀.work.job? = some (.finalize job))
    (hrun : (chainSystem durable P env j₀).run (World.idle s) ms = some w)
    (hundisturbed : (chainSystem durable P env j₀).Along (Undisturbed P d₀) (World.idle s) ms) :
    (finalizers durable P j₀ d₀).Kept ((chainWatch P.dateParse j₀).also (announceWatch P.dateParse j₀).ok)
      (chainSystem durable P env j₀) w := by
  refine System.run_invariant (fun w m w' hw hm h => kept_step hP rfl hw hfinalizer hm h)
    (Knowledge.kept_idle ⟨hs.chained, fun _ job createdAt reason hterminal => ?_, fun d job hmem => ?_⟩)
    hundisturbed hrun
  · rw [hs.terminal] at hterminal
    cases hterminal
  · rw [hs.log] at hmem
    cases hmem

/-- What is left of an undisturbed finalizer. -/
theorem runsThrough_kept {W : Watch distrokid PipelineError} {w : SnapshotWorld} {job : FinalizeJob} {i : ℕ}
    {p : Pipe Unit} (hw : (finalizers durable P j₀ d).Kept W (chainSystem durable P env j₀) w)
    (hd : d.work.job? = some (.finalize job)) (hi : w.procs[i]? = some (d, p)) :
    ∃ past, (finalizerWatch P job).Watched (fun _ r => ∃ a, r = .ok a) p past := by
  obtain ⟨-, past, hfollows, -, hknown⟩ := hw.procs _ (List.mem_of_getElem? hi)
  exact ⟨past, (runsThrough_code hd []).follows hfollows fun x hx => (hknown x hx).2 rfl⟩

/-- Finalize accepts what is left for it. Wherever a finalizer is delivered, to a durable store or to
one in memory, after whatever stages, cancellations and sweeps of the snapshot and beside them, it
is never left with an error unless one of its own awaits was failed; and it goes on to its end as
soon as what it awaits is answered. -/
theorem finalizer_accepts (hP : P.Faithful) {iso : String} (hclock : Dated P iso) (hs : Opened j₀ s)
    {ms : List (Move Delivery Choice)} {w : SnapshotWorld}
    (hrun : (chainSystem durable P env j₀).run (World.idle s) ms = some w)
    (hd : d.isFinalizer = true)
    (hundisturbed : (chainSystem durable P env j₀).Along (Undisturbed P d) (World.idle s) ms)
    {i : ℕ} {p : Pipe Unit} (hi : w.procs[i]? = some (d, p)) :
    (∀ e, p ≠ .raise e) ∧ ∃ (cs : List Choice) (w' : SnapshotWorld), (∀ c ∈ cs, c.Answers P) ∧
      (chainSystem durable P env j₀).run w (awaits i cs) = some w' ∧ w'.procs[i]? = some (d, .ret ()) := by
  obtain ⟨job, hjob⟩ := job_of_isFinalizer hd
  have hkept := kept_of_run hP hs ⟨job, hjob⟩ hrun hundisturbed
  have hraise : ∀ (w : SnapshotWorld) e, (finalizers durable P j₀ d).Kept
      ((chainWatch P.dateParse j₀).also (announceWatch P.dateParse j₀).ok) (chainSystem durable P env j₀) w →
      w.procs[i]? ≠ some (d, .raise e) := by
    intro w e hw hi
    obtain ⟨past, a, ha⟩ := runsThrough_kept hw hjob hi
    cases ha
  refine ⟨fun e he => hraise w e hkept (he ▸ hi), System.completes hraise (fun w o k hw hi => ?_) hkept hi⟩
  obtain ⟨past, ho, -⟩ := runsThrough_kept hw hjob hi
  obtain ⟨c, r, s', hc, hp⟩ : ∃ c r s', Choice.Answers P c ∧
      (chainSystem durable P env j₀).perform d w.state o c = some (r, s') := performAt_possible hclock ho
  have hstep : (chainSystem durable P env j₀).step w (.go i c) = some ⟨s', w.procs.set i (d, k r)⟩ := by
    simp only [System.step, hi, hp, Option.map_some]
  refine ⟨c, _, hc, hstep, kept_step hP rfl hw ⟨job, hjob⟩ (fun i' c' hmove _ => ?_) hstep⟩
  cases hmove
  exact hc

theorem along_undisturbed {sys : System distrokid PipelineError SnapshotState Delivery Choice}
    {ms : List (Move Delivery Choice)} (h : ∀ i c, .go i c ∈ ms → c.Answers P) (w : SnapshotWorld) :
    sys.Along (Undisturbed P d) w ms := by
  induction ms generalizing w with
  | nil => trivial
  | cons m ms ih =>
    refine fun w' _ => ⟨fun i c hmove _ => h i c (hmove ▸ List.mem_cons_self), ?_⟩
    exact ih (fun i c hmem => h i c (List.mem_cons_of_mem _ hmem)) w'

end Runs

theorem dated_hourPlatform {iso : String}
    (h : iso = "2026-01-01T01:00:00.000Z" ∨ iso = "2026-01-01T02:00:00.000Z") : Dated hourPlatform iso := by
  rcases h with rfl | rfl
  · exact ⟨"2026-01-01T01:00:00.000Z", by decide +kernel⟩
  · exact ⟨"2026-01-01T02:00:00.000Z", by decide +kernel⟩

/-- The finalizer of the leased index's snapshot, once its index stage has failed for good. -/
def leasedFinalize : FinalizeJob :=
  { toSnapshotRef := refOf leasedIndex.toSnapshotRef, status := .failed
    completeness := failedCompleteness [] []
      (classifyDistroKidTerminalFailure "distrokid-index" (.deadlineExceeded "late"))
    pass := some 1 }

/-- The stage is terminalized; its finalizer is delivered, and has claimed the verdict. -/
def finalizedRun : { ms : List (Move Delivery Choice) //
    (∃ w ∈ leasedSystem.run (World.idle .empty) ms, w.running[0]? = some ⟨1, .stage (.finalize leasedFinalize)⟩) ∧
      ∀ i c, .go i c ∈ ms → c.Answers hourPlatform } :=
  ⟨.start ⟨0, .terminalize (.index leasedIndex) "distrokid-index" (.deadlineExceeded "late")⟩ ::
      (awaits 0 [.done, .done, .done, .stamp "2026-01-01T01:00:00.000Z", .done, .done, .done] ++
    [.settle 0, .start ⟨1, .stage (.finalize leasedFinalize)⟩] ++
      awaits 0 [.done, .stamp "2026-01-01T02:00:00.000Z", .done]), by decide +kernel, by
    intro i c h
    simp only [awaits, List.map_cons, List.map_nil, List.cons_append, List.nil_append, List.mem_cons,
      reduceCtorEq, Move.go.injEq, false_or, List.not_mem_nil, or_false] at h
    rcases h with h | h | h | h | h | h | h | h | h | h <;> obtain ⟨-, rfl⟩ := h
    case inr.inr.inr.inl => exact dated_hourPlatform (.inl rfl)
    case inr.inr.inr.inr.inr.inr.inr.inr.inl => exact dated_hourPlatform (.inr rfl)
    all_goals trivial⟩

theorem finalizer_accepts_leased : ∃ (d : Delivery) (w : SnapshotWorld) (p : Pipe Unit),
    d.isFinalizer = true ∧ w.procs[0]? = some (d, p) ∧ (∀ e, p ≠ .raise e) ∧
    ∃ (cs : List Choice) (w' : SnapshotWorld), (∀ c ∈ cs, c.Answers hourPlatform) ∧
      leasedSystem.run w (awaits 0 cs) = some w' ∧ w'.procs[0]? = some (d, .ret ()) := by
  obtain ⟨ms, ⟨w, hrun, hrunning⟩, hanswers⟩ := finalizedRun
  have hopened : Opened leasedIndex .empty := ⟨rfl, rfl, fun e he => by cases he⟩
  rw [World.running, List.getElem?_map] at hrunning
  obtain ⟨⟨d, p⟩, hi, rfl⟩ := Option.map_eq_some_iff.1 hrunning
  exact ⟨_, w, p, rfl, hi, finalizer_accepts faithful_hourPlatform (dated_hourPlatform (.inl rfl)) hopened hrun
    rfl (along_undisturbed hanswers _) hi⟩

end CatalogSentinel.Distrokid
