import CatalogSentinel.Concurrent.RelyGuarantee
import CatalogSentinel.Distrokid.Footprints

/-!
The pipeline over one snapshot as a system of processes, and the triples of the
checks that all of its stages share. The rules hold for every contract: an
operation that only reads keeps any of them.
-/

namespace CatalogSentinel.Distrokid

open CatalogSentinel.Data CatalogSentinel.Concurrent

/-- When a process may start, what its settlement and its crash leave behind, and
what may happen outside the processes. -/
structure Scheduler where
  start : SnapshotState → List Delivery → Delivery → Option SnapshotState
  settle : SnapshotState → Delivery → Except PipelineError Unit → SnapshotState
  crash : SnapshotState → Delivery → SnapshotState
  env : SnapshotState → Choice → Option SnapshotState

def pipelineSystem (env : Env) (sched : Scheduler) :
    System distrokid PipelineError SnapshotState Delivery Choice where
  perform := perform env
  code := code env
  start := sched.start
  settle := sched.settle
  crash := sched.crash
  env := sched.env

/-- The account lock may lapse at any time. -/
def lapse (s : SnapshotState) : Choice → Option SnapshotState
  | .lockExpired => some { s with lock := none }
  | _ => none

/-- Any allowed work may be started at any time, any number of times. -/
def anyOrder (allowed : SnapshotState → Work → Bool) : Scheduler where
  start s _ d :=
    if d.pid = s.nextPid ∧ allowed s d.work then some { s with nextPid := s.nextPid + 1 } else none
  settle s _ _ := s
  crash s _ := s
  env := lapse

abbrev SnapshotWorld := World distrokid PipelineError SnapshotState Delivery

/-- The moves that answer a program's next awaits, in turn. -/
def awaits (i : ℕ) (cs : List Choice) : List (Move Delivery Choice) := cs.map (.go i)

/-! ### Operations that only read -/

variable {env : Env} {sched : Scheduler}

theorem perform_state {d : Delivery} {s s' : SnapshotState} {o : Op} {c : Choice}
    {r : Except PipelineError o.Ans} (h : perform env d s o c = some (r, s')) :
    s' = s ∨ (∃ r', effect env d s o = some (r', s')) ∨ attempted d s o = some s' := by
  rcases perform_cases h with he | ⟨e, r', -, he, -⟩ | ⟨e, -, he, -⟩ | ⟨a, c', -, he, -⟩
  · exact .inr (.inl ⟨r, he⟩)
  · exact .inr (.inl ⟨r', he⟩)
  · exact .inr (.inr he)
  · exact .inl he

/-- An error of an operation that is no refused binding is an honest failure. -/
theorem perform_error {d : Delivery} {s s' : SnapshotState} {o : Op} {c : Choice}
    {e : PipelineError} (h : perform env d s o c = some (.error e, s')) :
    honest s e ∨ e = .principalMismatch := by
  rcases perform_cases h with he | ⟨e', r', hh, -, he⟩ | ⟨e', hh, -, he⟩ | ⟨a, c', -, -, he⟩
  · cases o <;> simp only [effect, Option.some.injEq, Prod.mk.injEq, reduceCtorEq, false_and] at he
    · split at he <;> simp_all
    · split at he <;> simp_all
    · split at he <;> simp_all
  · cases he
    exact .inl hh
  · cases he
    exact .inl hh
  · cases he

theorem perform_read {d : Delivery} {s s' : SnapshotState} {o : Op} {c : Choice}
    {r : Except PipelineError o.Ans} (ho : o.isRead) (h : perform env d s o c = some (r, s')) :
    s' = s := by
  rcases perform_state h with he | ⟨r', he⟩ | he
  · exact he
  · cases o <;> simp only [Op.isRead, Bool.false_eq_true] at ho <;>
      simp only [effect, Option.some.injEq, Prod.mk.injEq, reduceCtorEq] at he <;> exact he.2.symm
  · cases o <;> simp only [Op.isRead, Bool.false_eq_true] at ho <;>
      simp only [attempted, Option.some.injEq, reduceCtorEq] at he <;> exact he.symm

/-! ### What an operation may log -/

/-- The events that an operation may add to the log. -/
def Op.logs : Op → Event → Prop
  | putOutcomes os, e => e = .stored os
  | getOutcomes, .outcomesRead _ => True
  | putProgress p, e => e = .progressPut p
  | claimTerminal t, e => e = .claimed t
  | openExisting, e => e = .opened
  | extractChunk job _, e => e = .extracting job
  | enqueue job _, e => e = .enqueued job
  | persistSnapshot job os, e => e = .persistCalled job os ∨ e = .persisted job os
  | logAlreadyDurable job, e => e = .alreadyDurable job
  | releaseSession job, e => e = .sessionReleased job
  | _, _ => False

theorem effect_log {d : Delivery} {s s' : SnapshotState} {o : Op} {r : Except PipelineError o.Ans}
    (h : effect env d s o = some (r, s')) :
    ∃ es : List Event, s'.log = es.map (Prod.mk d) ++ s.log ∧ ∀ e ∈ es, o.logs e := by
  cases o <;> simp only [effect, Option.some.injEq, reduceCtorEq] at h
  case bindSnapshot | acquireLock =>
    split at h <;> obtain ⟨-, rfl⟩ := Prod.mk.inj h <;> exact ⟨[], rfl, by simp⟩
  case claimTerminal t =>
    split at h <;> obtain ⟨-, rfl⟩ := Prod.mk.inj h
    · exact ⟨[], rfl, by simp⟩
    · exact ⟨[.claimed t], rfl, by simp [Op.logs]⟩
  case releaseLock =>
    obtain ⟨-, rfl⟩ := Prod.mk.inj h
    refine ⟨[], ?_, by simp⟩
    split <;> rfl
  case persistSnapshot job os =>
    obtain ⟨-, rfl⟩ := Prod.mk.inj h
    exact ⟨[.persisted job os, .persistCalled job os], rfl, by simp [Op.logs]⟩
  -- Every other operation logs at most the one event that `logs` names for it.
  all_goals
    obtain ⟨-, rfl⟩ := Prod.mk.inj h
    first
      | exact ⟨[], rfl, by simp⟩
      | exact ⟨[_], rfl, by simp [Op.logs]⟩

/-- A step of a process adds to the log what its operation may log, under its own name. -/
theorem perform_log {d : Delivery} {s s' : SnapshotState} {o : Op} {c : Choice}
    {r : Except PipelineError o.Ans} (h : perform env d s o c = some (r, s')) :
    ∃ es : List Event, s'.log = es.map (Prod.mk d) ++ s.log ∧ ∀ e ∈ es, o.logs e := by
  rcases perform_state h with rfl | ⟨r', he⟩ | he
  · exact ⟨[], rfl, by simp⟩
  · exact effect_log he
  · cases o <;> simp only [attempted, Option.some.injEq, reduceCtorEq] at he <;> subst he
    case persistSnapshot job os => exact ⟨[.persistCalled job os], rfl, by simp [Op.logs]⟩
    all_goals exact ⟨[], rfl, by simp⟩

/-- An operation that only the state settles takes effect, unless its call is lost. -/
theorem perform_settled {d : Delivery} {s s' : SnapshotState} {o : Op} {c : Choice}
    {r : Except PipelineError o.Ans} (hanswer : ∀ c, answer env o c = none)
    (h : perform env d s o c = some (r, s')) :
    (∃ e, c = .lost e) ∧ attempted d s o = some s' ∨
      (∀ e, c ≠ .lost e) ∧ ∃ r', effect env d s o = some (r', s') := by
  cases c with
  | done => exact .inr ⟨(fun _ h => by cases h), r, h⟩
  | lost e =>
    simp only [perform] at h
    split at h
    · obtain ⟨v, hv, he⟩ := Option.map_eq_some_iff.1 h
      cases he
      exact .inl ⟨⟨e, rfl⟩, hv⟩
    · cases h
  | torn e =>
    simp only [perform] at h
    split at h
    · obtain ⟨v, hv, he⟩ := Option.map_eq_some_iff.1 h
      cases he
      exact .inr ⟨(fun _ h => by cases h), v.1, hv⟩
    · cases h
  | _ => simp [perform, hanswer] at h

/-- Each record of the snapshot is written by the operations named for it alone. -/
structure Frame (o : Op) (s s' : SnapshotState) : Prop where
  nextPid : s'.nextPid = s.nextPid
  index : (∀ rs, o ≠ .putIndex rs) → s'.index = s.index
  outcomes : (∀ os, o ≠ .putOutcomes os) → s'.outcomes = s.outcomes
  progress : (∀ p, o ≠ .putProgress p) → s'.progress = s.progress
  chunks : (∀ pass i, o ≠ .markChunkComplete pass i) → s'.chunks = s.chunks
  plans : (∀ pass plan, o ≠ .putPassPlan pass plan) → s'.plans = s.plans
  terminal : (∀ t, o ≠ .claimTerminal t) → s'.terminal = s.terminal
  existing : o ≠ .openExisting → (∀ d b, o ≠ .converge d b) → s'.existing = s.existing
  entries : (∀ j d, o ≠ .enqueue j d) → (∀ id, o ≠ .retryJob id) → (∀ id p, o ≠ .updateProgress id p) →
    s'.entries = s.entries

theorem Frame.refl (o : Op) (s : SnapshotState) : Frame o s s := by
  constructor <;> intros <;> rfl

theorem effect_frame {d : Delivery} {s s' : SnapshotState} {o : Op}
    {r : Except PipelineError o.Ans} (h : effect env d s o = some (r, s')) : Frame o s s' := by
  cases o <;> simp only [effect, Option.some.injEq, reduceCtorEq] at h
  case bindSnapshot | acquireLock | claimTerminal =>
    split at h <;> obtain ⟨-, rfl⟩ := Prod.mk.inj h <;> constructor <;>
      simp [SnapshotState.note]
  case releaseLock =>
    obtain ⟨-, rfl⟩ := Prod.mk.inj h
    split <;> constructor <;> simp
  all_goals
    obtain ⟨-, rfl⟩ := Prod.mk.inj h
    constructor <;> simp [SnapshotState.note, SnapshotState.keep]

theorem perform_frame {d : Delivery} {s s' : SnapshotState} {o : Op} {c : Choice}
    {r : Except PipelineError o.Ans} (h : perform env d s o c = some (r, s')) : Frame o s s' := by
  rcases perform_state h with rfl | ⟨r', he⟩ | he
  · exact Frame.refl o _
  · exact effect_frame he
  · cases o <;> simp only [attempted, Option.some.injEq, reduceCtorEq] at he <;> subst he <;>
      constructor <;> intros <;> rfl

/-- Two states with the same records: they may differ in the account lock and in the
number that the next process gets. -/
structure SameRecords (s s' : SnapshotState) : Prop where
  log : s'.log = s.log
  terminal : s'.terminal = s.terminal
  index : s'.index = s.index
  outcomes : s'.outcomes = s.outcomes
  progress : s'.progress = s.progress
  existing : s'.existing = s.existing

/-- A step in any order is an operation of a running process, or changes no record. -/
theorem step_anyOrder {allowed : SnapshotState → Work → Bool} {w w' : SnapshotWorld}
    {m : Move Delivery Choice} (h : (pipelineSystem env (anyOrder allowed)).step w m = some w') :
    (∃ i c t o k r, m = .go i c ∧ w.procs[i]? = some (t, .op o k) ∧
      perform env t w.state o c = some (r, w'.state)) ∨ SameRecords w.state w'.state := by
  cases m with
  | start t =>
    obtain ⟨s, hs, rfl⟩ := System.step_start h
    simp only [pipelineSystem, anyOrder] at hs
    split at hs
    · cases hs
      exact .inr ⟨rfl, rfl, rfl, rfl, rfl, rfl⟩
    · cases hs
  | go i c =>
    obtain ⟨t, o, k, r, s, hi, hp, rfl⟩ := System.step_go h
    exact .inl ⟨i, c, t, o, k, r, rfl, hi, hp⟩
  | settle i =>
    obtain ⟨t, r, -, rfl⟩ := System.step_settle h
    exact .inr ⟨rfl, rfl, rfl, rfl, rfl, rfl⟩
  | crash i =>
    obtain ⟨t, p, -, rfl⟩ := System.step_crash h
    exact .inr ⟨rfl, rfl, rfl, rfl, rfl, rfl⟩
  | env c =>
    obtain ⟨s, hs, rfl⟩ := System.step_env h
    cases c <;> cases hs
    exact .inr ⟨rfl, rfl, rfl, rfl, rfl, rfl⟩

/-! ### Triples of the shared checks -/

section Triples

variable {C : Contract (pipelineSystem env sched)} {t : Delivery} {α β : Type}
  {P : SnapshotState → Prop} {Q : α → SnapshotState → Prop}
  {E : PipelineError → SnapshotState → Prop}

/-- Error conditions that any failing operation meets, and that last. -/
structure Failing (C : Contract (pipelineSystem env sched))
    (E : PipelineError → SnapshotState → Prop) : Prop where
  lasting : ∀ e, C.Lasting (E e)
  honest : ∀ e s, C.inv s → honest s e → E e s
  mismatch : ∀ s, C.inv s → E .principalMismatch s

theorem failing_true : Failing C fun _ _ => True :=
  ⟨fun _ => C.lasting_pure True, fun _ _ _ _ => trivial, fun _ _ => trivial⟩

theorem Failing.of_perform (hE : Failing C E) {s s' : SnapshotState} {o : Op} {c : Choice}
    {e : PipelineError} (hi : C.inv s) (h : perform env t s o c = some (.error e, s')) : E e s := by
  rcases perform_error h with hh | rfl
  · exact hE.honest e s hi hh
  · exact hE.mismatch s hi

theorem Failing.triple_raise (hE : Failing C E) (hP : C.Lasting P) {e : PipelineError}
    (he : e.isStopped = false) : C.Triple t P (Prog.raise e : Pipe α) Q E :=
  Contract.triple_raise (hP.stable t) fun s hi _ => hE.honest e s hi (by
    cases e <;> simp_all [PipelineError.isStopped, Distrokid.honest])

/-- An await that keeps the contract, from a lasting fact. -/
theorem triple_await (hE : Failing C E) (hP : C.Lasting P) {o : Op} (ho : C.Calm t o) :
    C.Triple t P (await o) (fun _ => P) E := by
  refine Contract.triple_call (hP.stable t) (fun r => ?_) fun s c r s' hi hown hs hp => ?_
  · cases r with
    | ok a => exact hP.stable t
    | error e => exact (hE.lasting e).stable t
  · have hk := ho s c r s' hi hown hp
    refine ⟨hk, ?_⟩
    cases r with
    | ok a => exact hP s s' hk.grows hs
    | error e => exact hE.lasting e s s' hk.grows (hE.of_perform hi hp)

theorem calm_read {o : Op} (ho : o.isRead) : C.Calm t o := by
  intro s c r s' hi hown hp
  have hs : s' = s := perform_read ho hp
  subst hs
  exact Contract.Keeps.refl hi hown

theorem triple_read (hE : Failing C E) (hP : C.Lasting P) {o : Op} (ho : o.isRead) :
    C.Triple t P (await o) (fun _ => P) E :=
  triple_await hE hP (calm_read ho)

/-- A read keeps whatever interference keeps. -/
theorem triple_readStable {o : Op} (ho : o.isRead) (hst : C.Stable t P) :
    C.Triple t P (await o) (fun _ => P) (fun _ _ => True) := by
  refine Contract.triple_call hst (fun r => ?_) fun s c r s' hi hown hs hp => ?_
  · cases r with
    | ok a => exact hst
    | error e => exact fun _ _ _ _ _ => trivial
  · have hs' : s' = s := perform_read ho hp
    subst hs'
    refine ⟨Contract.Keeps.refl hi hown, ?_⟩
    cases r with
    | ok a => exact hs
    | error e => trivial

/-- A read that the state settles, and what its answer says of the state. -/
theorem triple_readState (hE : Failing C E) (hP : C.Lasting P) {o : Op} (ho : o.isRead)
    (hanswer : ∀ c, answer env o c = none) {R : o.Ans → SnapshotState → Prop}
    (hR : ∀ a, C.Lasting (R a))
    (h : ∀ s a s', C.inv s → effect env t s o = some (.ok a, s') → R a s) :
    C.Triple t P (await o) (fun a s => P s ∧ R a s) E := by
  refine Contract.triple_call (hP.stable t) (fun r => ?_) fun s c r s' hi hown hs hp => ?_
  · cases r with
    | ok a => exact (hP.and (hR a)).stable t
    | error e => exact (hE.lasting e).stable t
  · have hs' : s' = s := perform_read ho hp
    subst hs'
    refine ⟨Contract.Keeps.refl hi hown, ?_⟩
    cases r with
    | ok a =>
      rcases perform_cases hp with he | ⟨_, _, _, _, he⟩ | ⟨_, _, _, he⟩ | ⟨_, c', he, _, _⟩
      · exact ⟨hs, h _ a _ hi he⟩
      · cases he
      · cases he
      · rw [hanswer] at he
        cases he
    | error e => exact hE.of_perform hi hp

/-- An operation that only the state settles, by what its effect and a lost attempt keep. -/
theorem triple_effect {o : Op} {Q : o.Ans → SnapshotState → Prop} (hP : C.Stable t P)
    (hQ : ∀ a, C.Stable t (Q a)) (hanswer : ∀ c, answer env o c = none)
    (heffect : ∀ s r s', C.inv s → C.own t s → P s → effect env t s o = some (r, s') →
      C.Keeps t s s' ∧ ∀ a, r = .ok a → Q a s')
    (hattempted : ∀ s s', C.inv s → C.own t s → P s → attempted t s o = some s' → C.Keeps t s s') :
    C.Triple t P (await o) Q (fun _ _ => True) := by
  refine Contract.triple_call hP (fun r => ?_) fun s c r s' hi hown hs hp => ?_
  · cases r with
    | ok a => exact hQ a
    | error e => exact fun _ _ _ _ _ => trivial
  · rcases perform_cases hp with he | ⟨e, r', -, he, rfl⟩ | ⟨e, -, he, rfl⟩ | ⟨a, c', ha, -, -⟩
    · obtain ⟨hk, hq⟩ := heffect s r s' hi hown hs he
      refine ⟨hk, ?_⟩
      cases r with
      | ok a => exact hq a rfl
      | error e => trivial
    · exact ⟨(heffect s r' s' hi hown hs he).1, trivial⟩
    · exact ⟨hattempted s s' hi hown hs he, trivial⟩
    · rw [hanswer] at ha
      cases ha

theorem triple_getTerminal (hE : Failing C E) (hP : C.Lasting P)
    (hterm : ∀ x, C.Lasting fun s => s.terminal = some x) :
    C.Triple t P store.getTerminal
      (fun r s => P s ∧ ∀ x, r = some x → s.terminal = some x) E := by
  refine triple_readState hE hP rfl (fun c => by cases c <;> rfl) (fun a => ?_)
    fun s a s' _ he x hx => ?_
  · exact Contract.lasting_forall fun x => Contract.lasting_imp (hterm x)
  · have ha := Except.ok.inj (Prod.mk.inj (Option.some.inj he)).1
    exact ha.trans hx

theorem isFatal_of_deadlineMs {job : SnapshotRef} {e : PipelineError}
    (h : deadlineMs env job = .error e) : isFatal e = true := by
  unfold deadlineMs at h
  split at h
  · split at h <;> cases h
    rfl
  · split at h
    · cases h
      rfl
    · split at h
      · split at h
        · cases h
          rfl
        · split at h <;> cases h
          rfl
      · split at h <;> cases h
        rfl

theorem deadlineMs_error {job : SnapshotRef} {e : PipelineError}
    (h : deadlineMs env job = .error e) : e.isStopped = false := by
  have hfatal := isFatal_of_deadlineMs h
  cases e <;> first | rfl | cases hfatal

theorem triple_assertPipelineDeadline (hE : Failing C E) (hP : C.Lasting P) (job : SnapshotRef) :
    C.Triple t P (assertPipelineDeadline env job) (fun _ => P) E := by
  unfold assertPipelineDeadline
  split
  · rename_i e he
    exact hE.triple_raise hP (deadlineMs_error he)
  · exact Contract.triple_ret (hP.stable t) fun _ _ h => h
  · refine (triple_read hE hP rfl).bind fun now => ?_
    split
    · exact hE.triple_raise hP rfl
    · exact Contract.triple_ret (hP.stable t) fun _ _ h => h

theorem triple_assertSnapshotCanContinue (hE : Failing C E) (hP : C.Lasting P)
    (hterm : ∀ x, C.Lasting fun s => s.terminal = some x) (job : SnapshotRef) :
    C.Triple t P (assertSnapshotCanContinue env job) (fun _ => P) E := by
  refine (triple_assertPipelineDeadline hE hP job).bind fun _ =>
    (triple_getTerminal hE hP hterm).bind fun r => ?_
  cases r with
  | none =>
    exact (Contract.triple_ret (hP.stable t) fun _ _ h => h).pre fun _ _ h => h.1
  | some x =>
    refine (Contract.triple_raise ((hterm x).stable t) fun s hi h => ?_).pre fun _ _ h => h.2 x rfl
    exact hE.honest _ s hi (by simpa [Distrokid.honest] using h)

theorem triple_assertNotAborted (hE : Failing C E) (hP : C.Lasting P) :
    C.Triple t P assertNotAborted (fun _ => P) E := by
  have haborted : C.Triple t P deps.aborted
      (fun r s => P s ∧ ∀ e, r = some e → e.isStopped = false) E := by
    refine Contract.triple_call (hP.stable t) (fun r => ?_) fun s c r s' hi hown hs hp => ?_
    · cases r with
      | ok a => exact (hP.and (C.lasting_pure _)).stable t
      | error e => exact (hE.lasting e).stable t
    · have hs' : s' = s := perform_read rfl hp
      subst hs'
      refine ⟨Contract.Keeps.refl hi hown, ?_⟩
      cases r with
      | ok a =>
        refine ⟨hs, fun e he => ?_⟩
        subst he
        rcases perform_cases hp with he | ⟨_, _, _, _, he⟩ | ⟨_, _, _, he⟩ | ⟨_, c', ha, _, he⟩
        · cases Except.ok.inj (Prod.mk.inj (Option.some.inj he)).1
        · cases he
        · cases he
        · cases he
          cases c' <;> simp only [answer, reduceCtorEq] at ha
          split at ha
          · cases ha
          · rename_i hstop
            cases ha
            simpa using hstop
      | error e => exact hE.of_perform hi hp
  refine haborted.bind fun r => ?_
  cases r with
  | none => exact (Contract.triple_ret (hP.stable t) fun _ _ h => h).pre fun _ _ h => h.1
  | some e =>
    intro s hi hown h
    exact hE.triple_raise hP (h.2 e rfl) s hi hown h.1

theorem triple_assertCanContinue (hE : Failing C E) (hP : C.Lasting P)
    (hterm : ∀ x, C.Lasting fun s => s.terminal = some x) (job : SnapshotRef) :
    C.Triple t P (assertCanContinue env job) (fun _ => P) E :=
  (triple_assertNotAborted hE hP).bind fun _ =>
    (triple_assertSnapshotCanContinue hE hP hterm job).bind fun _ => triple_assertNotAborted hE hP

/-- What a stage does with the tombstone it finds: a verdict's finalizer is enqueued. -/
theorem triple_resumeTerminalFinalizer (hE : Failing C E) (hP : C.Lasting P)
    (hterm : ∀ x, C.Lasting fun s => s.terminal = some x)
    (hbind : ∀ b, C.Calm t (.bindSnapshot b))
    (hfin : ∀ j createdAt reason, C.Triple t
      (fun s => s.terminal = some (.terminal j createdAt reason))
      (deps.enqueue (.finalize j) 0) (fun _ _ => True) E) (job : SnapshotRef) :
    C.Triple t P (resumeTerminalFinalizer job)
      (fun stopped s => P s ∧ (stopped = true → s.terminal.isSome)) E := by
  have hsome : C.Lasting fun s : SnapshotState => s.terminal.isSome := by
    intro s s' hg h
    obtain ⟨x, hx⟩ := Option.isSome_iff_exists.1 h
    exact Option.isSome_iff_exists.2 ⟨x, hterm x s s' hg hx⟩
  have hstop : C.Lasting fun s : SnapshotState => P s ∧ (true = true → s.terminal.isSome) :=
    fun s s' hg h => ⟨hP s s' hg h.1, fun _ => hsome s s' hg (h.2 rfl)⟩
  refine (triple_await hE hP (hbind _)).bind fun _ => (triple_getTerminal hE hP hterm).bind fun r => ?_
  rcases r with _ | ⟨j, createdAt, reason⟩ | ⟨createdAt, reason⟩
  · refine (Contract.triple_ret (hP.stable t) fun s _ h => ⟨h, fun hf => ?_⟩).pre fun _ _ h => h.1
    cases hf
  · refine Contract.Triple.bind (((hfin j createdAt reason).frame hstop).consequence
      (fun s _ h => ⟨h.2 _ rfl, h.1, fun _ => by rw [h.2 _ rfl]; rfl⟩)
      (fun _ _ _ h => h.2) fun _ _ _ h => h.1) fun _ => ?_
    exact Contract.triple_ret (hstop.stable t) fun _ _ h => h
  · refine (Contract.triple_ret (hstop.stable t) fun _ _ h => h).pre fun s _ h =>
      ⟨h.1, fun _ => by rw [h.2 _ rfl]; rfl⟩

/-- The program starts anywhere and keeps the contract to any end. -/
abbrev Abides (C : Contract (pipelineSystem env sched)) (t : Delivery) {α : Type} (p : Pipe α) : Prop :=
  C.Triple t (fun _ => True) p (fun _ _ => True) fun _ _ => True

section Verdicts

variable (hterm : ∀ x, C.Lasting fun s => s.terminal = some x)
  (hfin : ∀ j createdAt reason, C.Triple t (fun s => s.terminal = some (.terminal j createdAt reason))
    (deps.enqueue (.finalize j) 0) (fun _ _ => True) fun _ _ => True)
include hterm hfin

/-- The verdict that is handed over has won. -/
theorem triple_handsOver {f : SnapshotTerminalTombstone → Pipe α} (hf : HandsOver (Abides C t) f)
    (x : SnapshotTerminalTombstone) :
    C.Triple t (fun s => s.terminal = some x) (f x) (fun _ _ => True) fun _ _ => True := by
  cases x with
  | cancelled createdAt reason => exact (hf.cancelled createdAt reason).pre fun _ _ _ => trivial
  | terminal j createdAt reason =>
    obtain ⟨before, a, hbefore, he⟩ := hf.terminal j createdAt reason
    rw [he]
    refine ((hbefore.frame (hterm _)).consequence (fun _ _ h => ⟨trivial, h⟩)
      (fun _ _ _ h => h.2) fun _ _ _ _ => trivial).bind fun _ => (hfin j createdAt reason).bind fun _ => ?_
    exact Contract.triple_ret ((C.lasting_pure True).stable t) fun _ _ h => h

theorem verdictProperty_abides (h : StageProperty fun {α} (p : Pipe α) => Abides C t p) :
    VerdictProperty fun {α} (p : Pipe α) => Abides C t p where
  toStageProperty := h
  getTerminal hnone hf :=
    (triple_getTerminal failing_true (C.lasting_pure True) hterm).bind fun terminal => by
      cases terminal with
      | none => exact hnone.pre fun _ _ _ => trivial
      | some x => exact (triple_handsOver hterm hfin hf x).pre fun _ _ h => h.2 x rfl

end Verdicts

end Triples

/-! ### Concrete runs -/

/-- A deployment without deadlines, for concrete runs. -/
def sampleEnv : Env :=
  { dateParse := fun _ => none, requireDeadline := false
    chunkSize := .finite DISTROKID_RELEASE_CHUNK_SIZE, keepsEmptyPlan := false
    catalogue := none, oneOutcomePerRef := false }

def sampleRef : SnapshotRef :=
  ⟨"tenant", "connection", "snapshot", "distrokid", none, none, none, none, none, none⟩

def anyWork (_ : SnapshotState) (_ : Work) : Bool := true

/-- A snapshot whose catalogue index holds these releases. -/
def indexed (ids : List String) : SnapshotState :=
  { SnapshotState.empty with index := ids.map fun id => ⟨id, "", none, none, none⟩ }

def sampleChunk (ids : List String) : ReleaseChunkJob :=
  { toSnapshotRef := sampleRef, chunkIndex := 0, releaseIds := ids, pass := some 1
    passChunkCount := some 1, deferAttempt := none }

/-- How a chunk delivery starts, up to its read of the stored outcomes. -/
def openings : List Choice := List.replicate 8 .done

end CatalogSentinel.Distrokid
