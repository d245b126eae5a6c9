import CatalogSentinel.Data.History
import CatalogSentinel.Distrokid.Rules

/-!
One verdict for a snapshot. The tombstone is written once; every finalizer that
is enqueued and every persistence that is called belongs to it, whichever stage
proposed it. The finalizer takes its progress row as proof of an earlier
persistence, and the row is only ever terminal after one has succeeded.
-/

namespace CatalogSentinel.Distrokid

open CatalogSentinel.Data CatalogSentinel.Concurrent

namespace SnapshotState

/-- The stored tombstone is the verdict that this finalizer carries. -/
def Won (s : SnapshotState) (j : FinalizeJob) : Prop :=
  ∃ createdAt reason, s.terminal = some (.terminal j createdAt reason)

/-- The log holds a successful persistence of the verdict. -/
def PersistedIn (log : List (Delivery × Event)) (j : FinalizeJob) : Prop :=
  ∃ d os, (d, Event.persisted j os) ∈ log

/-- The log holds a write of a terminal progress row. -/
def RecordedIn (log : List (Delivery × Event)) : Prop :=
  ∃ d p, (d, Event.progressPut p) ∈ log ∧ p.status.isTerminal = true

/-- The winning verdict has been persisted. -/
def Persisted (s : SnapshotState) : Prop := ∃ j, s.Won j ∧ PersistedIn s.log j

/-- Nothing has happened to the snapshot yet; what its checkpoints hold is arbitrary. -/
structure Fresh (s : SnapshotState) : Prop where
  terminal : s.terminal = none
  log : s.log = []
  progress : ∀ p, s.progress = some p → p.status.isTerminal = false

theorem Won.unique {s : SnapshotState} {j j' : FinalizeJob} (h : s.Won j) (h' : s.Won j') :
    j = j' := by
  obtain ⟨createdAt, reason, h⟩ := h
  obtain ⟨createdAt', reason', h'⟩ := h'
  rw [h] at h'
  cases h'
  rfl

end SnapshotState

open SnapshotState

/-- What the events before an event must hold: for the finalizer's two claims that the
verdict is durable, a persistence; for a terminal progress row that no finalizer wrote,
an earlier one. -/
def DurableBefore : Delivery × Event → List (Delivery × Event) → Prop
  | (_, .alreadyDurable j), past => PersistedIn past j
  | (_, .sessionReleased j), past => PersistedIn past j
  | (d, .progressPut p), past => p.status.isTerminal = true → d.isFinalizer = true ∨ RecordedIn past
  | _, _ => True

/-- The verdict that an event carries: an enqueued finalizer, a called persistence, and
the finalizer's two claims. -/
def Event.verdict? : Event → Option FinalizeJob
  | enqueued (.finalize j) => some j
  | persistCalled j _ => some j
  | alreadyDurable j => some j
  | sessionReleased j => some j
  | _ => none

/-- The event writes a terminal progress row. -/
def Event.records : Event → Bool
  | progressPut p => p.status.isTerminal
  | _ => false

structure VerdictInv (s : SnapshotState) : Prop where
  won : ∀ d e j, (d, e) ∈ s.log → e.verdict? = some j → s.Won j
  durable : Justified DurableBefore s.log
  progress : ∀ p, s.progress = some p → p.status.isTerminal = true → RecordedIn s.log
  recorded : RecordedIn s.log → s.Persisted

/-- A tombstone is never changed, and the log only grows. -/
structure VerdictGrows (s s' : SnapshotState) : Prop where
  terminal : ∀ x, s.terminal = some x → s'.terminal = some x
  log : Extends s.log s'.log

theorem VerdictGrows.refl (s : SnapshotState) : VerdictGrows s s :=
  ⟨fun _ h => h, Extends.refl _⟩

theorem VerdictGrows.trans {a b c : SnapshotState} (h : VerdictGrows a b) (h' : VerdictGrows b c) :
    VerdictGrows a c :=
  ⟨fun x hx => h'.terminal x (h.terminal x hx), h.log.trans h'.log⟩

theorem VerdictGrows.won {s s' : SnapshotState} {j : FinalizeJob} (h : VerdictGrows s s')
    (hj : s.Won j) : s'.Won j := by
  obtain ⟨createdAt, reason, hj⟩ := hj
  exact ⟨createdAt, reason, h.terminal _ hj⟩

theorem VerdictGrows.persistedIn {s s' : SnapshotState} {j : FinalizeJob} (h : VerdictGrows s s')
    (hj : PersistedIn s.log j) : PersistedIn s'.log j := by
  obtain ⟨pid, os, hj⟩ := hj
  exact ⟨pid, os, h.log.mem hj⟩

theorem VerdictGrows.persisted {s s' : SnapshotState} (h : VerdictGrows s s')
    (hs : s.Persisted) : s'.Persisted := by
  obtain ⟨j, hj, hp⟩ := hs
  exact ⟨j, h.won hj, h.persistedIn hp⟩

theorem VerdictGrows.recordedIn {s s' : SnapshotState} (h : VerdictGrows s s')
    (hs : RecordedIn s.log) : RecordedIn s'.log := by
  obtain ⟨d, p, hp, ht⟩ := hs
  exact ⟨d, p, h.log.mem hp, ht⟩

theorem VerdictInv.fresh {s : SnapshotState} (h : s.Fresh) : VerdictInv s := by
  refine ⟨fun _ _ _ h' => ?_, ?_, fun p hp ht => ?_, fun ⟨_, _, h', _⟩ => ?_⟩
  · simp [h.log] at h'
  · rw [h.log]
    trivial
  · rw [h.progress p hp] at ht
    cases ht
  · simp [h.log] at h'

/-- A step that logs no verdict and writes no terminal progress. -/
structure Indecisive (d : Delivery) (s s' : SnapshotState) : Prop where
  terminal : ∀ x, s.terminal = some x → s'.terminal = some x
  progress : s'.progress = s.progress ∨
    ∃ p, s'.progress = some p ∧ p.status.isTerminal = false
  log : s'.log = s.log ∨
    ∃ e, e.verdict? = none ∧ e.records = false ∧ s'.log = (d, e) :: s.log

theorem Indecisive.refl (d : Delivery) (s : SnapshotState) : Indecisive d s s :=
  ⟨fun _ h => h, .inl rfl, .inl rfl⟩

theorem Indecisive.grows {d : Delivery} {s s' : SnapshotState} (h : Indecisive d s s') :
    VerdictGrows s s' := by
  refine ⟨h.terminal, ?_⟩
  rcases h.log with he | ⟨e, -, -, he⟩
  · rw [he]
    exact Extends.refl _
  · rw [he]
    exact Extends.cons _ _

theorem Indecisive.mem {d d' : Delivery} {s s' : SnapshotState} {e : Event}
    (h : Indecisive d s s') (he : e.verdict?.isSome = true ∨ e.records = true)
    (hmem : (d', e) ∈ s'.log) : (d', e) ∈ s.log := by
  rcases h.log with hl | ⟨e', hv, hr, hl⟩
  · rwa [hl] at hmem
  · rw [hl, List.mem_cons] at hmem
    rcases hmem with hmem | hmem
    · cases hmem
      simp [hv, hr] at he
    · exact hmem

theorem VerdictInv.indecisive {d : Delivery} {s s' : SnapshotState} (hs : VerdictInv s)
    (h : Indecisive d s s') : VerdictInv s' := by
  refine ⟨fun q e j he hj => ?_, ?_, fun p hp ht => ?_, fun ⟨q, p, hp, ht⟩ => ?_⟩
  · exact h.grows.won (hs.won q e j (h.mem (.inl (by rw [hj]; rfl)) he) hj)
  · rcases h.log with hl | ⟨e, hv, hr, hl⟩
    · rw [hl]
      exact hs.durable
    · rw [hl]
      refine ⟨?_, hs.durable⟩
      cases e with
      | progressPut p => exact fun ht => absurd (hr.symm.trans ht) (by simp)
      | _ => trivial
  · rcases h.progress with hp' | ⟨q, hq, hqt⟩
    · exact h.grows.recordedIn (hs.progress p (hp' ▸ hp) ht)
    · rw [hq] at hp
      cases hp
      rw [hqt] at ht
      cases ht
  · exact h.grows.persisted (hs.recorded ⟨q, p, h.mem (.inr ht) hp, ht⟩)

/-! ### The contract -/

variable {env : Env} {allowed : SnapshotState → Work → Bool}

def verdict (env : Env) (allowed : SnapshotState → Work → Bool) :
    Contract (pipelineSystem env (anyOrder allowed)) where
  inv := VerdictInv
  own _ _ := True
  rely _ := VerdictGrows
  grows := VerdictGrows
  apart _ _ := True
  post _ _ _ := True
  rely_refl _ := VerdictGrows.refl
  rely_trans _ _ _ _ := VerdictGrows.trans
  rely_grows _ _ _ h := h
  rely_own _ _ _ _ _ _ := trivial

theorem verdict_keeps {t : Delivery} {s s' : SnapshotState} (hi : VerdictInv s')
    (hg : VerdictGrows s s') : (verdict env allowed).Keeps t s s' :=
  ⟨hi, trivial, hg, fun _ _ => hg⟩

theorem lasting_terminal (x : SnapshotTerminalTombstone) :
    (verdict env allowed).Lasting fun s => s.terminal = some x :=
  fun _ _ hg h => hg.terminal x h

theorem lasting_won (j : FinalizeJob) : (verdict env allowed).Lasting fun s => s.Won j :=
  fun _ _ hg h => hg.won h

theorem lasting_persistedIn (j : FinalizeJob) :
    (verdict env allowed).Lasting fun s => PersistedIn s.log j :=
  fun _ _ hg h => hg.persistedIn h

theorem lasting_wonPersisted (j : FinalizeJob) :
    (verdict env allowed).Lasting fun s => s.Won j ∧ PersistedIn s.log j :=
  (lasting_won j).and (lasting_persistedIn j)

/-- The operations that decide nothing, whatever the state. -/
def Op.indecisive : Op → Bool
  | putProgress p => !p.status.isTerminal
  | enqueue job _ => !job.isFinalize
  | persistSnapshot .. => false
  | logAlreadyDurable _ => false
  | releaseSession _ => false
  | _ => true

theorem effect_indecisive {d : Delivery} {s s' : SnapshotState} {o : Op}
    {r : Except PipelineError o.Ans} (ho : o.indecisive) (h : effect env d s o = some (r, s')) :
    Indecisive d s s' := by
  have same := Indecisive.refl d s
  cases o <;> simp only [Op.indecisive, Bool.false_eq_true] at ho <;>
    simp only [effect, Option.some.injEq, reduceCtorEq] at h
  case bindSnapshot b =>
    split at h <;> obtain ⟨-, rfl⟩ := Prod.mk.inj h
    · exact ⟨fun _ h => h, .inl rfl, .inl rfl⟩
    · exact same
  case putProgress p =>
    obtain ⟨-, rfl⟩ := Prod.mk.inj h
    have hp : p.status.isTerminal = false := by simpa using ho
    exact ⟨fun _ h => h, .inr ⟨p, rfl, hp⟩, .inr ⟨.progressPut p, rfl, hp, rfl⟩⟩
  case claimTerminal x =>
    split at h <;> obtain ⟨-, rfl⟩ := Prod.mk.inj h
    · exact same
    · rename_i hnone
      refine ⟨fun y hy => ?_, .inl rfl, .inr ⟨_, rfl, rfl, rfl⟩⟩
      rw [hnone] at hy
      cases hy
  case acquireLock =>
    split at h <;> obtain ⟨-, rfl⟩ := Prod.mk.inj h
    · exact same
    · exact ⟨fun _ h => h, .inl rfl, .inl rfl⟩
  case releaseLock =>
    obtain ⟨-, rfl⟩ := Prod.mk.inj h
    split
    · exact ⟨fun _ h => h, .inl rfl, .inl rfl⟩
    · exact same
  case enqueue job delayMs =>
    obtain ⟨-, rfl⟩ := Prod.mk.inj h
    refine ⟨fun _ h => h, .inl rfl, .inr ⟨.enqueued job, ?_, rfl, rfl⟩⟩
    cases job <;> first | rfl | cases ho
  -- Every other operation reads, or writes a record that the verdict does not depend on.
  all_goals
    obtain ⟨-, rfl⟩ := Prod.mk.inj h
    first
      | exact same
      | exact ⟨fun _ h => h, .inl rfl, .inl rfl⟩
      | exact ⟨fun _ h => h, .inl rfl, .inr ⟨_, rfl, rfl, rfl⟩⟩

theorem calm_indecisive {t : Delivery} {o : Op} (ho : o.indecisive) :
    (verdict env allowed).Calm t o := by
  intro s c r s' hi _ hp
  have h : Indecisive t s s' := by
    rcases perform_state hp with rfl | ⟨r', he⟩ | he
    · exact Indecisive.refl t _
    · exact effect_indecisive ho he
    · cases o <;> simp only [Op.indecisive, Bool.false_eq_true] at ho <;>
        simp only [attempted, Option.some.injEq, reduceCtorEq] at he <;>
        exact he ▸ Indecisive.refl t s
  exact verdict_keeps (VerdictInv.indecisive hi h) h.grows

theorem Op.indecisive_of_isRoutine {o : Op} (ho : o.isRoutine) : o.indecisive := by
  cases o <;> first | rfl | cases ho

/-! ### The decisive operations -/

variable {t : Delivery}

/-- Adding an event whose verdict has won. -/
theorem VerdictInv.note {s : SnapshotState} (hs : VerdictInv s) (d : Delivery) (e : Event)
    (hwon : ∀ j, e.verdict? = some j → s.Won j) (hrec : e.records = true → s.Persisted)
    (hdurable : DurableBefore (d, e) s.log) : VerdictInv (s.note d e) := by
  have hpersisted : s.Persisted → (s.note d e).Persisted := by
    rintro ⟨j, hj, q, os, hq⟩
    exact ⟨j, hj, q, os, List.mem_cons_of_mem _ hq⟩
  refine ⟨fun q e' j he hj => ?_, ⟨hdurable, hs.durable⟩, fun p hp ht => ?_, fun ⟨q, p, hp, ht⟩ => ?_⟩
  · rcases List.mem_cons.1 he with he | he
    · cases he
      exact hwon j hj
    · exact hs.won q e' j he hj
  · obtain ⟨q, p', hq, ht'⟩ := hs.progress p hp ht
    exact ⟨q, p', List.mem_cons_of_mem _ hq, ht'⟩
  · rcases List.mem_cons.1 hp with hp | hp
    · cases hp
      exact hpersisted (hrec ht)
    · exact hpersisted (hs.recorded ⟨q, p, hp, ht⟩)

theorem grows_note (s : SnapshotState) (d : Delivery) (e : Event) : VerdictGrows s (s.note d e) :=
  ⟨fun _ h => h, Extends.cons _ _⟩

/-- The rule for an operation that only the state settles and that is not calm. -/
theorem triple_decisive {o : Op} {P Q : SnapshotState → Prop}
    (hP : (verdict env allowed).Lasting P) (hQ : (verdict env allowed).Lasting Q)
    (hanswer : ∀ c, answer env o c = none)
    (heffect : ∀ s r s', VerdictInv s → P s → effect env t s o = some (r, s') →
      VerdictInv s' ∧ VerdictGrows s s' ∧ Q s')
    (hattempted : ∀ s s', VerdictInv s → P s → attempted t s o = some s' →
      VerdictInv s' ∧ VerdictGrows s s') :
    (verdict env allowed).Triple t P (await o) (fun _ => Q) (fun _ _ => True) := by
  refine triple_effect (hP.stable t) (fun _ => hQ.stable t) hanswer (fun s r s' hi _ hs he => ?_)
    fun s s' hi _ hs he => ?_
  · obtain ⟨hi', hg, hq⟩ := heffect s r s' hi hs he
    exact ⟨verdict_keeps hi' hg, fun _ _ => hq⟩
  · obtain ⟨hi', hg⟩ := hattempted s s' hi hs he
    exact verdict_keeps hi' hg

theorem triple_enqueueFinalize (j : FinalizeJob) (delayMs : ℕ) :
    (verdict env allowed).Triple t (fun s => s.Won j) (deps.enqueue (.finalize j) delayMs)
      (fun _ _ => True) (fun _ _ => True) := by
  refine triple_decisive (lasting_won j) (Contract.lasting_pure True) (fun c => by cases c <;> rfl)
    (fun s r s' hi hs he => ?_) fun s s' hi _ he => ?_
  · obtain ⟨-, rfl⟩ := Prod.mk.inj (Option.some.inj he)
    refine ⟨?_, ⟨fun _ h => h, Extends.cons _ _⟩, trivial⟩
    have hentries : Indecisive t s { s with entries := addEntry s.entries (.finalize j) } :=
      ⟨fun _ h => h, .inl rfl, .inl rfl⟩
    refine (hi.indecisive hentries).note t _ (fun j' hj => ?_) (fun h => by cases h) trivial
    cases hj
    exact hs
  · cases he
    exact ⟨hi, VerdictGrows.refl s⟩

theorem triple_persistSnapshot (j : FinalizeJob) (os : List ReleaseExtractionOutcome) :
    (verdict env allowed).Triple t (fun s => s.Won j) (deps.persistSnapshot j os)
      (fun _ s => PersistedIn s.log j) (fun _ _ => True) := by
  have hcalled : ∀ s, VerdictInv s → s.Won j → VerdictInv (s.note t (.persistCalled j os)) := by
    intro s hi hs
    refine hi.note t _ (fun j' hj => ?_) (fun h => by cases h) trivial
    cases hj
    exact hs
  refine triple_decisive (lasting_won j) (lasting_persistedIn j) (fun c => by cases c <;> rfl)
    (fun s r s' hi hs he => ?_) fun s s' hi hs he => ?_
  · obtain ⟨-, rfl⟩ := Prod.mk.inj (Option.some.inj he)
    refine ⟨?_, (grows_note s _ _).trans (grows_note _ _ _), t, os, List.mem_cons_self⟩
    exact (hcalled s hi hs).indecisive
      ⟨fun _ h => h, .inl rfl, .inr ⟨_, rfl, rfl, rfl⟩⟩
  · cases he
    exact ⟨hcalled s hi hs, grows_note s _ _⟩

/-- The finalizer's two claims that the verdict is durable. -/
theorem triple_logAlreadyDurable (j : FinalizeJob) :
    (verdict env allowed).Triple t (fun s => s.Won j ∧ PersistedIn s.log j)
      (deps.logAlreadyDurable j) (fun _ s => s.Won j ∧ PersistedIn s.log j)
      (fun _ _ => True) := by
  refine triple_decisive (lasting_wonPersisted j) (lasting_wonPersisted j) (fun c => by cases c <;> rfl)
    (fun s r s' hi hs he => ?_) fun s s' hi _ he => ?_
  · obtain ⟨-, rfl⟩ := Prod.mk.inj (Option.some.inj he)
    have hg := grows_note s t (.alreadyDurable j)
    refine ⟨hi.note t _ (fun j' hj => ?_) (fun h => by cases h) hs.2, hg, hg.won hs.1, hg.persistedIn hs.2⟩
    cases hj
    exact hs.1
  · cases he
    exact ⟨hi, VerdictGrows.refl s⟩

theorem triple_releaseSession (j : FinalizeJob) :
    (verdict env allowed).Triple t (fun s => s.Won j ∧ PersistedIn s.log j)
      (deps.releaseSession j) (fun _ _ => True) (fun _ _ => True) := by
  refine triple_decisive (lasting_wonPersisted j) (Contract.lasting_pure True)
    (fun c => by cases c <;> rfl) (fun s r s' hi hs he => ?_) fun s s' hi _ he => ?_
  · obtain ⟨-, rfl⟩ := Prod.mk.inj (Option.some.inj he)
    refine ⟨hi.note t _ (fun j' hj => ?_) (fun h => by cases h) hs.2, grows_note s _ _, trivial⟩
    cases hj
    exact hs.1
  · cases he
    exact ⟨hi, VerdictGrows.refl s⟩

/-- A terminal progress row is written by a finalizer that has persisted the verdict, or
where one has been written before. -/
theorem triple_putProgress (p : SnapshotProgress) :
    (verdict env allowed).Triple t
      (fun s => p.status.isTerminal = true → (t.isFinalizer = true ∧ s.Persisted) ∨ RecordedIn s.log)
      (store.putProgress p) (fun _ _ => True) (fun _ _ => True) := by
  have hlast : (verdict env allowed).Lasting fun s =>
      p.status.isTerminal = true → (t.isFinalizer = true ∧ s.Persisted) ∨ RecordedIn s.log :=
    Contract.lasting_imp fun s s' hg h => h.imp (fun h => ⟨h.1, hg.persisted h.2⟩) hg.recordedIn
  refine triple_decisive hlast (Contract.lasting_pure True)
    (fun c => by cases c <;> rfl) (fun s r s' hi hs he => ?_) fun s s' hi _ he => ?_
  · obtain ⟨-, rfl⟩ := Prod.mk.inj (Option.some.inj he)
    have hi' : VerdictInv (s.note t (.progressPut p)) := by
      refine hi.note t _ (fun _ h => by cases h) (fun ht => ?_) fun ht => ?_
      · exact (hs ht).elim (·.2) hi.recorded
      · exact (hs ht).imp (·.1) id
    refine ⟨⟨hi'.won, hi'.durable, fun q hq ht => ?_, hi'.recorded⟩,
      ⟨fun _ h => h, Extends.cons _ _⟩, trivial⟩
    cases hq
    exact ⟨t, p, List.mem_cons_self, ht⟩
  · cases he
    exact ⟨hi, VerdictGrows.refl s⟩

/-- A terminal progress row that was read has been recorded. -/
theorem triple_getProgress {P : SnapshotState → Prop} (hP : (verdict env allowed).Lasting P) :
    (verdict env allowed).Triple t P store.getProgress
      (fun r s => P s ∧ ∀ p, r = some p → p.status.isTerminal = true → RecordedIn s.log)
      (fun _ _ => True) := by
  refine triple_readState failing_true hP rfl (fun c => by cases c <;> rfl) (fun a => ?_)
    fun s a s' hi he p hp => ?_
  · exact Contract.lasting_forall fun p => Contract.lasting_imp <| Contract.lasting_imp
      fun s s' hg h => hg.recordedIn h
  · have ha := Except.ok.inj (Prod.mk.inj (Option.some.inj he)).1
    exact hi.progress p (ha.trans hp)

/-! ### The stages -/

/-- The program keeps the contract of the verdict, from any state and to any end. -/
def Upholds (env : Env) (allowed : SnapshotState → Work → Bool) (t : Delivery) {α : Type}
    (p : Pipe α) : Prop :=
  (verdict env allowed).Triple t (fun _ => True) p (fun _ _ => True) (fun _ _ => True)

theorem upholds_await {o : Op} (ho : o.indecisive) : Upholds env allowed t (await o) :=
  Contract.triple_of_calm (Prog.calls_call (calm_indecisive ho))

/-- The stages uphold the verdict wherever their awaits decide nothing. -/
theorem upholds : StageProperty fun {α} (p : Pipe α) => Upholds env allowed t p where
  toCompositional := Contract.compositional_triple ((Contract.lasting_pure True).stable t)
  routine ho := upholds_await (Op.indecisive_of_isRoutine ho)

/-- Claiming answers the one stored tombstone. -/
theorem triple_claimTerminal (x : SnapshotTerminalTombstone) :
    (verdict env allowed).Triple t (fun _ => True) (store.claimTerminal x)
      (fun winning s => s.terminal = some winning) (fun _ _ => True) := by
  refine Contract.triple_call ((Contract.lasting_pure True).stable t) (fun r => ?_)
    fun s c r s' hi hown _ hp => ?_
  · cases r with
    | ok a => exact (lasting_terminal a).stable t
    | error e => exact ((verdict env allowed).lasting_pure True).stable t
  · refine ⟨calm_indecisive rfl s c r s' hi hown hp, ?_⟩
    cases r with
    | error e => trivial
    | ok winning =>
      rcases perform_cases hp with he | ⟨_, _, _, _, he⟩ | ⟨_, _, _, he⟩ | ⟨_, c', he, _, _⟩
      · simp only [effect, Option.some.injEq] at he
        split at he <;> obtain ⟨ha, rfl⟩ := Prod.mk.inj he <;> cases ha
        · assumption
        · rfl
      · cases he
      · cases he
      · cases c' <;> cases he

theorem upholds_enqueueWinning {j : FinalizeJob} {createdAt : String} {reason : Option String}
    (delayMs : ℕ) :
    (verdict env allowed).Triple t (fun s => s.terminal = some (.terminal j createdAt reason))
      (deps.enqueue (.finalize j) delayMs) (fun _ _ => True) (fun _ _ => True) :=
  (triple_enqueueFinalize j delayMs).pre fun _ _ h => ⟨createdAt, reason, h⟩

theorem upholdsVerdict : VerdictProperty fun {α} (p : Pipe α) => Upholds env allowed t p :=
  verdictProperty_abides lasting_terminal (fun _ _ _ => upholds_enqueueWinning 0) upholds

theorem claims_upholds (x : SnapshotTerminalTombstone) : Claims (Upholds env allowed t) x :=
  fun hf => (triple_claimTerminal x).bind
    (triple_handsOver lasting_terminal (fun _ _ _ => upholds_enqueueWinning 0) hf)

theorem upholds_resume (job : SnapshotRef) : Upholds env allowed t (resumeTerminalFinalizer job) :=
  upholdsVerdict.resume (upholds).bindCheckpoint

theorem upholds_catalogIndex (job : CatalogIndexJob) :
    Upholds env allowed t (extractDistroKidCatalogIndex env job) := by
  refine (upholds).unlessTerminal (upholds_resume _) ((upholds).withAccountLock ((upholds).raise _) ?_)
  refine (upholds).catalogIndexWork (upholds_await rfl) (fun _ => upholds_await rfl) (fun p hp => upholds_await ?_)
    fun _ _ _ => upholds_await rfl
  simp [Op.indecisive, hp, ProgressStatus.isTerminal]

theorem upholds_plan (job : PlanChunksJob) :
    Upholds env allowed t (planDistroKidReleaseChunks env job) := by
  refine (upholds).unlessTerminal (upholds_resume _) ((upholds).planChunks (fun _ => upholds_await rfl)
    (fun _ => (upholds).markRunning fun p hp => upholds_await ?_) (fun _ _ _ => upholds_await rfl)
    fun _ _ _ => upholds_await rfl)
  simp [Op.indecisive, hp, ProgressStatus.isTerminal]

/-- The chunk stage copies the status of the row that it read, which is terminal only
when that has been recorded. -/
theorem upholds_recordChunkProgress (job : ReleaseChunkJob) (done : List ℕ)
    (progress : Option SnapshotProgress) :
    (verdict env allowed).Triple t
      (fun s => ∀ p, progress = some p → p.status.isTerminal = true → RecordedIn s.log)
      (recordChunkProgress env job done progress) (fun _ _ => True) (fun _ _ => True) := by
  cases progress with
  | none => exact ((upholds).ret ()).pre fun _ _ _ => trivial
  | some p =>
    have hlast : (verdict env allowed).Lasting fun s =>
        ∀ q, some p = some q → q.status.isTerminal = true → RecordedIn s.log :=
      Contract.lasting_forall fun q => Contract.lasting_imp <| Contract.lasting_imp
        fun s s' hg h => hg.recordedIn h
    refine (triple_await failing_true hlast (calm_indecisive rfl)).bind fun all =>
      (triple_assertCanContinue failing_true hlast lasting_terminal _).bind fun _ =>
      (triple_read failing_true hlast rfl).bind fun updatedAt => ?_
    exact (triple_putProgress _).pre fun s _ h ht => .inr (h p rfl ht)

theorem upholds_chunkWork (pid : ℕ) (job : ReleaseChunkJob) :
    Upholds env allowed t (chunkWork env pid job) := by
  have hcheck : Upholds env allowed t (assertCanContinue env job.toSnapshotRef) :=
    (upholds).assertCanContinue _
  refine (upholds).bind (upholds_await rfl) fun index => (upholds).bind (upholds_await rfl) fun existing =>
    (upholds).bind (upholds_await rfl) fun _ => (upholds).bind (upholds_await rfl) fun extracted =>
    (upholds).bind hcheck fun _ => (upholds).bind (upholds_await rfl) fun outcomes =>
    (upholds).bind (upholds_await rfl) fun _ => (upholds).bind hcheck fun _ =>
    (upholds).bind (upholds_await rfl) fun _ => (upholds).bind (upholds_await rfl) fun done => ?_
  refine (triple_getProgress (Contract.lasting_pure True)).bind fun progress => ?_
  refine ((upholds_recordChunkProgress job done progress).pre fun _ _ h => h.2).bind fun _ => ?_
  exact (upholds).bind ((upholds).chainNext (fun _ _ _ => upholds_await rfl) fun _ _ _ => upholds_await rfl)
    fun _ => (upholds).ret _

theorem upholds_chunk (pid : ℕ) (job : ReleaseChunkJob) :
    Upholds env allowed t (extractDistroKidReleaseChunk env pid job) :=
  (upholds).unlessTerminal (upholds_resume _) <| (upholds).withAccountLock
    ((upholds).deferChunk fun _ _ _ => upholds_await rfl) (upholds_chunkWork pid job)

theorem upholds_retry (job : RetryFailedJob) :
    Upholds env allowed t (retryFailedDistroKidReleases env job) :=
  (upholds).unlessTerminal (upholds_resume _) <| (upholds).retryFailed (fun _ => upholds_await rfl)
    (fun _ _ _ => upholds_await rfl) fun _ _ _ => upholds_await rfl

theorem upholds_reconcile (job : ReconcileJob) :
    Upholds env allowed t (reconcileDistroKidSnapshot env job) :=
  upholdsVerdict.reconcile (upholds).bindCheckpoint (fun _ _ _ => upholds_await rfl)
    fun _ _ => claims_upholds _

theorem upholds_terminalize (job : StageJob) (stage : String) (error : PipelineError) :
    Upholds env allowed t (terminalizeDistroKidFailure job stage error) :=
  upholdsVerdict.terminalize (upholds).bindCheckpoint fun _ _ _ => claims_upholds _

theorem upholds_cancel (job : SnapshotRef) (reason : String) :
    Upholds env allowed t (cancelDistroKidSnapshot job reason) :=
  (upholds_await rfl).bind fun _ => (upholds_await rfl).bind fun _ => upholds_await rfl

/-- The finalizer persists and records the tombstone's own verdict. -/
theorem upholds_persistVerdict (ht : t.isFinalizer = true) (j : FinalizeJob)
    (progress : Option SnapshotProgress) :
    (verdict env allowed).Triple t (fun s => s.Won j) (persistVerdict j progress)
      (fun _ s => s.Won j ∧ PersistedIn s.log j) (fun _ _ => True) := by
  refine (triple_await failing_true (lasting_won j) (calm_indecisive rfl)).bind fun outcomes =>
    ((triple_persistSnapshot j outcomes).andThen (lasting_won j)) fun _ => ?_
  refine Contract.Triple.pre (?_ : Contract.Triple _ t (fun s => s.Won j ∧ PersistedIn s.log j) _ _ _)
    fun _ _ h => ⟨h.2, h.1⟩
  refine (triple_read failing_true (lasting_wonPersisted j) rfl).bind fun startedAt =>
    (triple_read failing_true (lasting_wonPersisted j) rfl).bind fun updatedAt => ?_
  refine ((triple_putProgress (finalProgress progress j startedAt updatedAt)).frame
    (lasting_wonPersisted j)).consequence (fun s _ h => ⟨fun _ => .inl ⟨ht, j, h⟩, h⟩)
    (fun _ _ _ h => h.2) fun _ _ _ _ => trivial

theorem upholds_finalize (ht : t.isFinalizer = true) (job : FinalizeJob) :
    Upholds env allowed t (finalizeDistroKidSnapshot job) := by
  refine (upholds_await rfl).bind fun _ => (upholds_await rfl).bind fun createdAt =>
    (triple_claimTerminal _).bind fun winning => ?_
  rcases winning with ⟨j, createdAt', reason⟩ | ⟨createdAt', reason⟩
  · refine Contract.Triple.pre (?_ : Contract.Triple _ t (fun s => s.Won j) _ _ _)
      fun _ _ h => ⟨createdAt', reason, h⟩
    refine (triple_getProgress (lasting_won j)).bind fun progress => ?_
    refine Contract.Triple.bind (Q := fun _ s => s.Won j ∧ PersistedIn s.log j) ?_ fun _ =>
      triple_releaseSession j
    split
    · rename_i hskip
      refine (triple_logAlreadyDurable j).pre fun s hi h => ⟨h.1, ?_⟩
      simp only [alreadyPersisted, Option.any_eq_true] at hskip
      obtain ⟨p, hp, hsame⟩ := hskip
      have hterminal : p.status.isTerminal = true := by
        rw [(of_decide_eq_true hsame).2.2.2.1]
        rfl
      obtain ⟨j', hj', hpersisted⟩ := hi.recorded (h.2 p hp hterminal)
      exact h.1.unique hj' ▸ hpersisted
    · exact (upholds_persistVerdict ht j progress).pre fun _ _ h => h.1
  · exact ((upholds).ret _).pre fun _ _ _ => trivial

/-! ### What runs the stages -/

theorem upholds_processor (pid : ℕ) (job : StageJob)
    (ht : job.isFinalize = true → t.isFinalizer = true) :
    Upholds env allowed t (processor env pid job) := by
  cases job with
  | index job => exact (upholds).discard (upholds_catalogIndex job)
  | plan job => exact (upholds).discard (upholds_plan job)
  | chunk job => exact (upholds).discard (upholds_chunk pid job)
  | retry job => exact (upholds).discard (upholds_retry job)
  | reconcile job => exact (upholds).discard (upholds_reconcile job)
  | finalize job => exact upholds_finalize (ht rfl) job

theorem upholds_recoverSnapshot (job : CatalogIndexJob) :
    Upholds env allowed t (recoverSnapshot env job) :=
  upholdsVerdict.recoverSnapshot (upholds).bindCheckpoint (fun _ => upholds_await rfl)
    (fun j _ => upholds_plan j) fun _ _ => upholds_terminalize _ _ _

theorem upholds_code (d : Delivery) : Upholds env allowed d (code env d) := by
  refine (upholds).code upholds_resume (fun job hjob => upholds_processor d.pid job fun hfinal => ?_)
    upholds_terminalize (fun job reason _ => upholds_cancel job reason)
    (fun job _ => (upholds).settle ((upholds).discard (upholds_recoverSnapshot job)))
    (fun _ _ _ _ => (upholds).onCheckpoint (fun _ => upholds_await rfl) fun _ => upholds_await rfl)
    fun _ _ => upholds_await rfl
  rw [Delivery.isFinalizer_eq, hjob]
  exact hfinal

theorem verdict_sound : (verdict env allowed).Sound := by
  refine ⟨fun s ts d s' hi _ h => ?_, fun s d r hi _ _ => ?_, fun s d hi _ => ?_,
    fun s c s' hi h => ?_⟩
  · simp only [pipelineSystem, anyOrder] at h
    split at h
    · cases h
      have hsame : Indecisive d s { s with nextPid := s.nextPid + 1 } :=
        ⟨fun _ h => h, .inl rfl, .inl rfl⟩
      have hi' := VerdictInv.indecisive hi hsame
      refine ⟨hi', hsame.grows, trivial, (upholds_code d _ hi' trivial trivial).mono fun _ _ _ _ => trivial,
        fun u _ => ⟨trivial, trivial, hsame.grows⟩⟩
    · cases h
  · exact ⟨hi, VerdictGrows.refl s, fun _ _ => VerdictGrows.refl s⟩
  · exact ⟨hi, VerdictGrows.refl s, fun _ _ => VerdictGrows.refl s⟩
  · cases c <;> cases h
    have hsame : Indecisive ⟨0, .sweepFailed⟩ s { s with lock := none } := ⟨fun _ h => h, .inl rfl, .inl rfl⟩
    exact ⟨VerdictInv.indecisive hi hsame, hsame.grows, fun _ => hsame.grows⟩

theorem verdict_valid {s : SnapshotState} (hs : s.Fresh) {w : SnapshotWorld}
    (h : (pipelineSystem env (anyOrder allowed)).Reaches (World.idle s) w) :
    (verdict env allowed).Valid w :=
  (Contract.valid_idle (VerdictInv.fresh hs)).reaches verdict_sound h

/-! ### Results -/

/-- One immutable verdict: the tombstone never changes, every enqueued finalizer and every
persistence belongs to it, and a cancelled snapshot is never persisted. -/
theorem one_verdict {s : SnapshotState} (hs : s.Fresh) {w : SnapshotWorld}
    (h : (pipelineSystem env (anyOrder allowed)).Reaches (World.idle s) w) :
    (∀ x, w.state.terminal = some x →
      ∀ w', (pipelineSystem env (anyOrder allowed)).Reaches w w' → w'.state.terminal = some x) ∧
    (∀ d j, (d, Event.enqueued (.finalize j)) ∈ w.state.log → w.state.Won j) ∧
    (∀ d j os, (d, Event.persistCalled j os) ∈ w.state.log → w.state.Won j) ∧
    (∀ createdAt reason, w.state.terminal = some (.cancelled createdAt reason) →
      ∀ d j os, (d, Event.persistCalled j os) ∉ w.state.log) := by
  have hw := verdict_valid hs h
  refine ⟨fun x hx w' h' => ?_, fun pid j he => ?_, fun pid j os he => ?_,
    fun createdAt reason hc pid j os hp => ?_⟩
  · exact hw.lasting verdict_sound h' (lasting_terminal x) hx
  · exact hw.inv.won pid _ j he rfl
  · exact hw.inv.won pid _ j he rfl
  · obtain ⟨createdAt', reason', hj⟩ := hw.inv.won pid _ j hp rfl
    rw [hc] at hj
    cases hj

def sampleFinalize (status : SnapshotStatus) : FinalizeJob :=
  { toSnapshotRef := sampleRef, status := status
    completeness := reconcileCompleteness ⟨[], [], none⟩, pass := some 1 }

theorem fresh_empty : SnapshotState.empty.Fresh := ⟨rfl, rfl, fun _ h => by cases h⟩

/-- A cancellation, then a finalizer that was already on its way. -/
def cancelledRun : { ms // ∃ w ∈ (pipelineSystem sampleEnv (anyOrder anyWork)).run (World.idle .empty) ms,
    w.state.terminal = some (.cancelled "t0" "operator") } :=
  ⟨.start ⟨0, .cancel sampleRef "operator"⟩ :: awaits 0 [.done, .stamp "t0", .done] ++
    .settle 0 :: .start ⟨1, .stage (.finalize (sampleFinalize .complete))⟩ ::
    (awaits 0 [.done, .stamp "t1", .done]).concat (.settle 0), by decide +kernel⟩

theorem one_verdict_cancelled : ∃ w,
    (pipelineSystem sampleEnv (anyOrder anyWork)).Reaches (World.idle .empty) w ∧
      w.state.terminal = some (.cancelled "t0" "operator") ∧
      ∀ d j os, (d, Event.persistCalled j os) ∉ w.state.log := by
  obtain ⟨ms, w, hw, hc⟩ := cancelledRun
  exact ⟨w, ⟨ms, hw⟩, hc, (one_verdict fresh_empty ⟨ms, hw⟩).2.2.2 "t0" "operator" hc⟩

/-- The finalizer skips the persistence, and releases the session, only after one that
carried the winning verdict has succeeded. -/
theorem skip_is_sound {s : SnapshotState} (hs : s.Fresh) {w : SnapshotWorld}
    (h : (pipelineSystem env (anyOrder allowed)).Reaches (World.idle s) w)
    {later earlier : List (Delivery × Event)} {d : Delivery} {e : Event} {j : FinalizeJob}
    (he : e = .alreadyDurable j ∨ e = .sessionReleased j)
    (hlog : w.state.log = later ++ (d, e) :: earlier) :
    w.state.Won j ∧ ∃ d' os, (d', Event.persisted j os) ∈ earlier := by
  have hi := (verdict_valid hs h).inv
  have hmem : (d, e) ∈ w.state.log := hlog ▸ List.mem_append_right _ List.mem_cons_self
  have hbefore : DurableBefore (d, e) earlier := (hlog ▸ hi.durable).at
  rcases he with rfl | rfl
  · exact ⟨hi.won d _ j hmem rfl, hbefore⟩
  · exact ⟨hi.won d _ j hmem rfl, hbefore⟩

/-- A finalizer that crashes after its progress row, and its redelivery. No two programs
run at once, and the session is released in the end. -/
def redeliveredRun : { ms // (pipelineSystem sampleEnv (anyOrder anyWork)).Along
      (fun w _ _ => w.procs.length ≤ 1) (World.idle .empty) ms ∧
    ∃ w ∈ (pipelineSystem sampleEnv (anyOrder anyWork)).run (World.idle .empty) ms,
      w.state.log = (⟨1, .stage (.finalize (sampleFinalize .complete))⟩,
        .sessionReleased (sampleFinalize .complete)) :: w.state.log.tail ∧
      (⟨0, .stage (.finalize (sampleFinalize .complete))⟩,
        .progressPut (finalProgress none (sampleFinalize .complete) "t1" "t2")) ∈ w.state.log } :=
  ⟨.start ⟨0, .stage (.finalize (sampleFinalize .complete))⟩ ::
    awaits 0 [.done, .stamp "t0", .done, .done, .done, .done, .stamp "t1", .stamp "t2", .done] ++
    .crash 0 :: .start ⟨1, .stage (.finalize (sampleFinalize .complete))⟩ ::
    (awaits 0 [.done, .stamp "t3", .done, .done, .done, .done]).concat (.settle 0), by decide +kernel⟩

theorem skip_is_sound_redelivered : ∃ w,
    (pipelineSystem sampleEnv (anyOrder anyWork)).Reaches (World.idle .empty) w ∧
      ∃ d os, (d, Event.persisted (sampleFinalize .complete) os) ∈ w.state.log.tail := by
  obtain ⟨ms, -, w, hw, hlog, -⟩ := redeliveredRun
  exact ⟨w, ⟨ms, hw⟩, (skip_is_sound fresh_empty ⟨ms, hw⟩ (.inr rfl)
    (hlog.trans (List.nil_append _).symm)).2⟩

end CatalogSentinel.Distrokid
