import CatalogSentinel.Distrokid.Rules

/-!
Whether a verdict describes what is persisted under it. The stage whose tombstone
wins computes the completeness from the outcomes that it has read; the finalizer
reads the outcomes again. The persisted outcomes are the ones that the verdict
was computed from as long as the finalizer finds them in the store.
-/

namespace CatalogSentinel.Distrokid

open CatalogSentinel.Data CatalogSentinel.Concurrent

/-- The completeness that the outcomes reconcile to, up to one counted failure code. -/
def Describes (index : List ReleaseRefRecord) (outcomes : List ReleaseExtractionOutcome)
    (c : ExtractionCompleteness) : Prop :=
  c = (reconcileCheckpoint index outcomes).1 ∨ ∃ code, c = failedCompleteness index outcomes code

/-- What the process has read last. -/
def lastRead (d : Delivery) : List (Delivery × Event) → Option (List ReleaseExtractionOutcome)
  | [] => none
  | (d', .outcomesRead os) :: past => if d' = d then some os else lastRead d past
  | _ :: past => lastRead d past

/-- What the process that claimed the tombstone had read last. -/
def verdictRead : List (Delivery × Event) → Option (List ReleaseExtractionOutcome)
  | [] => none
  | (d, .claimed _) :: past => lastRead d past
  | _ :: past => verdictRead past

theorem lastRead_append {d : Delivery} {new past : List (Delivery × Event)}
    (h : ∀ x ∈ new, x.1 ≠ d) : lastRead d (new ++ past) = lastRead d past := by
  induction new with
  | nil => rfl
  | cons x new ih =>
    have ih := ih fun y hy => h y (List.mem_cons_of_mem x hy)
    have hx := h x List.mem_cons_self
    obtain ⟨d', e⟩ := x
    cases e with
    | outcomesRead os => rw [List.cons_append, lastRead, if_neg hx, ih]
    | _ => exact ih

theorem verdictRead_append {new past : List (Delivery × Event)}
    (h : ∀ x ∈ new, ∀ t, x.2 ≠ .claimed t) : verdictRead (new ++ past) = verdictRead past := by
  induction new with
  | nil => rfl
  | cons x new ih =>
    have ih := ih fun y hy => h y (List.mem_cons_of_mem x hy)
    have hx := h x List.mem_cons_self
    obtain ⟨d, e⟩ := x
    cases e with
    | claimed t => exact absurd rfl (hx t)
    | _ => exact ih

theorem claimed_of_verdictRead {log : List (Delivery × Event)} {os : List ReleaseExtractionOutcome}
    (h : verdictRead log = some os) : ∃ d t, (d, .claimed t) ∈ log := by
  induction log with
  | nil => cases h
  | cons x log ih =>
    have later : verdictRead log = some os → ∃ d t, (d, .claimed t) ∈ x :: log := fun h => by
      obtain ⟨d, t, hm⟩ := ih h
      exact ⟨d, t, List.mem_cons_of_mem x hm⟩
    obtain ⟨d, e⟩ := x
    cases e with
    | claimed t => exact ⟨d, t, List.mem_cons_self⟩
    | _ => exact later h

/-! ### The contract -/

/-- The catalogue index has been read for good, and finalizers are enqueued before they run. -/
def AfterIndex (allowed : SnapshotState → Work → Bool) : Prop :=
  ∀ s work job, allowed s work = true → work.job? = some job → (∀ j, job ≠ .index j) ∧
    ∀ j, job = .finalize j → ∃ d, (d, .enqueued (.finalize j)) ∈ s.log

structure DescribeInv (catalogue : List ReleaseRefRecord) (s : SnapshotState) : Prop where
  index : s.index = catalogue
  verdict : ∀ j createdAt reason, s.terminal = some (.terminal j createdAt reason) →
    ∃ os, verdictRead s.log = some os ∧ Describes catalogue os j.completeness
  claimed : ∀ d x, (d, .claimed x) ∈ s.log → s.terminal.isSome = true
  enqueued : ∀ d j, (d, .enqueued (.finalize j)) ∈ s.log → s.terminal.isSome = true
  persisted : ∀ d j os, (d, .persistCalled j os) ∈ s.log → d.isFinalizer = true ∧
    (∃ createdAt reason, s.terminal = some (.terminal j createdAt reason)) ∧
    (d, .outcomesRead os) ∈ s.log

/-- The tombstone stays, and with it what its verdict was read from. -/
structure DescribeGrows (s s' : SnapshotState) : Prop where
  terminal : ∀ x, s.terminal = some x → s'.terminal = some x
  log : ∃ new, s'.log = new ++ s.log ∧
    (s.terminal.isSome = true → ∀ x ∈ new, ∀ t, x.2 ≠ .claimed t)
  nextPid : s.nextPid ≤ s'.nextPid

/-- The others log under their own names. -/
structure DescribeRely (t : Delivery) (s s' : SnapshotState) : Prop extends DescribeGrows s s' where
  foreign : ∃ new, s'.log = new ++ s.log ∧ ∀ x ∈ new, x.1 ≠ t

structure DescribeOwn (t : Delivery) (s : SnapshotState) : Prop where
  pid : t.pid < s.nextPid
  work : ∀ j, t.work.job? ≠ some (.index j)
  decided : t.isFinalizer = true → s.terminal.isSome = true

theorem DescribeGrows.decided {s s' : SnapshotState} (h : DescribeGrows s s')
    (hs : s.terminal.isSome = true) : s'.terminal.isSome = true := by
  obtain ⟨x, hx⟩ := Option.isSome_iff_exists.1 hs
  exact Option.isSome_iff_exists.2 ⟨x, h.terminal x hx⟩

theorem DescribeGrows.mem {s s' : SnapshotState} (h : DescribeGrows s s') {x : Delivery × Event}
    (hx : x ∈ s.log) : x ∈ s'.log := by
  obtain ⟨new, hlog, -⟩ := h.log
  rw [hlog]
  exact List.mem_append_right _ hx

theorem DescribeGrows.verdictRead {s s' : SnapshotState} (h : DescribeGrows s s')
    (hs : s.terminal.isSome = true) : verdictRead s'.log = verdictRead s.log := by
  obtain ⟨new, hlog, hnew⟩ := h.log
  rw [hlog, verdictRead_append (hnew hs)]

theorem DescribeGrows.refl (s : SnapshotState) : DescribeGrows s s :=
  ⟨fun _ h => h, ⟨[], rfl, fun _ _ h => by cases h⟩, le_refl _⟩

theorem DescribeGrows.trans {a b c : SnapshotState} (h : DescribeGrows a b)
    (h' : DescribeGrows b c) : DescribeGrows a c := by
  obtain ⟨new, hlog, hnew⟩ := h.log
  obtain ⟨new', hlog', hnew'⟩ := h'.log
  refine ⟨fun x hx => h'.terminal x (h.terminal x hx), ⟨new' ++ new, ?_, fun ha x hx => ?_⟩,
    h.nextPid.trans h'.nextPid⟩
  · rw [hlog', hlog, List.append_assoc]
  · exact (List.mem_append.1 hx).elim (hnew' (h.decided ha) x) (hnew ha x)

theorem DescribeRely.refl (t : Delivery) (s : SnapshotState) : DescribeRely t s s :=
  ⟨DescribeGrows.refl s, [], rfl, fun _ h => by cases h⟩

theorem DescribeRely.trans {t : Delivery} {a b c : SnapshotState} (h : DescribeRely t a b)
    (h' : DescribeRely t b c) : DescribeRely t a c := by
  obtain ⟨new, hlog, hnew⟩ := h.foreign
  obtain ⟨new', hlog', hnew'⟩ := h'.foreign
  refine ⟨h.toDescribeGrows.trans h'.toDescribeGrows, new' ++ new, ?_, fun x hx => ?_⟩
  · rw [hlog', hlog, List.append_assoc]
  · exact (List.mem_append.1 hx).elim (hnew' x) (hnew x)

variable {env : Env} {allowed : SnapshotState → Work → Bool} {catalogue : List ReleaseRefRecord}
  {t : Delivery}

def describing (env : Env) (allowed : SnapshotState → Work → Bool)
    (catalogue : List ReleaseRefRecord) : Contract (pipelineSystem env (anyOrder allowed)) where
  inv := DescribeInv catalogue
  own := DescribeOwn
  rely := DescribeRely
  grows := DescribeGrows
  apart t u := t ≠ u
  post _ _ _ := True
  rely_refl := DescribeRely.refl
  rely_trans _ _ _ _ := DescribeRely.trans
  rely_grows _ _ _ h := h.toDescribeGrows
  rely_own _ _ _ h _ ho := ⟨ho.pid.trans_le h.nextPid, ho.work, fun ht => h.decided (ho.decided ht)⟩

theorem lasting_tombstone (x : SnapshotTerminalTombstone) :
    (describing env allowed catalogue).Lasting fun s => s.terminal = some x :=
  fun _ _ hg h => hg.terminal x h

theorem lasting_logged (x : Delivery × Event) :
    (describing env allowed catalogue).Lasting fun s => x ∈ s.log := fun _ _ hg h => hg.mem h

/-- What a process has read last stays so while the others run. -/
theorem stable_lastRead (os : List ReleaseExtractionOutcome) :
    (describing env allowed catalogue).Stable t fun s => lastRead t s.log = some os := by
  intro s s' hr _ h
  obtain ⟨new, hlog, hnew⟩ := hr.foreign
  rw [hlog, lastRead_append hnew]
  exact h

/-- A step of `t` that logs under its own name and keeps the tombstone. -/
theorem describing_keeps {s s' : SnapshotState} (ho : DescribeOwn t s) (hi : DescribeInv catalogue s')
    (hterminal : ∀ x, s.terminal = some x → s'.terminal = some x) {E : List Event}
    (hlog : s'.log = E.map (Prod.mk t) ++ s.log)
    (hes : s.terminal.isSome = true → ∀ x, .claimed x ∉ E) (hpid : s'.nextPid = s.nextPid) :
    (describing env allowed catalogue).Keeps t s s' := by
  have hg : DescribeGrows s s' := by
    refine ⟨hterminal, ⟨_, hlog, fun hs x hx y hy => ?_⟩, hpid.ge⟩
    obtain ⟨e, he, rfl⟩ := List.mem_map.1 hx
    exact hes hs y (by rwa [← hy])
  refine ⟨hi, ⟨hpid ▸ ho.pid, ho.work, fun ht => hg.decided (ho.decided ht)⟩, hg, fun u hu => ?_⟩
  refine ⟨hg, _, hlog, fun x hx => ?_⟩
  obtain ⟨e, -, rfl⟩ := List.mem_map.1 hx
  exact hu

/-- Events that say nothing of a verdict. -/
def Event.silent : Event → Bool
  | claimed _ => false
  | enqueued job => !job.isFinalize
  | persistCalled .. => false
  | _ => true

/-- The operations that neither write the index nor decide or carry out a verdict. -/
def Op.silent : Op → Bool
  | putIndex _ => false
  | claimTerminal _ => false
  | enqueue job _ => !job.isFinalize
  | persistSnapshot .. => false
  | _ => true

theorem Op.logs_silent {o : Op} (ho : o.silent) {e : Event} (h : o.logs e) : e.silent := by
  cases o
  case putIndex | claimTerminal | persistSnapshot => cases ho
  case enqueue job _ =>
    cases h
    exact ho
  case getOutcomes => cases e <;> first | rfl | cases h
  all_goals
    simp only [Op.logs] at h
    try
      subst h
      rfl

theorem DescribeInv.silent {s s' : SnapshotState} (hs : DescribeInv catalogue s)
    {N : List (Delivery × Event)} (hlog : s'.log = N ++ s.log) (hnew : ∀ x ∈ N, x.2.silent)
    (hindex : s'.index = s.index) (hterminal : s'.terminal = s.terminal) : DescribeInv catalogue s' := by
  have hold : ∀ {x : Delivery × Event}, x ∈ s'.log → x.2.silent = false → x ∈ s.log := by
    intro x hx hsilent
    rw [hlog] at hx
    refine (List.mem_append.1 hx).resolve_left fun hx => ?_
    rw [hnew x hx] at hsilent
    cases hsilent
  refine ⟨hindex.trans hs.index, fun j createdAt reason hj => ?_, fun d x hx => ?_, fun d j hj => ?_,
    fun d j os hp => ?_⟩
  · rw [hlog, verdictRead_append fun x hx y hy => by
      have := hnew x hx
      rw [hy] at this
      cases this]
    exact hs.verdict j createdAt reason (hterminal ▸ hj)
  · rw [hterminal]
    exact hs.claimed d x (hold hx rfl)
  · rw [hterminal]
    exact hs.enqueued d j (hold hj rfl)
  · obtain ⟨hd, hwon, hread⟩ := hs.persisted d j os (hold hp rfl)
    rw [hterminal, hlog]
    exact ⟨hd, hwon, List.mem_append_right _ hread⟩

theorem calm_silent {o : Op} (ho : o.silent) : (describing env allowed catalogue).Calm t o := by
  intro s c r s' hi hown hp
  obtain ⟨es, hlog, hes⟩ := perform_log hp
  have hframe := perform_frame hp
  have hsilent : ∀ e ∈ es, e.silent := fun e he => Op.logs_silent ho (hes e he)
  have hterminal : s'.terminal = s.terminal := hframe.terminal (by rintro x rfl; cases ho)
  have hindex : s'.index = s.index := hframe.index (by rintro rs rfl; cases ho)
  refine describing_keeps hown (hi.silent hlog (fun x hx => ?_) hindex hterminal)
    (fun x hx => hterminal.trans hx) hlog (fun _ x hx => ?_) hframe.nextPid
  · obtain ⟨e, he, rfl⟩ := List.mem_map.1 hx
    exact hsilent e he
  · cases hsilent _ hx

/-! ### The operations that decide -/

/-- What a proposed verdict must have been computed from, while nothing is decided. -/
def Proposes (catalogue : List ReleaseRefRecord) (t : Delivery) (x : SnapshotTerminalTombstone)
    (s : SnapshotState) : Prop :=
  ∀ j createdAt reason, x = .terminal j createdAt reason → s.terminal.isSome = true ∨
    ∃ os, lastRead t s.log = some os ∧ Describes catalogue os j.completeness

theorem stable_proposes (x : SnapshotTerminalTombstone) :
    (describing env allowed catalogue).Stable t (Proposes catalogue t x) := by
  intro s s' hr hi h j createdAt reason hx
  refine (h j createdAt reason hx).imp hr.decided fun ⟨os, hos, hd⟩ => ⟨os, ?_, hd⟩
  exact stable_lastRead os s s' hr hi hos

theorem describes_claimTerminal (x : SnapshotTerminalTombstone) :
    (describing env allowed catalogue).Triple t (Proposes catalogue t x) (store.claimTerminal x)
      (fun winning s => s.terminal = some winning) (fun _ _ => True) := by
  refine triple_effect (stable_proposes x) (fun a => (lasting_tombstone a).stable t)
    (fun c => by cases c <;> rfl) (fun s r s' hi hown hs he => ?_) fun s s' hi hown _ he => ?_
  · simp only [effect, Option.some.injEq] at he
    split at he
    · rename_i existing hsome
      obtain ⟨rfl, rfl⟩ := Prod.mk.inj he
      refine ⟨Contract.Keeps.refl hi hown, fun a ha => ?_⟩
      cases ha
      exact hsome
    · rename_i hnone
      obtain ⟨rfl, rfl⟩ := Prod.mk.inj he
      refine ⟨?_, fun a ha => by cases ha; rfl⟩
      refine describing_keeps (E := [.claimed x]) hown ?_ (fun y hy => ?_) rfl (fun h => ?_) rfl
      · refine ⟨hi.index, fun j createdAt reason hj => ?_, fun _ _ _ => rfl, fun _ _ _ => rfl,
          fun d j os hp => ?_⟩
        · rcases hs j createdAt reason (Option.some.inj hj) with h | ⟨os, hos, hd⟩
          · rw [hnone] at h
            cases h
          · exact ⟨os, hos, hd⟩
        · rcases List.mem_cons.1 hp with hp | hp
          · cases hp
          · obtain ⟨-, ⟨createdAt, reason, hwon⟩, -⟩ := hi.persisted d j os hp
            rw [hnone] at hwon
            cases hwon
      · rw [hnone] at hy
        cases hy
      · rw [hnone] at h
        cases h
  · cases he
    exact Contract.Keeps.refl hi hown

theorem lasting_decided :
    (describing env allowed catalogue).Lasting fun s => s.terminal.isSome = true :=
  fun _ _ hg h => hg.decided h

theorem describes_enqueueFinalize (j : FinalizeJob) (delayMs : ℕ) :
    (describing env allowed catalogue).Triple t (fun s => s.terminal.isSome = true)
      (deps.enqueue (.finalize j) delayMs) (fun _ _ => True) (fun _ _ => True) := by
  refine triple_effect (lasting_decided.stable t) (fun _ => (Contract.lasting_pure True).stable t)
    (fun c => by cases c <;> rfl) (fun s r s' hi hown hs he => ?_) fun s s' hi hown _ he => ?_
  · obtain ⟨-, rfl⟩ := Prod.mk.inj (Option.some.inj he)
    refine ⟨?_, fun _ _ => trivial⟩
    refine describing_keeps (E := [.enqueued (.finalize j)]) hown ?_ (fun _ h => h) rfl
      (fun _ x hx => by cases List.mem_singleton.1 hx) rfl
    refine ⟨hi.index, hi.verdict, fun d x hx => ?_, fun _ _ _ => hs, fun d j' os hp => ?_⟩
    · rcases List.mem_cons.1 hx with hx | hx
      · cases hx
      · exact hi.claimed d x hx
    · rcases List.mem_cons.1 hp with hp | hp
      · cases hp
      · obtain ⟨hd, hwon, hread⟩ := hi.persisted d j' os hp
        exact ⟨hd, hwon, List.mem_cons_of_mem _ hread⟩
  · cases he
    exact Contract.Keeps.refl hi hown

/-- The finalizer persists what it has read, under the verdict that has won. -/
theorem describes_persistSnapshot (ht : t.isFinalizer = true) (j : FinalizeJob)
    (createdAt : String) (reason : Option String) (os : List ReleaseExtractionOutcome) :
    (describing env allowed catalogue).Triple t
      (fun s => s.terminal = some (.terminal j createdAt reason) ∧ (t, .outcomesRead os) ∈ s.log)
      (deps.persistSnapshot j os) (fun _ _ => True) (fun _ _ => True) := by
  have hcalled : ∀ (s : SnapshotState) (es : List Event), DescribeInv catalogue s →
      s.terminal = some (.terminal j createdAt reason) → (t, .outcomesRead os) ∈ s.log →
      (∀ e ∈ es, e = .persistCalled j os ∨ e = .persisted j os) →
      DescribeInv catalogue { s with log := es.map (Prod.mk t) ++ s.log } := by
    intro s es hi hwon hread hes
    have hold : ∀ {x : Delivery × Event}, x ∈ es.map (Prod.mk t) ++ s.log →
        x ∈ s.log ∨ x = (t, .persistCalled j os) ∨ x = (t, .persisted j os) := by
      intro x hx
      rcases List.mem_append.1 hx with hx | hx
      · obtain ⟨e, he, rfl⟩ := List.mem_map.1 hx
        exact .inr ((hes e he).imp (congrArg _) (congrArg _))
      · exact .inl hx
    refine ⟨hi.index, fun j' createdAt' reason' hj => ?_, fun d x hx => ?_, fun d j' hj => ?_,
      fun d j' os' hp => ?_⟩
    · rw [verdictRead_append fun x hx y hy => by
        obtain ⟨e, he, rfl⟩ := List.mem_map.1 hx
        rcases hes e he with rfl | rfl <;> cases hy]
      exact hi.verdict j' createdAt' reason' hj
    · rcases hold hx with hx | hx | hx
      · exact hi.claimed d x hx
      · cases hx
      · cases hx
    · rcases hold hj with hj | hj | hj
      · exact hi.enqueued d j' hj
      · cases hj
      · cases hj
    · rcases hold hp with hp | hp | hp
      · obtain ⟨hd, hwon', hread'⟩ := hi.persisted d j' os' hp
        exact ⟨hd, hwon', List.mem_append_right _ hread'⟩
      · cases hp
        exact ⟨ht, ⟨createdAt, reason, hwon⟩, List.mem_append_right _ hread⟩
      · cases hp
  refine triple_effect (((lasting_tombstone _).and (lasting_logged _)).stable t)
    (fun _ => (Contract.lasting_pure True).stable t) (fun c => by cases c <;> rfl)
    (fun s r s' hi hown hs he => ?_) fun s s' hi hown hs he => ?_
  · obtain ⟨-, rfl⟩ := Prod.mk.inj (Option.some.inj he)
    refine ⟨?_, fun _ _ => trivial⟩
    refine describing_keeps (E := [.persisted j os, .persistCalled j os]) hown
      (hcalled s [.persisted j os, .persistCalled j os] hi hs.1 hs.2 (by simp)) (fun _ h => h) rfl
      (fun _ x hx => by simp at hx) rfl
  · cases he
    exact describing_keeps (E := [.persistCalled j os]) hown
      (hcalled s [.persistCalled j os] hi hs.1 hs.2 (by simp)) (fun _ h => h) rfl
      (fun _ x hx => by simp at hx) rfl

/-- What is read is the last that the process has read. -/
theorem describes_getOutcomes :
    (describing env allowed catalogue).Triple t (fun _ => True) store.getOutcomes
      (fun os s => lastRead t s.log = some os ∧ (t, .outcomesRead os) ∈ s.log) (fun _ _ => True) := by
  refine triple_effect ((Contract.lasting_pure True).stable t) (fun os => ?_)
    (fun c => by cases c <;> rfl) (fun s r s' hi hown _ he => ?_) fun s s' hi hown _ he => ?_
  · exact fun s s' hr hi' h => ⟨stable_lastRead os s s' hr hi' h.1, hr.mem h.2⟩
  · have hk := (calm_silent rfl : (describing env allowed catalogue).Calm t .getOutcomes)
      s .done r s' hi hown he
    obtain ⟨rfl, rfl⟩ := Prod.mk.inj (Option.some.inj he)
    refine ⟨hk, fun os hos => ?_⟩
    cases hos
    exact ⟨if_pos rfl, List.mem_cons_self⟩
  · cases he
    exact Contract.Keeps.refl hi hown

theorem describes_getIndex :
    (describing env allowed catalogue).Triple t (fun _ => True) store.getIndex
      (fun index _ => index = catalogue) (fun _ _ => True) := by
  refine (triple_readState (o := .getIndex) failing_true (Contract.lasting_pure True) rfl
    (fun c => by cases c <;> rfl) (R := fun (index : Op.getIndex.Ans) _ => index = catalogue)
    (fun _ => Contract.lasting_pure _)
    fun s a s' hi he => ?_).post fun _ _ _ h => h.2
  have ha := Except.ok.inj (Prod.mk.inj (Option.some.inj he)).1
  exact ha.symm.trans hi.index

/-! ### The stages -/

/-- The program keeps the contract, from any state and to any end. -/
def DescribesVerdict (env : Env) (allowed : SnapshotState → Work → Bool)
    (catalogue : List ReleaseRefRecord) (t : Delivery) {α : Type} (p : Pipe α) : Prop :=
  (describing env allowed catalogue).Triple t (fun _ => True) p (fun _ _ => True) (fun _ _ => True)

theorem describes_await {o : Op} (ho : o.silent) :
    DescribesVerdict env allowed catalogue t (await o) :=
  Contract.triple_of_calm (Prog.calls_call (calm_silent ho))

theorem Op.silent_of_isRoutine {o : Op} (ho : o.isRoutine) : o.silent := by
  cases o <;> first | rfl | cases ho

theorem describes :
    StageProperty fun {α} (p : Pipe α) => DescribesVerdict env allowed catalogue t p where
  toCompositional := Contract.compositional_triple ((Contract.lasting_pure True).stable t)
  routine ho := describes_await (Op.silent_of_isRoutine ho)

theorem describes_enqueueWinning (j : FinalizeJob) (createdAt : String) (reason : Option String) :
    (describing env allowed catalogue).Triple t
      (fun s => s.terminal = some (.terminal j createdAt reason)) (deps.enqueue (.finalize j) 0)
      (fun _ _ => True) (fun _ _ => True) :=
  (describes_enqueueFinalize j 0).pre fun s _ h => by rw [h]; rfl

theorem describesVerdict :
    VerdictProperty fun {α} (p : Pipe α) => DescribesVerdict env allowed catalogue t p :=
  verdictProperty_abides lasting_tombstone describes_enqueueWinning describes

theorem describes_resume (job : SnapshotRef) :
    DescribesVerdict env allowed catalogue t (resumeTerminalFinalizer job) :=
  describesVerdict.resume (describes).bindCheckpoint

theorem describes_plan (job : PlanChunksJob) :
    DescribesVerdict env allowed catalogue t (planDistroKidReleaseChunks env job) :=
  (describes).unlessTerminal (describes_resume _) <| (describes).planChunks
    (fun _ => describes_await rfl) (fun _ => (describes).markRunning fun _ _ => describes_await rfl)
    (fun _ _ _ => describes_await rfl) fun _ _ _ => describes_await rfl

theorem describes_chunk (pid : ℕ) (job : ReleaseChunkJob) :
    DescribesVerdict env allowed catalogue t (extractDistroKidReleaseChunk env pid job) := by
  have hcheck : DescribesVerdict env allowed catalogue t (assertCanContinue env job.toSnapshotRef) :=
    (describes).assertCanContinue _
  refine (describes).unlessTerminal (describes_resume _) ((describes).withAccountLock
    ((describes).deferChunk fun _ _ _ => describes_await rfl) ?_)
  refine (describes_await rfl).bind fun index => (describes_await rfl).bind fun existing =>
    (describes_await rfl).bind fun _ => (describes_await rfl).bind fun extracted =>
    hcheck.bind fun _ => (describes_await rfl).bind fun outcomes => (describes_await rfl).bind fun _ =>
    hcheck.bind fun _ => (describes_await rfl).bind fun _ => (describes_await rfl).bind fun done =>
    (describes_await rfl).bind fun progress => ?_
  refine Contract.Triple.bind (Q := fun _ _ => True) ?_ fun _ =>
    ((describes).chainNext (fun _ _ _ => describes_await rfl) fun _ _ _ => describes_await rfl).bind fun _ =>
    (describes).ret _
  cases progress with
  | none => exact (describes).ret _
  | some p =>
    exact (describes_await rfl).bind fun _ => hcheck.bind fun _ => (describes_await rfl).bind fun _ =>
      describes_await rfl

/-- A stage that reads the index and the outcomes, then proposes what they reconcile to. -/
theorem describes_propose {α : Type} {f : String → SnapshotTerminalTombstone}
    {rest : SnapshotTerminalTombstone → Pipe α} {O : List ReleaseExtractionOutcome}
    (hf : ∀ stamp j createdAt reason, f stamp = .terminal j createdAt reason →
      Describes catalogue O j.completeness)
    (hrest : HandsOver (DescribesVerdict env allowed catalogue t) rest) :
    (describing env allowed catalogue).Triple t (fun s => lastRead t s.log = some O)
      (deps.nowIso >>= fun stamp => store.claimTerminal (f stamp) >>= rest)
      (fun _ _ => True) (fun _ _ => True) := by
  refine (triple_readStable rfl (stable_lastRead O)).bind fun stamp => ?_
  refine ((describes_claimTerminal (f stamp)).pre fun s _ hread => ?_).bind
    (triple_handsOver lasting_tombstone describes_enqueueWinning hrest)
  exact fun j createdAt reason hx => .inr ⟨O, hread, hf stamp j createdAt reason hx⟩

theorem describes_reconcile (job : ReconcileJob) :
    DescribesVerdict env allowed catalogue t (reconcileDistroKidSnapshot env job) := by
  refine (describes).bindCheckpoint (describesVerdict.getTerminal ?_
    ((describes).handsOver (fun _ _ => ?_) fun _ _ _ => ⟨_, rfl⟩))
  · refine ((describes).assertPipelineDeadline _).bind fun _ => describes_getIndex.bind fun index => ?_
    rintro s hi hown rfl
    refine (describes_getOutcomes.bind fun outcomes => ?_) s hi hown trivial
    dsimp only
    split
    · refine Contract.Triple.pre (?_ : DescribesVerdict env allowed index t _) fun _ _ _ => trivial
      exact ((describes).assertSnapshotCanContinue _).bind fun _ => (describes_await rfl).bind fun _ =>
        (describes).ret _
    · refine Contract.Triple.pre (describes_propose (O := outcomes) (fun stamp j createdAt reason hx => ?_)
        ?_) fun _ _ h => h.1
      · cases hx
        exact .inl rfl
      · exact (describes).handsOver (fun _ _ => (describes).ret _) fun _ _ _ => ⟨_, rfl⟩
  · exact (describes_await rfl).bind fun _ => (describes_await rfl).bind fun _ => (describes).ret _

theorem describes_terminalize (job : StageJob) (stage : String) (error : PipelineError) :
    DescribesVerdict env allowed catalogue t (terminalizeDistroKidFailure job stage error) := by
  refine (describes).bindCheckpoint (describes_getIndex.bind fun index => ?_)
  rintro s hi hown rfl
  refine (describes_getOutcomes.bind fun outcomes => ?_) s hi hown trivial
  refine (describes_propose (O := outcomes) (fun stamp j createdAt reason hx => ?_)
    describesVerdict.handsOver_failed).pre fun _ _ h => h.1
  cases hx
  exact .inr ⟨_, rfl⟩

/-- A cancellation proposes no verdict. -/
theorem describes_cancel (job : SnapshotRef) (reason : String) :
    DescribesVerdict env allowed catalogue t (cancelDistroKidSnapshot job reason) := by
  refine (describes_await rfl).bind fun _ => (describes_await rfl).bind fun stamp => ?_
  refine (describes_claimTerminal _).consequence (fun s _ _ => ?_) (fun _ _ _ _ => trivial)
    fun _ _ _ _ => trivial
  exact fun j createdAt reason hx => by cases hx

/-- The finalizer runs after the verdict, so its own proposal never wins. -/
theorem describes_finalize (ht : t.isFinalizer = true) (job : FinalizeJob) :
    DescribesVerdict env allowed catalogue t (finalizeDistroKidSnapshot job) := by
  refine (describes_await rfl).bind fun _ => (describes_await rfl).bind fun stamp => ?_
  intro s hi hown _
  have hclaim : (describing env allowed catalogue).Triple t (fun s => s.terminal.isSome = true)
      (store.claimTerminal (.terminal job stamp (some "legacy-finalizer")))
      (fun winning s => s.terminal = some winning) (fun _ _ => True) :=
    (describes_claimTerminal _).pre fun _ _ hdecided _ _ _ _ => .inl hdecided
  refine (hclaim.bind fun winning => ?_) s hi hown (hown.decided ht)
  rcases winning with ⟨j, createdAt, reason⟩ | ⟨createdAt, reason⟩
  · have hwon : (describing env allowed catalogue).Lasting
        fun s => s.terminal = some (.terminal j createdAt reason) := lasting_tombstone _
    refine (triple_read failing_true hwon rfl).bind fun progress =>
      Contract.Triple.bind (Q := fun _ _ => True) ?_ fun _ => describes_await rfl
    split
    · exact (describes_await rfl).pre fun _ _ _ => trivial
    · refine Contract.Triple.bind (((describes_getOutcomes.frame hwon).pre fun s _ h =>
        ⟨trivial, h⟩).consequence (fun _ _ h => h) (fun _ _ _ h => h) fun _ _ _ _ => trivial)
        fun outcomes => ?_
      refine Contract.Triple.bind ((describes_persistSnapshot ht j createdAt reason outcomes).pre
        fun s _ h => ⟨h.2, h.1.2⟩) fun _ => ?_
      exact (describes_await rfl).bind fun _ => (describes_await rfl).bind fun _ => describes_await rfl
  · exact ((describes).ret _).pre fun _ _ _ => trivial

theorem describes_processor (pid : ℕ) (job : StageJob) (hjob : t.work.job? = some job) :
    DescribesVerdict env allowed catalogue t (processor env pid job) := by
  cases job with
  | index job => exact fun s _ hown _ => absurd hjob (hown.work job)
  | plan job => exact (describes).discard (describes_plan job)
  | chunk job => exact (describes).discard (describes_chunk pid job)
  | retry job =>
    exact (describes).discard ((describes).unlessTerminal (describes_resume _) ((describes).retryFailed
      (fun _ => describes_await rfl) (fun _ _ _ => describes_await rfl) fun _ _ _ => describes_await rfl))
  | reconcile job => exact (describes).discard (describes_reconcile job)
  | finalize job =>
    exact describes_finalize (by rw [Delivery.isFinalizer_eq, hjob]; rfl) job

theorem describes_recover (job : CatalogIndexJob) :
    DescribesVerdict env allowed catalogue t (recoverSnapshot env job) :=
  describesVerdict.recoverSnapshot (describes).bindCheckpoint (fun _ => describes_await rfl)
    (fun j _ => describes_plan j) fun _ _ => describes_terminalize _ _ _

theorem describes_code (d : Delivery) :
    DescribesVerdict env allowed catalogue d (code env d) :=
  (describes).code describes_resume (describes_processor d.pid) describes_terminalize
    (fun job reason _ => describes_cancel job reason)
    (fun job _ => (describes).settle ((describes).discard (describes_recover job)))
    (fun _ _ _ _ => (describes).onCheckpoint (fun _ => describes_await rfl) fun _ => describes_await rfl)
    fun _ _ => describes_await rfl

theorem describing_sound (hallowed : AfterIndex allowed) :
    (describing env allowed catalogue).Sound := by
  have idle : ∀ s s' : SnapshotState, DescribeInv catalogue s → SameRecords s s' →
      s.nextPid ≤ s'.nextPid → DescribeInv catalogue s' ∧ ∀ u, DescribeRely u s s' := by
    intro s s' hi h hpid
    refine ⟨hi.silent (N := []) h.log (fun _ hx => by cases hx) h.index h.terminal, fun u => ?_⟩
    exact ⟨⟨fun x hx => h.terminal.trans hx, ⟨[], h.log, fun _ _ hx => by cases hx⟩, hpid⟩, [], h.log,
      fun _ hx => by cases hx⟩
  refine ⟨fun s ts d s' hi hown h => ?_, fun s d r hi _ _ => ?_, fun s d hi _ => ?_, fun s c s' hi h => ?_⟩
  · simp only [pipelineSystem, anyOrder] at h
    split at h
    · rename_i hstart
      cases h
      obtain ⟨hi', hr⟩ := idle s { s with nextPid := s.nextPid + 1 } hi ⟨rfl, rfl, rfl, rfl, rfl, rfl⟩
        (Nat.le_succ _)
      have hd : DescribeOwn d { s with nextPid := s.nextPid + 1 } := by
        refine ⟨by rw [hstart.1]; exact Nat.lt_succ_self _, fun j hj => ?_, fun ht => ?_⟩
        · exact (hallowed s d.work _ hstart.2 hj).1 j rfl
        · rw [Delivery.isFinalizer_eq, Option.any_eq_true] at ht
          obtain ⟨job, hjob, hfin⟩ := ht
          cases job with
          | finalize j =>
            obtain ⟨e, he⟩ := (hallowed s d.work _ hstart.2 hjob).2 j rfl
            exact hi.enqueued e j he
          | _ => cases hfin
      refine ⟨hi', (hr d).toDescribeGrows, hd,
        (describes_code d _ hi' hd trivial).mono fun _ _ _ _ => trivial, fun u hu => ?_⟩
      have hne : d ≠ u := by
        rintro rfl
        have := (hown d hu).pid
        omega
      exact ⟨hne, hne.symm, hr u⟩
    · cases h
  · exact ⟨hi, DescribeGrows.refl s, fun u _ => DescribeRely.refl u s⟩
  · exact ⟨hi, DescribeGrows.refl s, fun u _ => DescribeRely.refl u s⟩
  · cases c <;> cases h
    obtain ⟨hi', hr⟩ := idle s { s with lock := none } hi ⟨rfl, rfl, rfl, rfl, rfl, rfl⟩ (le_refl _)
    exact ⟨hi', (hr ⟨0, .sweepFailed⟩).toDescribeGrows, hr⟩

/-! ### Runs -/

/-- A finalizer reads the outcomes that the stage whose verdict has won had read. -/
def ReadsVerdict (w : SnapshotWorld) (m : Move Delivery Choice) (_ : SnapshotWorld) : Prop :=
  ∀ i c t k, m = .go i c → (∀ e, c ≠ .lost e) → w.procs[i]? = some (t, .op .getOutcomes k) →
    t.isFinalizer = true → verdictRead w.state.log = some w.state.outcomes

/-- What the finalizers have read is what the verdict was read from. -/
def FinalizersRead (s : SnapshotState) : Prop :=
  ∀ d os, d.isFinalizer = true → (d, .outcomesRead os) ∈ s.log → verdictRead s.log = some os

theorem perform_getOutcomes {d : Delivery} {s s' : SnapshotState} {c : Choice}
    {r : Except PipelineError (List ReleaseExtractionOutcome)}
    (h : perform env d s .getOutcomes c = some (r, s')) :
    s' = s ∨ (∀ e, c ≠ .lost e) ∧ s' = s.note d (.outcomesRead s.outcomes) := by
  rcases perform_settled (fun c => by cases c <;> rfl) h with ⟨-, he⟩ | ⟨hc, r', he⟩
  · cases he
    exact .inl rfl
  · obtain ⟨-, rfl⟩ := Prod.mk.inj (Option.some.inj he)
    exact .inr ⟨hc, rfl⟩

/-- A process reads the stored outcomes, or the step adds no read. -/
theorem step_outcomesRead {w w' : SnapshotWorld} {m : Move Delivery Choice}
    (h : (pipelineSystem env (anyOrder allowed)).step w m = some w') {d : Delivery}
    {os : List ReleaseExtractionOutcome} (hmem : (d, .outcomesRead os) ∈ w'.state.log) :
    (d, .outcomesRead os) ∈ w.state.log ∨ os = w.state.outcomes ∧ ∃ i c k, m = .go i c ∧
      (∀ e, c ≠ .lost e) ∧ w.procs[i]? = some (d, .op .getOutcomes k) := by
  rcases step_anyOrder h with ⟨i, c, t, o, k, r, rfl, hi, hp⟩ | hsame
  · by_cases hread : o = .getOutcomes
    · subst hread
      rcases perform_getOutcomes hp with hs | ⟨hc, hs⟩ <;> rw [hs] at hmem
      · exact .inl hmem
      · rcases List.mem_cons.1 hmem with hm | hm
        · cases hm
          exact .inr ⟨rfl, i, c, k, rfl, hc, hi⟩
        · exact .inl hm
    · obtain ⟨es, hlog, hes⟩ := perform_log hp
      rw [hlog] at hmem
      refine .inl ((List.mem_append.1 hmem).resolve_left fun hm => ?_)
      obtain ⟨e, he, heq⟩ := List.mem_map.1 hm
      obtain ⟨-, rfl⟩ := Prod.mk.inj heq
      have := hes _ he
      cases o <;> simp only [Op.logs, reduceCtorEq, or_self] at this
      exact hread rfl
  · exact .inl (hsame.log ▸ hmem)

theorem FinalizersRead.step (hallowed : AfterIndex allowed) {w w' : SnapshotWorld}
    {m : Move Delivery Choice} (hvalid : (describing env allowed catalogue).Valid w)
    (hw : FinalizersRead w.state) (hreads : ReadsVerdict w m w')
    (h : (pipelineSystem env (anyOrder allowed)).step w m = some w') : FinalizersRead w'.state := by
  intro d os hd hmem
  have hold : verdictRead w.state.log = some os := by
    rcases step_outcomesRead h hmem with hm | ⟨rfl, i, c, k, rfl, hc, hi⟩
    · exact hw d os hd hm
    · exact hreads i c d k rfl hc hi hd
  obtain ⟨e, x, hx⟩ := claimed_of_verdictRead hold
  have hgrows := hvalid.grows (describing_sound hallowed) h
  exact (hgrows.verdictRead (hvalid.inv.claimed e x hx)).trans hold

/-- Where the finalizers find the outcomes that the verdict was read from, every verdict
describes what is persisted under it. -/
theorem verdict_describes_persisted (hallowed : AfterIndex allowed) {s : SnapshotState}
    (hlog : s.log = []) (hterminal : s.terminal = none) {w : SnapshotWorld}
    {ms : List (Move Delivery Choice)}
    (hreads : (pipelineSystem env (anyOrder allowed)).Along ReadsVerdict (World.idle s) ms)
    (h : (pipelineSystem env (anyOrder allowed)).run (World.idle s) ms = some w) {d : Delivery}
    {j : FinalizeJob} {os : List ReleaseExtractionOutcome}
    (hmem : (d, .persistCalled j os) ∈ w.state.log) : Describes w.state.index os j.completeness := by
  have hfresh : DescribeInv s.index s := by
    refine ⟨rfl, fun j createdAt reason hj => ?_, fun d x hx => ?_, fun d j hj => ?_, fun d j os hp => ?_⟩
    · rw [hterminal] at hj
      cases hj
    all_goals simp_all
  have hreached : (describing env allowed s.index).Valid w ∧ FinalizersRead w.state := by
    refine System.run_invariant (I := fun w => (describing env allowed s.index).Valid w ∧
      FinalizersRead w.state) (fun v m v' hv hp hstep => ?_) ⟨Contract.valid_idle hfresh, ?_⟩ hreads h
    · exact ⟨hv.1.step (describing_sound hallowed) hstep, hv.2.step hallowed hv.1 hp hstep⟩
    · intro d os _ hm
      rw [show (World.idle s : SnapshotWorld).state.log = [] from hlog] at hm
      cases hm
  obtain ⟨hvalid, hread⟩ := hreached
  obtain ⟨hd, ⟨createdAt, reason, hwon⟩, hmem'⟩ := hvalid.inv.persisted d j os hmem
  obtain ⟨os', hos', hdescribes⟩ := hvalid.inv.verdict j createdAt reason hwon
  obtain rfl : os' = os := Option.some.inj (hos'.symm.trans (hread d os hd hmem'))
  rw [hvalid.inv.index]
  exact hdescribes

/-- Whether the move is the finalizer's read of outcomes that the verdict was not read from. -/
def readsOther (w : SnapshotWorld) : Move Delivery Choice → Bool
  | .go i _ =>
    match w.procs[i]? with
    | some (t, .op .getOutcomes _) =>
      t.isFinalizer && decide (verdictRead w.state.log ≠ some w.state.outcomes)
    | _ => false
  | _ => false

theorem readsVerdict_of_not_other {w w' : SnapshotWorld} {m : Move Delivery Choice}
    (h : readsOther w m = false) : ReadsVerdict w m w' := by
  rintro i c t k rfl _ hi ht
  by_contra hne
  simp [readsOther, hi, ht, hne] at h

/-- Chunk deliveries, terminalizations, reconciliations, and finalizers that were enqueued. -/
def pastIndex (s : SnapshotState) : Work → Bool
  | .stage (.chunk _) => true
  | .stage (.reconcile _) => true
  | .stage (.finalize job) => s.log.any fun x => x.2 = .enqueued (.finalize job)
  | .terminalize .. => true
  | _ => false

theorem afterIndex_pastIndex : AfterIndex pastIndex := by
  intro s work job hstart hjob
  cases work with
  | stage job' =>
    cases hjob
    cases job with
    | finalize j =>
      refine ⟨(fun _ h => by cases h), fun j' hj => ?_⟩
      cases hj
      obtain ⟨⟨d, e⟩, hx, he⟩ := List.any_eq_true.1 hstart
      obtain rfl := of_decide_eq_true he
      exact ⟨d, hx⟩
    | chunk job => exact ⟨(fun _ h => by cases h), (fun _ h => by cases h)⟩
    | reconcile job => exact ⟨(fun _ h => by cases h), (fun _ h => by cases h)⟩
    | _ => cases hstart
  | attempt entry => cases hstart
  | _ => cases hjob

/-- A chunk that gives up on a snapshot of one release, none of which is stored. -/
def givenUp : StageJob × String × PipelineError :=
  (.chunk (sampleChunk ["a"]), "distrokid-release-chunk", .other "gave up")

/-- The finalizer of the verdict that the chunk leaves when it gives up. -/
def givenUpFinalize : FinalizeJob :=
  { toSnapshotRef := refOf sampleRef, status := .failed
    completeness := failedCompleteness (indexed ["a"]).index []
      (classifyDistroKidTerminalFailure givenUp.2.1 givenUp.2.2)
    pass := some 1 }

/-- The failed snapshot's finalizer, up to the persistence. -/
def givenUpRun : { ms // (pipelineSystem sampleEnv (anyOrder pastIndex)).Along
      (fun w m _ => readsOther w m = false) (World.idle (indexed ["a"])) ms ∧
    ∃ w ∈ (pipelineSystem sampleEnv (anyOrder pastIndex)).run (World.idle (indexed ["a"])) ms,
      (⟨1, .stage (.finalize givenUpFinalize)⟩, .persistCalled givenUpFinalize []) ∈ w.state.log } :=
  ⟨.start ⟨0, .terminalize givenUp.1 givenUp.2.1 givenUp.2.2⟩ ::
    awaits 0 [.done, .done, .done, .stamp "t", .done, .done, .done] ++
    .settle 0 :: .start ⟨1, .stage (.finalize givenUpFinalize)⟩ ::
    awaits 0 [.done, .stamp "t", .done, .done, .done, .done], by decide +kernel⟩

theorem verdict_describes_persisted_givenUp : ∃ w,
    (pipelineSystem sampleEnv (anyOrder pastIndex)).Reaches (World.idle (indexed ["a"])) w ∧
      Describes w.state.index [] givenUpFinalize.completeness := by
  obtain ⟨ms, hreads, w, hw, hp⟩ := givenUpRun
  have hreads' := System.Along.mono _ (Q := ReadsVerdict) hreads fun _ _ _ h =>
    readsVerdict_of_not_other h
  exact ⟨w, ⟨ms, hw⟩, verdict_describes_persisted afterIndex_pastIndex rfl rfl hreads' hw hp⟩

/-- One delivery of the chunk has passed its last check and is about to store the release,
another one gives up, and the store comes before the finalizer's read. -/
def lateStoreRun : { ms //
    ∃ w ∈ (pipelineSystem sampleEnv (anyOrder pastIndex)).run (World.idle (indexed ["a"])) ms,
      (⟨2, .stage (.finalize givenUpFinalize)⟩, .persistCalled givenUpFinalize [sampleRead "a"]) ∈
        w.state.log ∧
      givenUpFinalize.completeness.completedReleases ≠
        (reconcileCheckpoint w.state.index [sampleRead "a"]).1.completedReleases } :=
  ⟨.start ⟨0, .stage (.chunk (sampleChunk ["a"]))⟩ ::
    awaits 0 (openings ++ .done :: .outcomes [sampleRead "a"] :: List.replicate 4 .done) ++
    .start ⟨1, .terminalize givenUp.1 givenUp.2.1 givenUp.2.2⟩ ::
    awaits 1 [.done, .done, .done, .stamp "t", .done, .done, .done] ++
    .settle 1 :: awaits 0 [.done] ++ .start ⟨2, .stage (.finalize givenUpFinalize)⟩ ::
    awaits 1 [.done, .stamp "t", .done, .done, .done, .done], by decide +kernel⟩

theorem persisted_not_described : ∃ w d j os,
    (pipelineSystem sampleEnv (anyOrder pastIndex)).Reaches (World.idle (indexed ["a"])) w ∧
      (d, .persistCalled j os) ∈ w.state.log ∧ ¬ Describes w.state.index os j.completeness := by
  obtain ⟨ms, w, hw, hp, hcount⟩ := lateStoreRun
  refine ⟨w, _, _, _, ⟨ms, hw⟩, hp, ?_⟩
  rintro (h | ⟨code, h⟩)
  · exact hcount (congrArg ExtractionCompleteness.completedReleases h)
  · exact hcount ((congrArg ExtractionCompleteness.completedReleases h).trans rfl)

end CatalogSentinel.Distrokid
