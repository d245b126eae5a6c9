import CatalogSentinel.Data.History
import CatalogSentinel.Distrokid.Rules

/-!
Whether a completed release stays completed. A chunk delivery converges what it
extracts with the outcomes that it read once, at its start, so it never takes
back a release that was complete then. What others complete after that read is
not in its copy: the run keeps every completed release exactly when no delivery
stores a failure for a release that was completed since it read.
-/

namespace CatalogSentinel.Distrokid

open CatalogSentinel.Data CatalogSentinel.Concurrent

/-- The release has a completed outcome among these. -/
def CompletedIn (outcomes : List ReleaseExtractionOutcome) (id : String) : Prop :=
  (outcomeOf id outcomes).any (·.isCompleted) = true

instance (outcomes : List ReleaseExtractionOutcome) (id : String) :
    Decidable (CompletedIn outcomes id) := inferInstanceAs (Decidable (_ = true))

theorem completedIn_put {merged : ReleaseExtractionOutcome} {m : List ReleaseExtractionOutcome}
    {id : String} :
    CompletedIn (put ReleaseExtractionOutcome.outcomeReleaseId merged m) id ↔
      if merged.outcomeReleaseId = id then merged.isCompleted = true else CompletedIn m id := by
  unfold CompletedIn outcomeOf
  rw [get?_put]
  split <;> simp

/-- A batch decides about the releases that it has an outcome for. -/
theorem completedIn_putOutcomes {m os : List ReleaseExtractionOutcome} {id : String} :
    CompletedIn (putOutcomes m os) id ↔
      CompletedIn (putOutcomes [] os) id ∨ outcomeOf id (putOutcomes [] os) = none ∧ CompletedIn m id := by
  unfold CompletedIn outcomeOf putOutcomes
  rw [get?_putAll, get?_putAll]
  cases hl : get? ReleaseExtractionOutcome.outcomeReleaseId id os.reverse with
  | none => simp [get?]
  | some o => simp

/-! ### What a batch converges to -/

theorem converged_id (existing : List ReleaseExtractionOutcome) (incoming : ReleaseExtractionOutcome) :
    (convergeReleaseRetryOutcome (outcomeOf incoming.outcomeReleaseId existing)
      incoming).outcomeReleaseId = incoming.outcomeReleaseId :=
  converge_outcomeReleaseId fun _ ho => key_of_get? ho

theorem converged_isCompleted {existing : List ReleaseExtractionOutcome}
    {incoming : ReleaseExtractionOutcome} (h : CompletedIn existing incoming.outcomeReleaseId) :
    (convergeReleaseRetryOutcome (outcomeOf incoming.outcomeReleaseId existing)
      incoming).isCompleted = true := by
  rw [converge_isCompleted, show (outcomeOf incoming.outcomeReleaseId existing).any
    (·.isCompleted) = true from h, Bool.or_true]

/-- The delivery's copy forgets no completed release. -/
theorem convergeBatch_keeps (existing batch : List ReleaseExtractionOutcome) {id : String}
    (h : CompletedIn existing id) : CompletedIn (convergeBatch existing batch).2 id := by
  induction batch generalizing existing with
  | nil => exact h
  | cons incoming batch ih =>
    refine ih _ (completedIn_put.2 ?_)
    rw [converged_id]
    split
    · rename_i hid
      subst hid
      exact converged_isCompleted h
    · exact h

/-- Nothing that the copy knows to be complete is stored as anything else. -/
theorem convergeBatch_fits (existing batch : List ReleaseExtractionOutcome) :
    ∀ o ∈ (convergeBatch existing batch).1, o.isCompleted = false →
      ¬ CompletedIn existing o.outcomeReleaseId := by
  induction batch generalizing existing with
  | nil => exact fun o ho => by cases ho
  | cons incoming batch ih =>
    intro o ho hfailed hcompleted
    rcases List.mem_cons.1 ho with rfl | ho
    · rw [converged_id] at hcompleted
      rw [converged_isCompleted hcompleted] at hfailed
      cases hfailed
    · refine ih _ o ho hfailed (completedIn_put.2 ?_)
      rw [converged_id]
      split
      · rename_i hid
        exact converged_isCompleted (hid ▸ hcompleted)
      · exact hcompleted

/-! ### The store along a history -/

/-- The outcomes that a history leaves in the store. -/
def replay (init : List ReleaseExtractionOutcome) :
    List (Delivery × Event) → List ReleaseExtractionOutcome
  | [] => init
  | (_, .stored os) :: past => putOutcomes (replay init past) os
  | _ :: past => replay init past

/-- The event leaves the release completed. -/
def Completes (e : Event) (id : String) : Prop :=
  ∃ os, e = .stored os ∧ CompletedIn (putOutcomes [] os) id

theorem replay_append_of_not_stored (init : List ReleaseExtractionOutcome)
    {new past : List (Delivery × Event)} (h : ∀ x ∈ new, ∀ os, x.2 ≠ .stored os) :
    replay init (new ++ past) = replay init past := by
  induction new with
  | nil => rfl
  | cons x new ih =>
    have ih := ih fun y hy => h y (List.mem_cons_of_mem x hy)
    obtain ⟨d, e⟩ := x
    cases e with
    | stored os => exact absurd rfl (h _ List.mem_cons_self os)
    | _ => exact ih

/-- A release that is completed by now was so before, or was completed since. -/
theorem completedIn_replay {init : List ReleaseExtractionOutcome}
    {new past : List (Delivery × Event)} {id : String}
    (h : CompletedIn (replay init (new ++ past)) id) :
    CompletedIn (replay init past) id ∨ ∃ x ∈ new, Completes x.2 id := by
  induction new with
  | nil => exact .inl h
  | cons x new ih =>
    have later : CompletedIn (replay init (new ++ past)) id →
        CompletedIn (replay init past) id ∨ ∃ y ∈ x :: new, Completes y.2 id := fun h =>
      (ih h).imp_right fun ⟨y, hy, hc⟩ => ⟨y, List.mem_cons_of_mem x hy, hc⟩
    obtain ⟨d, e⟩ := x
    cases e with
    | stored os =>
      rcases completedIn_putOutcomes.1 h with hc | ⟨-, hc⟩
      · exact .inr ⟨_, List.mem_cons_self, os, rfl, hc⟩
      · exact later hc
    | _ => exact later h

/-! ### What a delivery has read -/

/-- The delivery that a process works for: its own, or that of the checkpoint's chunk. -/
def Delivery.owner (d : Delivery) : ℕ :=
  match d.work with
  | .checkpoint delivery .. => delivery
  | _ => d.pid

/-- A delivery read the stored outcomes right after `past`; `since` is what came later. -/
def ReadAt (pid : ℕ) (log since past : List (Delivery × Event)) : Prop :=
  ∃ d, log = since ++ (d, .opened) :: past ∧ d.pid = pid

def HasRead (pid : ℕ) (log : List (Delivery × Event)) : Prop := ∃ since past, ReadAt pid log since past

theorem HasRead.mono {pid : ℕ} {log log' : List (Delivery × Event)} (h : HasRead pid log)
    (hlog : Extends log log') : HasRead pid log' := by
  obtain ⟨since, past, d, rfl, hd⟩ := h
  obtain ⟨new, rfl⟩ := hlog
  exact ⟨new ++ since, past, d, by rw [List.append_assoc], hd⟩

theorem HasRead.of_append {pid : ℕ} {N log : List (Delivery × Event)}
    (h : HasRead pid (N ++ log)) (hnew : ∀ x ∈ N, x.1.pid = pid → x.2 ≠ .opened) :
    HasRead pid log := by
  obtain ⟨since, past, d, hlog, hd⟩ := h
  have hmem : (d, Event.opened) ∈ N ++ log := by
    rw [hlog]
    exact List.mem_append_right _ List.mem_cons_self
  rcases List.mem_append.1 hmem with hm | hm
  · exact absurd rfl (hnew _ hm hd)
  · obtain ⟨since', past', rfl⟩ := List.append_of_mem hm
    exact ⟨since', past', d, rfl, hd⟩

/-- The batch takes back nothing that was completed when the delivery read. -/
def Fits (init : List ReleaseExtractionOutcome) (pid : ℕ) (os : List ReleaseExtractionOutcome)
    (log : List (Delivery × Event)) : Prop :=
  ∃ since past, ReadAt pid log since past ∧ ∀ o ∈ os, o.isCompleted = false →
    ¬ CompletedIn (replay init past) o.outcomeReleaseId

theorem Fits.mono {init os : List ReleaseExtractionOutcome} {pid : ℕ}
    {log log' : List (Delivery × Event)} (h : Fits init pid os log) (hlog : Extends log log') :
    Fits init pid os log' := by
  obtain ⟨since, past, ⟨d, rfl, hd⟩, hos⟩ := h
  obtain ⟨new, rfl⟩ := hlog
  exact ⟨new ++ since, past, ⟨d, by rw [List.append_assoc], hd⟩, hos⟩

/-! ### The contract -/

/-- What stands before a stored batch: a read that it fits. -/
def StoredFits (init : List ReleaseExtractionOutcome) :
    Delivery × Event → List (Delivery × Event) → Prop
  | (d, .stored os), past => Fits init d.owner os past
  | _, _ => True

/-- The store holds what the history left there; a delivery's copy knows every release
that was completed when it read; and only a delivery that has read extracts. -/
structure ConvergeInv (init : List ReleaseExtractionOutcome) (s : SnapshotState) : Prop where
  replay : s.outcomes = replay init s.log
  copies : ∀ pid, HasRead pid s.log → ∃ since past, ReadAt pid s.log since past ∧
    ∀ id, CompletedIn (Distrokid.replay init past) id → CompletedIn (s.existing pid) id
  extracting : ∀ d job, (d, .extracting job) ∈ s.log → HasRead d.pid s.log
  fits : Justified (StoredFits init) s.log

variable {env : Env} {allowed : SnapshotState → Work → Bool}

/-- Checkpoints belong to deliveries that extract. -/
def ChecksCheckpoints (allowed : SnapshotState → Work → Bool) : Prop :=
  ∀ s delivery job batch, allowed s (.checkpoint delivery job batch) = true →
    ∃ d job', (d, .extracting job') ∈ s.log ∧ d.pid = delivery

def converging (env : Env) (allowed : SnapshotState → Work → Bool)
    (init : List ReleaseExtractionOutcome) : Contract (pipelineSystem env (anyOrder allowed)) where
  inv := ConvergeInv init
  own t s := (∃ delivery job batch, t.work = .checkpoint delivery job batch) → HasRead t.owner s.log
  rely _ s s' := Extends s.log s'.log
  grows s s' := Extends s.log s'.log
  apart _ _ := True
  post _ _ _ := True
  rely_refl _ s := Extends.refl s.log
  rely_trans _ _ _ _ := Extends.trans
  rely_grows _ _ _ h := h
  rely_own _ _ _ h _ ho := fun hw => (ho hw).mono h

variable {init : List ReleaseExtractionOutcome} {t : Delivery}

theorem converging_keeps {s s' : SnapshotState}
    (ho : (converging env allowed init).own t s) (hi : ConvergeInv init s')
    (hg : Extends s.log s'.log) : (converging env allowed init).Keeps t s s' :=
  ⟨hi, fun hw => (ho hw).mono hg, hg, fun _ _ => hg⟩

theorem lasting_hasRead (pid : ℕ) :
    (converging env allowed init).Lasting fun s => HasRead pid s.log := fun _ _ hg h => h.mono hg

theorem lasting_fits (pid : ℕ) (os : List ReleaseExtractionOutcome) :
    (converging env allowed init).Lasting fun s => Fits init pid os s.log := fun _ _ hg h => h.mono hg

/-- Events that neither read, extract nor store. -/
def Event.bystands : Event → Bool
  | opened => false
  | extracting _ => false
  | stored _ => false
  | _ => true

/-- The operations that neither read into a copy, extract nor store. -/
def Op.bystands : Op → Bool
  | putOutcomes _ => false
  | openExisting => false
  | converge .. => false
  | extractChunk .. => false
  | _ => true

theorem Op.logs_bystands {o : Op} (ho : o.bystands) {e : Event} (h : o.logs e) : e.bystands := by
  cases o <;> cases ho
  case getOutcomes => cases e <;> first | rfl | cases h
  case persistSnapshot => rcases h with rfl | rfl <;> rfl
  all_goals
    simp only [Op.logs] at h
    try
      subst h
      rfl

/-- Events that are no reads of a delivery leave its copy behind its last read. -/
theorem ConvergeInv.copied {s : SnapshotState} (hs : ConvergeInv init s) {N : List (Delivery × Event)} {pid : ℕ}
    (h : HasRead pid (N ++ s.log)) (hnew : ∀ x ∈ N, x.1.pid = pid → x.2 ≠ .opened) :
    ∃ since past, ReadAt pid (N ++ s.log) since past ∧
      ∀ id, CompletedIn (Distrokid.replay init past) id → CompletedIn (s.existing pid) id := by
  obtain ⟨since, past, ⟨d, hlog, hd⟩, hcopy⟩ := hs.copies pid (h.of_append hnew)
  exact ⟨N ++ since, past, ⟨d, by rw [hlog, List.append_assoc], hd⟩, hcopy⟩

/-- More events of bystanders change nothing of the invariant. -/
theorem ConvergeInv.bystand {s s' : SnapshotState} (hs : ConvergeInv init s)
    {N : List (Delivery × Event)} (hlog : s'.log = N ++ s.log) (hnew : ∀ x ∈ N, x.2.bystands)
    (houtcomes : s'.outcomes = s.outcomes) (hexisting : s'.existing = s.existing) :
    ConvergeInv init s' := by
  have hext : Extends s.log s'.log := ⟨N, hlog⟩
  refine ⟨?_, fun pid h => ?_, fun d job hmem => ?_, ?_⟩
  · rw [houtcomes, hs.replay, hlog, replay_append_of_not_stored]
    intro x hx os he
    have := hnew x hx
    rw [he] at this
    cases this
  · rw [hlog] at h ⊢
    rw [hexisting]
    refine hs.copied h fun x hx _ he => ?_
    have := hnew x hx
    rw [he] at this
    cases this
  · rw [hlog] at hmem
    rcases List.mem_append.1 hmem with hm | hm
    · cases hnew _ hm
    · exact (hs.extracting d job hm).mono hext
  · rw [hlog]
    refine hs.fits.append fun x hx past => ?_
    have := hnew x hx
    obtain ⟨d, e⟩ := x
    cases e <;> trivial

theorem calm_bystands {o : Op} (ho : o.bystands) : (converging env allowed init).Calm t o := by
  intro s c r s' hi hown hp
  obtain ⟨es, hlog, hes⟩ := perform_log hp
  have hframe := perform_frame hp
  refine converging_keeps hown ?_ ⟨_, hlog⟩
  refine ConvergeInv.bystand hi hlog (fun x hx => ?_) (hframe.outcomes ?_) (hframe.existing ?_ ?_)
  · obtain ⟨e, he, rfl⟩ := List.mem_map.1 hx
    exact Op.logs_bystands ho (hes e he)
  · rintro os rfl
    cases ho
  · rintro rfl
    cases ho
  · rintro d b rfl
    cases ho

/-- The rule for an operation that only the state settles and that does not bystand. -/
theorem triple_converging {o : Op} {P : SnapshotState → Prop} {Q : o.Ans → SnapshotState → Prop}
    (hP : (converging env allowed init).Lasting P) (hQ : ∀ a, (converging env allowed init).Lasting (Q a))
    (hanswer : ∀ c, answer env o c = none)
    (hattempted : ∀ s, attempted t s o = some s ∨ attempted t s o = none)
    (heffect : ∀ s r s', ConvergeInv init s → P s → effect env t s o = some (r, s') →
      ConvergeInv init s' ∧ ∀ a, r = .ok a → Q a s') :
    (converging env allowed init).Triple t P (await o) Q (fun _ _ => True) := by
  refine triple_effect (hP.stable t) (fun a => (hQ a).stable t) hanswer (fun s r s' hi hown hs he => ?_)
    fun s s' hi hown _ he => ?_
  · obtain ⟨es, hlog, -⟩ := effect_log he
    obtain ⟨hi', hq⟩ := heffect s r s' hi hs he
    exact ⟨converging_keeps hown hi' ⟨_, hlog⟩, hq⟩
  · rcases hattempted s with h | h <;> rw [h] at he <;> cases he
    exact Contract.Keeps.refl hi hown

theorem triple_openExisting :
    (converging env allowed init).Triple t (fun _ => True) deps.openExisting
      (fun _ s => HasRead t.pid s.log) (fun _ _ => True) := by
  refine triple_converging (Contract.lasting_pure True) (fun _ => lasting_hasRead t.pid)
    (fun c => by cases c <;> rfl) (fun s => .inl rfl) fun s r s' hi _ he => ?_
  obtain ⟨-, rfl⟩ := Prod.mk.inj (Option.some.inj he)
  have hread : ReadAt t.pid ((t, .opened) :: s.log) [] s.log := ⟨t, rfl, rfl⟩
  refine ⟨⟨hi.replay, fun pid h => ?_, fun d job hmem => ?_, ⟨trivial, hi.fits⟩⟩, fun _ _ => ⟨[], s.log, hread⟩⟩
  · by_cases hpid : pid = t.pid
    · subst hpid
      refine ⟨[], s.log, hread, fun id hc => ?_⟩
      rw [show ((s.keep t.pid s.outcomes).note t .opened).existing t.pid = _ from
        s.keep_existing t.pid t.pid s.outcomes, if_pos rfl, hi.replay]
      exact hc
    · rw [show ((s.keep t.pid s.outcomes).note t .opened).existing pid = _ from
        s.keep_existing t.pid pid s.outcomes, if_neg hpid]
      refine hi.copied (N := [(t, .opened)]) h fun x hx hx' => ?_
      rw [List.mem_singleton.1 hx] at hx'
      exact absurd hx'.symm hpid
  · rcases List.mem_cons.1 hmem with hm | hm
    · cases hm
    · exact (hi.extracting d job hm).mono (Extends.cons _ _)

/-- What a delivery converges fits its read. -/
theorem triple_converge (delivery : ℕ) (batch : List ReleaseExtractionOutcome) :
    (converging env allowed init).Triple t (fun s => HasRead delivery s.log)
      (deps.converge delivery batch) (fun os s => Fits init delivery os s.log) (fun _ _ => True) := by
  refine triple_converging (lasting_hasRead delivery) (fun os => lasting_fits delivery os)
    (fun c => by cases c <;> rfl) (fun s => .inl rfl) fun s r s' hi hs he => ?_
  obtain ⟨rfl, rfl⟩ := Prod.mk.inj (Option.some.inj he)
  refine ⟨⟨hi.replay, fun pid h => ?_, hi.extracting, hi.fits⟩, fun os hos => ?_⟩
  · obtain ⟨since, past, hread, hc⟩ := hi.copies pid h
    refine ⟨since, past, hread, fun id hid => ?_⟩
    rw [SnapshotState.keep_existing]
    split
    · rename_i hpid
      subst hpid
      exact convergeBatch_keeps _ _ (hc id hid)
    · exact hc id hid
  · obtain ⟨since, past, hread, hc⟩ := hi.copies delivery hs
    cases hos
    exact ⟨since, past, hread, fun o ho hf hid =>
      convergeBatch_fits _ _ o ho hf (hc _ hid)⟩

theorem triple_putOutcomes (os : List ReleaseExtractionOutcome) :
    (converging env allowed init).Triple t (fun s => Fits init t.owner os s.log)
      (store.putOutcomes os) (fun _ s => Fits init t.owner os s.log) (fun _ _ => True) := by
  refine triple_converging (lasting_fits t.owner os) (fun _ => lasting_fits t.owner os)
    (fun c => by cases c <;> rfl) (fun s => .inl rfl) fun s r s' hi hs he => ?_
  obtain ⟨-, rfl⟩ := Prod.mk.inj (Option.some.inj he)
  have hext : Extends s.log ((t, .stored os) :: s.log) := Extends.cons _ _
  refine ⟨⟨?_, fun pid h => ?_, fun d job hmem => ?_, ⟨hs, hi.fits⟩⟩, fun _ _ => hs.mono hext⟩
  · exact congrArg (putOutcomes · os) hi.replay
  · refine hi.copied (N := [(t, .stored os)]) h fun x hx _ he => ?_
    rw [List.mem_singleton.1 hx] at he
    cases he
  · rcases List.mem_cons.1 hmem with hm | hm
    · cases hm
    · exact (hi.extracting d job hm).mono hext

theorem triple_extractChunk (job : ReleaseChunkJob) (refs : List ReleaseRefRecord) :
    (converging env allowed init).Triple t (fun s => HasRead t.pid s.log)
      (deps.extractChunk job refs) (fun _ s => HasRead t.pid s.log) (fun _ _ => True) := by
  refine triple_converging (lasting_hasRead t.pid) (fun _ => lasting_hasRead t.pid)
    (fun c => by cases c <;> rfl) (fun s => .inl rfl) fun s r s' hi hs he => ?_
  obtain ⟨-, rfl⟩ := Prod.mk.inj (Option.some.inj he)
  have hext : Extends s.log ((t, .extracting job) :: s.log) := Extends.cons _ _
  refine ⟨⟨hi.replay, fun pid h => ?_, fun d job' hmem => ?_, ⟨trivial, hi.fits⟩⟩,
    fun _ _ => hs.mono hext⟩
  · refine hi.copied (N := [(t, .extracting job)]) h fun x hx _ he => ?_
    rw [List.mem_singleton.1 hx] at he
    cases he
  · rcases List.mem_cons.1 hmem with hm | hm
    · cases hm
      exact hs.mono hext
    · exact (hi.extracting d job' hm).mono hext

/-! ### The stages -/

/-- The program keeps the contract, from any state and to any end. -/
def Converges (env : Env) (allowed : SnapshotState → Work → Bool)
    (init : List ReleaseExtractionOutcome) (t : Delivery) {α : Type} (p : Pipe α) : Prop :=
  (converging env allowed init).Triple t (fun _ => True) p (fun _ _ => True) (fun _ _ => True)

theorem converges_await {o : Op} (ho : o.bystands) : Converges env allowed init t (await o) :=
  Contract.triple_of_calm (Prog.calls_call (calm_bystands ho))

theorem converges : OutsideProperty fun {α} (p : Pipe α) => Converges env allowed init t p where
  toCompositional := Contract.compositional_triple ((Contract.lasting_pure True).stable t)
  outside ho := converges_await (by
    rename_i o
    cases o <;> first | rfl | cases ho)

/-- A check, or any other bystander, between a delivery's read and its store. -/
theorem triple_afterRead {α : Type} {p : Pipe α} (hp : Converges env allowed init t p) (pid : ℕ) :
    (converging env allowed init).Triple t (fun s => HasRead pid s.log) p
      (fun _ s => HasRead pid s.log) (fun _ _ => True) :=
  ((hp.frame (lasting_hasRead pid)).pre fun _ _ h => ⟨trivial, h⟩).consequence (fun _ _ h => h)
    (fun _ _ _ h => h.2) fun _ _ _ _ => trivial

theorem converges_chunkWork (job : ReleaseChunkJob) (ht : t.owner = t.pid) :
    Converges env allowed init t (chunkWork env t.pid job) := by
  have hcheck : Converges env allowed init t (assertCanContinue env job.toSnapshotRef) :=
    (converges).assertCanContinue _
  refine (converges_await rfl).bind fun index => triple_openExisting.bind fun existing =>
    (triple_extractChunk job _).bind fun _ =>
    (triple_afterRead (converges_await rfl) t.pid).bind fun extracted =>
    (triple_afterRead hcheck t.pid).bind fun _ =>
    (triple_converge t.pid extracted).bind fun outcomes => ?_
  refine Contract.Triple.bind (Q := fun _ _ => True) ?_ fun _ => ?_
  · exact ((triple_putOutcomes outcomes).pre fun _ _ h => ht ▸ h).post fun _ _ _ _ => trivial
  · refine hcheck.bind fun _ => (converges_await rfl).bind fun _ =>
      (converges_await rfl).bind fun done => (converges_await rfl).bind fun progress => ?_
    refine Contract.Triple.bind (Q := fun _ _ => True) ?_ fun _ =>
      ((converges).chainNext (fun _ _ _ => converges_await rfl) fun _ _ _ => converges_await rfl).bind fun _ =>
      (converges).ret _
    cases progress with
    | none => exact (converges).ret _
    | some p =>
      exact (converges_await rfl).bind fun _ => hcheck.bind fun _ => (converges_await rfl).bind fun _ =>
        converges_await rfl

theorem converges_onCheckpoint (job : ReleaseChunkJob) (batch : List ReleaseExtractionOutcome) :
    (converging env allowed init).Triple t (fun s => HasRead t.owner s.log)
      (onCheckpoint env t.owner job batch) (fun _ _ => True) (fun _ _ => True) :=
  (triple_afterRead ((converges).assertCanContinue _) t.owner).bind fun _ =>
    (triple_converge t.owner batch).bind fun os => (triple_putOutcomes os).post fun _ _ _ _ => trivial

theorem converges_processor (job : StageJob) (ht : t.owner = t.pid) :
    Converges env allowed init t (processor env t.pid job) :=
  (converges).processor
    (fun _ _ => (converges).unlessTerminal <| (converges).withAccountLock ((converges).raise _) <|
      (converges).catalogIndexWork (converges_await rfl) (fun _ => converges_await rfl)
        (fun _ _ => converges_await rfl) fun _ _ _ => converges_await rfl)
    fun j _ => (converges).unlessTerminal <| (converges).withAccountLock
      ((converges).deferChunk fun _ _ _ => converges_await rfl) (converges_chunkWork j ht)

theorem converges_code (d : Delivery) : Converges env allowed init d (code env d) := by
  refine (converges).code (fun job hjob => converges_processor job ?_) (fun delivery job batch hwork => ?_)
    fun _ _ => converges_await rfl
  · obtain ⟨pid, work⟩ := d
    cases work <;> first | rfl | cases hjob
  · obtain ⟨pid, work⟩ := d
    cases hwork
    intro s hi ho _
    exact converges_onCheckpoint (t := ⟨pid, .checkpoint delivery job batch⟩) job batch s hi ho
      (ho ⟨delivery, job, batch, rfl⟩)

theorem converging_sound (hallowed : ChecksCheckpoints allowed) :
    (converging env allowed init).Sound := by
  have same : ∀ s s' : SnapshotState, ConvergeInv init s → SameRecords s s' → ConvergeInv init s' :=
    fun s s' hi h => hi.bystand (N := []) h.log (fun _ hx => by cases hx) h.outcomes h.existing
  refine ⟨fun s ts d s' hi hown h => ?_, fun s d r hi _ _ => ?_, fun s d hi _ => ?_, fun s c s' hi h => ?_⟩
  · simp only [pipelineSystem, anyOrder] at h
    split at h
    · rename_i hstart
      cases h
      have hi' := same s { s with nextPid := s.nextPid + 1 } hi ⟨rfl, rfl, rfl, rfl, rfl, rfl⟩
      have hd : (converging env allowed init).own d { s with nextPid := s.nextPid + 1 } := by
        rintro ⟨delivery, job, batch, hw⟩
        obtain ⟨e, job', hmem, he⟩ := hallowed s delivery job batch (hw ▸ hstart.2)
        have := hi.extracting e job' hmem
        unfold Delivery.owner
        rwa [hw, ← he]
      exact ⟨hi', Extends.refl _, hd, (converges_code d _ hi' hd trivial).mono fun _ _ _ _ => trivial,
        fun u _ => ⟨trivial, trivial, Extends.refl _⟩⟩
    · cases h
  · exact ⟨hi, Extends.refl _, fun _ _ => Extends.refl _⟩
  · exact ⟨hi, Extends.refl _, fun _ _ => Extends.refl _⟩
  · cases c <;> cases h
    exact ⟨same s _ hi ⟨rfl, rfl, rfl, rfl, rfl, rfl⟩, Extends.refl _, fun _ => Extends.refl _⟩

/-! ### Runs -/

/-- The release was completed by an event since a read of the delivery. -/
def CompletedSince (pid : ℕ) (log : List (Delivery × Event)) (id : String) : Prop :=
  ∃ since past, ReadAt pid log since past ∧ ∃ x ∈ since, Completes x.2 id

/-- No delivery stores a failed or skipped outcome of a release that was completed since
the delivery read the stored outcomes. -/
def FreshStores (w : SnapshotWorld) (m : Move Delivery Choice) (_ : SnapshotWorld) : Prop :=
  ∀ i c t os k, m = .go i c → (∀ e, c ≠ .lost e) → w.procs[i]? = some (t, .op (.putOutcomes os) k) →
    ∀ id o, outcomeOf id (putOutcomes [] os) = some o → o.isCompleted = false →
      ¬ CompletedSince t.owner w.state.log id

/-- A release that is completed stays so. -/
def KeepsCompleted (w : SnapshotWorld) (_ : Move Delivery Choice) (w' : SnapshotWorld) : Prop :=
  ∀ id, CompletedIn w.state.outcomes id → CompletedIn w'.state.outcomes id

theorem perform_putOutcomes {d : Delivery} {s s' : SnapshotState} {os : List ReleaseExtractionOutcome}
    {c : Choice} {r : Except PipelineError Unit}
    (h : perform env d s (.putOutcomes os) c = some (r, s')) :
    s' = s ∨ (∀ e, c ≠ .lost e) ∧ s'.outcomes = putOutcomes s.outcomes os ∧
      s'.log = (d, .stored os) :: s.log := by
  rcases perform_settled (fun c => by cases c <;> rfl) h with ⟨-, he⟩ | ⟨hc, r', he⟩
  · cases he
    exact .inl rfl
  · obtain ⟨-, rfl⟩ := Prod.mk.inj (Option.some.inj he)
    exact .inr ⟨hc, rfl, rfl⟩

/-- A step stores a batch, or leaves the stored outcomes and what is said of them alone. -/
theorem step_stored {w w' : SnapshotWorld} {m : Move Delivery Choice}
    (h : (pipelineSystem env (anyOrder allowed)).step w m = some w') :
    (∃ i c t os k, m = .go i c ∧ (∀ e, c ≠ .lost e) ∧
      w.procs[i]? = some (t, .op (.putOutcomes os) k) ∧
      w'.state.outcomes = putOutcomes w.state.outcomes os ∧
      w'.state.log = (t, .stored os) :: w.state.log) ∨
    w'.state.outcomes = w.state.outcomes ∧
      ∀ x ∈ w'.state.log, ∀ os, x.2 = .stored os → x ∈ w.state.log := by
  rcases step_anyOrder h with ⟨i, c, t, o, k, r, rfl, hi, hp⟩ | hsame
  · by_cases hput : ∃ os, o = .putOutcomes os
    · obtain ⟨os, rfl⟩ := hput
      rcases perform_putOutcomes hp with hs | ⟨hc, houtcomes, hlog⟩
      · rw [hs]
        exact .inr ⟨rfl, fun x hx _ _ => hx⟩
      · exact .inl ⟨i, c, t, os, k, rfl, hc, hi, houtcomes, hlog⟩
    · refine .inr ⟨(perform_frame hp).outcomes fun os ho => hput ⟨os, ho⟩, fun x hx os he => ?_⟩
      obtain ⟨es, hlog, hes⟩ := perform_log hp
      rw [hlog] at hx
      refine (List.mem_append.1 hx).resolve_left fun hx => ?_
      obtain ⟨e, hmem, rfl⟩ := List.mem_map.1 hx
      subst he
      have := hes _ hmem
      cases o <;> simp only [Op.logs, reduceCtorEq, or_self] at this
      exact hput ⟨_, rfl⟩
  · rw [hsame.outcomes, hsame.log]
    exact .inr ⟨rfl, fun x hx _ _ => hx⟩

/-- A step that stores only fresh outcomes keeps what is completed: the delivery's copy
knew what was completed when it read, and nothing it takes back was completed since. -/
theorem keepsCompleted_of_fresh (hallowed : ChecksCheckpoints allowed) {w w' : SnapshotWorld}
    {m : Move Delivery Choice} (hw : (converging env allowed init).Valid w)
    (hfresh : FreshStores w m w') (h : (pipelineSystem env (anyOrder allowed)).step w m = some w') :
    KeepsCompleted w m w' := by
  intro id hid
  rcases step_stored h with ⟨i, c, t, os, k, rfl, hc, hi, houtcomes, hlog⟩ | ⟨houtcomes, -⟩
  · rw [houtcomes, completedIn_putOutcomes]
    cases hleft : outcomeOf id (putOutcomes [] os) with
    | none => exact .inr ⟨rfl, hid⟩
    | some o =>
      left
      have hcompleted : o.isCompleted = true := by
        by_contra hfailed
        have hfailed : o.isCompleted = false := by simpa using hfailed
        have hfits : Justified (StoredFits init) w'.state.log :=
          (hw.step (converging_sound hallowed) h).inv.fits
        rw [hlog] at hfits
        obtain ⟨since, past, hread, hos⟩ := hfits.1
        obtain ⟨d, hpast, hd⟩ := hread
        rw [hw.inv.replay, hpast, show since ++ (d, .opened) :: past = (since ++ [(d, .opened)]) ++ past
          by simp] at hid
        rcases completedIn_replay hid with hold | ⟨x, hx, hc'⟩
        · have hmem : o ∈ os := by
            have := hleft
            unfold outcomeOf putOutcomes at this
            rw [get?_putAll] at this
            simp only [get?, List.find?_nil, Option.or_none] at this
            exact List.mem_reverse.1 (mem_of_get? this)
          exact hos o hmem hfailed ((key_of_get? hleft).symm ▸ hold)
        · rcases List.mem_append.1 hx with hx | hx
          · exact hfresh i c t os k rfl hc hi id o hleft hfailed ⟨since, past, ⟨d, hpast, hd⟩, x, hx, hc'⟩
          · rw [List.mem_singleton.1 hx] at hc'
            obtain ⟨os', he, -⟩ := hc'
            cases he
      simp [CompletedIn, hleft, hcompleted]
  · rw [houtcomes]
    exact hid

/-- Everything that was ever completed is completed now. -/
def StillCompleted (s : SnapshotState) : Prop :=
  ∀ x ∈ s.log, ∀ id, Completes x.2 id → CompletedIn s.outcomes id

theorem StillCompleted.step {w w' : SnapshotWorld} {m : Move Delivery Choice}
    (hw : StillCompleted w.state) (hkeeps : KeepsCompleted w m w')
    (h : (pipelineSystem env (anyOrder allowed)).step w m = some w') : StillCompleted w'.state := by
  rintro x hx id ⟨os, he, hos⟩
  rcases step_stored h with ⟨i, c, t, os', k, rfl, hc, hi, houtcomes, hlog⟩ | ⟨houtcomes, hstored⟩
  · rw [hlog] at hx
    rcases List.mem_cons.1 hx with rfl | hx
    · cases he
      rw [houtcomes, completedIn_putOutcomes]
      exact .inl hos
    · exact hkeeps id (hw x hx id ⟨os, he, hos⟩)
  · exact hkeeps id (hw x (hstored x hx os he) id ⟨os, he, hos⟩)

theorem freshStores_of_keeps {w w' : SnapshotWorld} {m : Move Delivery Choice}
    (hw : StillCompleted w.state) (hkeeps : KeepsCompleted w m w')
    (h : (pipelineSystem env (anyOrder allowed)).step w m = some w') : FreshStores w m w' := by
  rintro i c t os k rfl hc hi id o hleft hfailed ⟨since, past, ⟨d, hlog, -⟩, x, hx, hcompletes⟩
  have hid : CompletedIn w.state.outcomes id :=
    hw x (hlog ▸ List.mem_append_left _ hx) id hcompletes
  have hafter := hkeeps id hid
  obtain ⟨t', o', k', r, s, hi', hp, rfl⟩ := System.step_go h
  obtain ⟨rfl, hk⟩ := Prod.mk.inj (Option.some.inj (hi.symm.trans hi'))
  cases hk
  rcases perform_settled (fun c => by cases c <;> rfl) hp with ⟨⟨e, he⟩, -⟩ | ⟨-, r', he⟩
  · exact hc e he
  · obtain ⟨-, rfl⟩ := Prod.mk.inj (Option.some.inj he)
    rcases completedIn_putOutcomes.1 hafter with h' | ⟨h', -⟩
    · simp [CompletedIn, hleft, hfailed] at h'
    · rw [hleft] at h'
      cases h'

/-- A run keeps every completed release exactly when none of its deliveries stores a
failure for a release that was completed since the delivery read. -/
theorem completed_kept_iff_fresh (hallowed : ChecksCheckpoints allowed) {s : SnapshotState}
    (hs : s.log = []) (ms : List (Move Delivery Choice)) :
    (pipelineSystem env (anyOrder allowed)).Along KeepsCompleted (World.idle s) ms ↔
      (pipelineSystem env (anyOrder allowed)).Along FreshStores (World.idle s) ms := by
  constructor
  · refine System.Along.transfer (I := fun w => StillCompleted w.state)
      (fun w m w' hi hp h => ⟨freshStores_of_keeps hi hp h, hi.step hp h⟩) fun x hx => ?_
    rw [show (World.idle s : SnapshotWorld).state.log = [] from hs] at hx
    cases hx
  · refine System.Along.transfer (I := (converging env allowed s.outcomes).Valid)
      (fun w m w' hi hp h => ⟨keepsCompleted_of_fresh hallowed hi hp h,
        hi.step (converging_sound hallowed) h⟩) (Contract.valid_idle ?_)
    refine ⟨by rw [hs]; rfl, fun pid ⟨since, past, d, hlog, _⟩ => ?_, fun d job hmem => ?_, ?_⟩
    · rw [hs] at hlog
      simp at hlog
    · rw [hs] at hmem
      cases hmem
    · rw [hs]
      trivial

instance (w : SnapshotWorld) (m : Move Delivery Choice) (w' : SnapshotWorld) :
    Decidable (KeepsCompleted w m w') :=
  decidable_of_iff (∀ o ∈ w.state.outcomes, CompletedIn w.state.outcomes o.outcomeReleaseId →
      CompletedIn w'.state.outcomes o.outcomeReleaseId) <| by
    refine ⟨fun h id hid => ?_, fun h o _ => h o.outcomeReleaseId⟩
    obtain ⟨o, ho, -⟩ := (Option.any_eq_true _ _).1 hid
    have hkey := key_of_get? ho
    exact hkey ▸ h o (mem_of_get? ho) (hkey ▸ hid)

/-- Chunk deliveries and their checkpoints, in any order and number. -/
def chunkDeliveries (s : SnapshotState) : Work → Bool
  | .stage (.chunk _) => true
  | .checkpoint delivery .. => s.log.any fun x =>
    match x.2 with
    | .extracting _ => x.1.pid = delivery
    | _ => false
  | _ => false

theorem checks_chunkDeliveries : ChecksCheckpoints chunkDeliveries := by
  intro s delivery job batch h
  obtain ⟨⟨d, e⟩, hx, he⟩ := List.any_eq_true.1 h
  cases e with
  | extracting job' => exact ⟨d, job', hx, of_decide_eq_true he⟩
  | _ => cases he

/-- One delivery that reads one release of two. -/
def quietRun : { ms // (pipelineSystem sampleEnv (anyOrder chunkDeliveries)).Along KeepsCompleted
    (World.idle (indexed ["a", "b"])) ms } :=
  ⟨.start ⟨0, .stage (.chunk (sampleChunk ["a", "b"]))⟩ ::
    awaits 0 (openings ++ .done :: .outcomes [sampleRead "a", sampleMiss "b"] :: List.replicate 5 .done),
    by decide +kernel⟩

theorem completed_kept_quiet : (pipelineSystem sampleEnv (anyOrder chunkDeliveries)).Along FreshStores
    (World.idle (indexed ["a", "b"])) quietRun.1 :=
  (completed_kept_iff_fresh checks_chunkDeliveries rfl quietRun.1).1 quietRun.2

/-- The lock of the first delivery expires after its read; a second delivery of the chunk
completes the release; then the first one fails on it. -/
def overlappingRun : { ms //
    ((pipelineSystem sampleEnv (anyOrder chunkDeliveries)).run (World.idle (indexed ["a"])) ms).isSome ∧
      ¬ (pipelineSystem sampleEnv (anyOrder chunkDeliveries)).Along KeepsCompleted
        (World.idle (indexed ["a"])) ms } :=
  ⟨.start ⟨0, .stage (.chunk (sampleChunk ["a"]))⟩ :: awaits 0 openings ++
    .env .lockExpired :: .start ⟨1, .stage (.chunk (sampleChunk ["a"]))⟩ ::
    awaits 1 (openings ++ .done :: .outcomes [sampleRead "a"] :: List.replicate 5 .done) ++
    awaits 0 (.done :: .outcomes [sampleMiss "a"] :: List.replicate 5 .done), by decide +kernel⟩

theorem completed_taken_back : ∃ ms,
    ((pipelineSystem sampleEnv (anyOrder chunkDeliveries)).run (World.idle (indexed ["a"])) ms).isSome ∧
      ¬ (pipelineSystem sampleEnv (anyOrder chunkDeliveries)).Along KeepsCompleted
        (World.idle (indexed ["a"])) ms := ⟨_, overlappingRun.2⟩

end CatalogSentinel.Distrokid
