import CatalogSentinel.Distrokid.Chunking
import CatalogSentinel.Distrokid.CompletedOutcomes
import CatalogSentinel.Distrokid.JobChain

/-!
What a completed chunk stands for. A pass is planned once, by one planner at a time,
from releases that the catalogue index or a stored outcome names; chunk jobs carry the
chunks of that plan; and a chunk is marked behind the store of its outcomes. So the
releases of a marked chunk have outcomes, and a chunk delivery sends a pass to its
reconciliation once the chunks of its durable plan are marked, all of them.
-/

namespace CatalogSentinel.Distrokid

open CatalogSentinel.Data CatalogSentinel.Concurrent

/-! ### Planners -/

/-- The pass that a delivery of the job plans. -/
def StageJob.planned : StageJob → Option ℕ
  | .plan _ => some INITIAL_PASS
  | .retry job => some job.attempt
  | _ => none

/-- The pass that a process plans. A recovery plans the first pass. -/
def Work.planned : Work → Option ℕ
  | .stage job => job.planned
  | .attempt entry => entry.job.planned
  | .recover _ => some INITIAL_PASS
  | _ => none

/-- The process runs the chunk stage. -/
def Delivery.runsChunk (d : Delivery) : Bool :=
  match d.work.job? with
  | some (.chunk _) => true
  | _ => false

/-- Jobs of the snapshot in any order and number, but one planner of a pass at a time. -/
def onePlanner (j₀ : CatalogIndexJob) : Scheduler :=
  { anyOrder (descends j₀) with
    start := fun s ts d =>
      if ∀ u ∈ ts, d.work.planned.isSome → u.work.planned ≠ d.work.planned
      then (anyOrder (descends j₀)).start s ts d else none }

/-- Nothing has been planned, extracted or enqueued yet. -/
structure Unplanned (catalogue : List ReleaseRefRecord) (s : SnapshotState) : Prop where
  index : s.index = [] ∨ s.index = catalogue
  plans : ∀ pass, s.plans pass = none
  chunks : s.chunks = []
  log : s.log = []

/-! ### Lists of releases -/

theorem mem_chunkReleases {α : Type} {items chunk : List α} {size : ChunkSize}
    {chunks : List (List α)} (h : chunkReleases items size = some chunks) (hchunk : chunk ∈ chunks) {x : α}
    (hx : x ∈ chunk) : x ∈ items := by
  cases size with
  | infinite =>
    cases h
    cases hchunk
  | finite size =>
    obtain ⟨i, -, rfl⟩ := mem_chunkLoop h hchunk
    exact List.mem_of_mem_take (List.mem_of_mem_drop hx)

/-- A delivery stores an outcome for each release that it has extracted one of. -/
theorem convergeBatch_ids (existing batch : List ReleaseExtractionOutcome) :
    (convergeBatch existing batch).1.map (·.outcomeReleaseId) = batch.map (·.outcomeReleaseId) := by
  induction batch generalizing existing with
  | nil => rfl
  | cons incoming batch ih => simp [convergeBatch, ih, converged_id]

/-- A release of the chunk is read, or it has an outcome among the ones that were found. -/
theorem mem_todo {index : List ReleaseRefRecord} {existing : List ReleaseExtractionOutcome}
    {releaseIds : List String} {id : String} (hid : id ∈ releaseIds)
    (hindex : id ∈ index.map (·.releaseId)) :
    id ∈ ((refsOf index releaseIds).filter (isTodo existing)).map (·.releaseId) ∨
      id ∈ existing.map (·.outcomeReleaseId) := by
  have hput : id ∈ (putAll ReleaseRefRecord.releaseId [] index).map (·.releaseId) := by
    simpa [mem_keys_putAll] using hindex
  obtain ⟨ref, href⟩ := Option.isSome_iff_exists.1 (get?_isSome.2 hput)
  have hkey : ref.releaseId = id := key_of_get? href
  by_cases htodo : isTodo existing ref = true
  · left
    refine List.mem_map.2 ⟨ref, List.mem_filter.2 ⟨List.mem_filterMap.2 ⟨id, hid, href⟩, htodo⟩, hkey⟩
  · right
    cases hold : outcomeOf id existing with
    | none => simp [isTodo, hkey, hold] at htodo
    | some o => exact List.mem_map.2 ⟨o, mem_of_get? hold, key_of_get? hold⟩

theorem mem_of_nextChunk {plan : List (List String)} {done : List ℕ} (h : nextChunk plan done = none)
    {i : ℕ} (hi : i < plan.length) : i ∈ done := by
  have hnone := List.find?_eq_none.1 h i (List.mem_range.2 hi)
  simpa using hnone

theorem nextChunk_lt {plan : List (List String)} {done : List ℕ} {next : ℕ}
    (h : nextChunk plan done = some next) : next < plan.length :=
  List.mem_range.1 (List.mem_of_find?_eq_some h)

/-! ### The invariant -/

namespace SnapshotState

variable (s : SnapshotState)

def HasOutcome (id : String) : Prop := id ∈ s.outcomes.map (·.outcomeReleaseId)

def Names (id : String) : Prop := id ∈ s.index.map (·.releaseId) ∨ s.HasOutcome id

/-- The chunk of the job is a chunk of the durable plan of its pass. -/
def Cut (job : ReleaseChunkJob) : Prop :=
  ∃ pass plan, job.pass = some pass ∧ s.plans pass = some plan ∧
    plan[job.chunkIndex]? = some job.releaseIds

/-- Every chunk of the pass's durable plan is marked complete. -/
def AllMarked (pass : ℕ) : Prop :=
  ∃ plan, s.plans pass = some plan ∧ ∀ i < plan.length, (pass, i) ∈ s.chunks

end SnapshotState

structure ChunkInv (catalogue : List ReleaseRefRecord) (s : SnapshotState) : Prop where
  index : s.index = [] ∨ s.index = catalogue
  named : ∀ pass plan, s.plans pass = some plan → ∀ chunk ∈ plan, ∀ id ∈ chunk, s.Names id
  jobs : ∀ d job, (d, .enqueued (.chunk job)) ∈ s.log → s.Cut job
  marked : ∀ pass i, (pass, i) ∈ s.chunks → ∃ plan chunk, s.plans pass = some plan ∧
    plan[i]? = some chunk ∧ ∀ id ∈ chunk, s.HasOutcome id
  reconciled : ∀ d job, (d, .enqueued (.reconcile job)) ∈ s.log → d.runsChunk = true →
    ∃ pass, job.pass = some pass ∧ s.AllMarked pass

/-- What no step takes back. -/
structure ChunkGrows (s s' : SnapshotState) : Prop where
  index : ∀ id ∈ s.index.map (·.releaseId), id ∈ s'.index.map (·.releaseId)
  outcomes : ∀ id, s.HasOutcome id → s'.HasOutcome id
  plans : ∀ pass plan, s.plans pass = some plan → s'.plans pass = some plan
  chunks : ∀ c ∈ s.chunks, c ∈ s'.chunks

namespace ChunkGrows

variable {s s' s'' : SnapshotState}

theorem refl (s : SnapshotState) : ChunkGrows s s :=
  ⟨fun _ h => h, fun _ h => h, fun _ _ h => h, fun _ h => h⟩

theorem trans (h : ChunkGrows s s') (h' : ChunkGrows s' s'') : ChunkGrows s s'' where
  index id hid := h'.index id (h.index id hid)
  outcomes id hid := h'.outcomes id (h.outcomes id hid)
  plans pass plan hp := h'.plans pass plan (h.plans pass plan hp)
  chunks c hc := h'.chunks c (h.chunks c hc)

theorem names (h : ChunkGrows s s') {id : String} (hid : s.Names id) : s'.Names id :=
  hid.imp (h.index id) (h.outcomes id)

theorem cut (h : ChunkGrows s s') {job : ReleaseChunkJob} (hjob : s.Cut job) : s'.Cut job := by
  obtain ⟨pass, plan, hpass, hplan, hchunk⟩ := hjob
  exact ⟨pass, plan, hpass, h.plans pass plan hplan, hchunk⟩

theorem allMarked (h : ChunkGrows s s') {pass : ℕ} (hpass : s.AllMarked pass) :
    s'.AllMarked pass := by
  obtain ⟨plan, hplan, hmarked⟩ := hpass
  exact ⟨plan, h.plans pass plan hplan, fun i hi => h.chunks _ (hmarked i hi)⟩

end ChunkGrows

/-- The invariant of a grown state, from what is new in it. -/
theorem ChunkInv.grow {catalogue : List ReleaseRefRecord} {s s' : SnapshotState}
    (hs : ChunkInv catalogue s) (hg : ChunkGrows s s') (hindex : s'.index = [] ∨ s'.index = catalogue)
    (hplans : ∀ pass plan, s'.plans pass = some plan → s.plans pass = some plan ∨
      ∀ chunk ∈ plan, ∀ id ∈ chunk, s.Names id)
    (hchunks : ∀ pass i, (pass, i) ∈ s'.chunks → (pass, i) ∈ s.chunks ∨
      ∃ plan chunk, s.plans pass = some plan ∧ plan[i]? = some chunk ∧ ∀ id ∈ chunk, s.HasOutcome id)
    (hlog : ∀ d e, (d, e) ∈ s'.log → (d, e) ∈ s.log ∨ (∀ job, e = .enqueued (.chunk job) → s.Cut job) ∧
      ∀ job, e = .enqueued (.reconcile job) → d.runsChunk = true →
        ∃ pass, job.pass = some pass ∧ s.AllMarked pass) : ChunkInv catalogue s' where
  index := hindex
  named pass plan hplan chunk hchunk id hid := hg.names <| by
    rcases hplans pass plan hplan with hold | hnew
    · exact hs.named pass plan hold chunk hchunk id hid
    · exact hnew chunk hchunk id hid
  jobs d job hjob := hg.cut <| by
    rcases hlog d _ hjob with hold | ⟨hnew, -⟩
    · exact hs.jobs d job hold
    · exact hnew job rfl
  marked pass i hi := by
    have hmarked : ∃ plan chunk, s.plans pass = some plan ∧ plan[i]? = some chunk ∧
        ∀ id ∈ chunk, s.HasOutcome id := (hchunks pass i hi).elim (hs.marked pass i) id
    obtain ⟨plan, chunk, hplan, hchunk, hids⟩ := hmarked
    exact ⟨plan, chunk, hg.plans pass plan hplan, hchunk, fun id hid => hg.outcomes id (hids id hid)⟩
  reconciled d job hjob hd := by
    have hall : ∃ pass, job.pass = some pass ∧ s.AllMarked pass := by
      rcases hlog d _ hjob with hold | ⟨-, hnew⟩
      · exact hs.reconciled d job hold hd
      · exact hnew job rfl hd
    obtain ⟨pass, hpass, hmarked⟩ := hall
    exact ⟨pass, hpass, hg.allMarked hmarked⟩

/-- A property that no step takes back. -/
class Lasts (P : SnapshotState → Prop) : Prop where
  grow : ∀ s s', ChunkGrows s s' → P s → P s'

section Lasts

variable {P Q : SnapshotState → Prop} {ι : Sort*} {F : ι → SnapshotState → Prop}

instance (p : Prop) : Lasts fun _ => p := ⟨fun _ _ _ h => h⟩

instance [hP : Lasts P] [hQ : Lasts Q] : Lasts fun s => P s ∧ Q s :=
  ⟨fun s s' hg h => ⟨hP.grow s s' hg h.1, hQ.grow s s' hg h.2⟩⟩

instance [hP : Lasts P] [hQ : Lasts Q] : Lasts fun s => P s ∨ Q s :=
  ⟨fun s s' hg h => h.imp (hP.grow s s' hg) (hQ.grow s s' hg)⟩

instance [hF : ∀ i, Lasts (F i)] : Lasts fun s => ∀ i, F i s :=
  ⟨fun s s' hg h i => (hF i).grow s s' hg (h i)⟩

instance [hF : ∀ i, Lasts (F i)] : Lasts fun s => ∃ i, F i s :=
  ⟨fun s s' hg h => h.imp fun i hi => (hF i).grow s s' hg hi⟩

instance (job : ReleaseChunkJob) : Lasts fun s => s.Cut job := ⟨fun _ _ hg h => hg.cut h⟩

instance (id : String) : Lasts fun s => s.HasOutcome id := ⟨fun _ _ hg h => hg.outcomes id h⟩

instance (id : String) : Lasts fun s => s.Names id := ⟨fun _ _ hg h => hg.names h⟩

instance (pass : ℕ) (plan : List (List String)) : Lasts fun s => s.plans pass = some plan :=
  ⟨fun _ _ hg h => hg.plans pass plan h⟩

instance (c : ℕ × ℕ) : Lasts fun s => c ∈ s.chunks := ⟨fun _ _ hg h => hg.chunks c h⟩

end Lasts

/-! ### The contract -/

/-- One snapshot's pipeline, whose index reader answers one catalogue and whose extractor
answers one outcome for each release that it is asked for. -/
structure Reading where
  env : Env
  j₀ : CatalogIndexJob
  catalogue : List ReleaseRefRecord
  reads : env.catalogue = some catalogue
  extracts : env.oneOutcomePerRef = true

/-- A planner's pass is planned by nobody else while it runs. -/
def chunking (D : Reading) : Contract (pipelineSystem D.env (onePlanner D.j₀)) where
  inv := ChunkInv D.catalogue
  own t s := ∀ job, t.work.job? = some (.chunk job) → s.Cut job
  rely t s s' := ChunkGrows s s' ∧ ∀ pass, t.work.planned = some pass → s'.plans pass = s.plans pass
  grows := ChunkGrows
  apart t u := ∀ pass, t.work.planned = some pass → u.work.planned ≠ some pass
  post _ _ _ := True
  rely_refl _ s := ⟨ChunkGrows.refl s, fun _ _ => rfl⟩
  rely_trans _ _ _ _ h h' :=
    ⟨h.1.trans h'.1, fun pass hp => (h'.2 pass hp).trans (h.2 pass hp)⟩
  rely_grows _ _ _ h := h.1
  rely_own _ _ _ h _ ho := fun job hj => h.1.cut (ho job hj)

variable {D : Reading} {t : Delivery} {α : Type} {P R : SnapshotState → Prop}

theorem stable_lasts [hP : Lasts P] : (chunking D).Stable t P := fun s s' hr _ => hP.grow s s' hr.1

/-- From a state where the first fact holds, the program keeps the contract and returns where
the second does. -/
abbrev Goes (D : Reading) (t : Delivery) (P : SnapshotState → Prop) (p : Pipe α)
    (Q : α → SnapshotState → Prop) : Prop := (chunking D).Triple t P p Q fun _ _ => True

/-- The program keeps the contract and, however it ends, the fact. -/
def ChunkKeeps (D : Reading) (t : Delivery) (R : SnapshotState → Prop) (p : Pipe α) : Prop :=
  (chunking D).Triple t R p (fun _ => R) fun _ => R

/-- A step that grows the state, and touches no plan but that of its own pass. -/
theorem chunking_keeps {s s' : SnapshotState} (hown : (chunking D).own t s)
    (hi : ChunkInv D.catalogue s') (hg : ChunkGrows s s')
    (hplans : ∀ pass, t.work.planned ≠ some pass → s'.plans pass = s.plans pass) :
    (chunking D).Keeps t s s' := by
  refine ⟨hi, fun job hj => hg.cut (hown job hj), hg, fun u hu => ⟨hg, fun pass hp => ?_⟩⟩
  apply hplans
  intro ht
  exact hu pass ht hp

/-- Events that enqueue no chunk, and no reconciliation from the chunk stage. -/
def Event.chainsNoChunk (d : Delivery) : Event → Bool
  | enqueued (.chunk _) => false
  | enqueued (.reconcile _) => !d.runsChunk
  | _ => true

/-- The operations that write no index, plan or mark, and enqueue no chunk and no
reconciliation from the chunk stage. -/
def Op.chainsNoChunk (d : Delivery) : Op → Bool
  | putIndex _ => false
  | markChunkComplete .. => false
  | putPassPlan .. => false
  | enqueue job _ => Event.chainsNoChunk d (.enqueued job)
  | _ => true

theorem Op.logs_chainsNoChunk {d : Delivery} {o : Op} (ho : o.chainsNoChunk d) {e : Event}
    (h : o.logs e) : e.chainsNoChunk d := by
  cases o
  case enqueue job _ =>
    cases h
    exact ho
  case getOutcomes => cases e <;> first | rfl | cases h
  case persistSnapshot => rcases h with rfl | rfl <;> rfl
  all_goals
    simp only [Op.logs] at h
    try
      subst h
      rfl

/-- No operation forgets the outcome of a release. -/
theorem hasOutcome_perform {s s' : SnapshotState} {o : Op} {c : Choice}
    {r : Except PipelineError o.Ans} (h : perform D.env t s o c = some (r, s')) {id : String}
    (hid : s.HasOutcome id) : s'.HasOutcome id := by
  by_cases hput : ∃ os, o = .putOutcomes os
  · obtain ⟨os, rfl⟩ := hput
    rcases perform_putOutcomes h with rfl | ⟨-, houtcomes, -⟩
    · exact hid
    · rw [SnapshotState.HasOutcome, houtcomes]
      exact mem_keys_putAll.2 (.inl hid)
  · rw [SnapshotState.HasOutcome, (perform_frame h).outcomes fun os ho => hput ⟨os, ho⟩]
    exact hid

theorem calm_chainsNoChunk {o : Op} (ho : o.chainsNoChunk t) : (chunking D).Calm t o := by
  intro s c r s' hi hown hp
  have hframe := perform_frame hp
  have hindex : s'.index = s.index := hframe.index fun rs he => by subst he; cases ho
  have hchunks : s'.chunks = s.chunks := hframe.chunks fun pass i he => by subst he; cases ho
  have hplans : s'.plans = s.plans := hframe.plans fun pass plan he => by subst he; cases ho
  have hg : ChunkGrows s s' :=
    ⟨fun id hid => hindex ▸ hid, fun id hid => hasOutcome_perform hp hid,
      fun pass plan h => hplans ▸ h, fun c hc => hchunks ▸ hc⟩
  refine chunking_keeps hown ?_ hg fun pass _ => by rw [hplans]
  refine ChunkInv.grow hi hg (hindex ▸ hi.index) (fun pass plan h => .inl (hplans ▸ h))
    (fun pass i h => .inl (hchunks ▸ h)) fun d e he => ?_
  obtain ⟨es, hlog, hes⟩ := perform_log hp
  rw [hlog] at he
  refine (List.mem_append.1 he).symm.imp id fun hnew => ?_
  obtain ⟨e', hmem, heq⟩ := List.mem_map.1 hnew
  cases heq
  have hquiet := Op.logs_chainsNoChunk ho (hes e hmem)
  refine ⟨fun job hjob => ?_, fun job hjob ht => ?_⟩
  · subst hjob
    cases hquiet
  · subst hjob
    simp [Event.chainsNoChunk, ht] at hquiet

/-! ### Rules -/

theorem chunkKeeps_read (hR : (chunking D).Stable t R) {o : Op} (ho : o.isRead) :
    ChunkKeeps D t R (await o) := by
  refine Contract.triple_call hR (fun r => by cases r <;> exact hR) fun s c r s' hi hown hs hp => ?_
  obtain rfl : s' = s := perform_read ho hp
  exact ⟨Contract.Keeps.refl hi hown, by cases r <;> exact hs⟩

theorem Op.chainsNoChunk_of_isRoutine {o : Op} (ho : o.isRoutine) : o.chainsNoChunk t := by
  cases o <;> first | rfl | cases ho

theorem chunkKeeps (hR : (chunking D).Stable t R) :
    CheckProperty fun {α} (p : Pipe α) => ChunkKeeps D t R p where
  toCompositional := Contract.compositional_triple hR
  read ho := chunkKeeps_read hR (Op.isRead_of_isQuiet ho)

theorem keeps_calm [hR : Lasts R] {o : Op} (ho : o.chainsNoChunk t) : ChunkKeeps D t R (await o) :=
  Contract.triple_true_of_calm (Prog.calls_call (calm_chainsNoChunk ho)) hR.grow

/-- What goes on from a lasting fact keeps it. -/
theorem keeps [Lasts R] : StageProperty fun {α} (p : Pipe α) => ChunkKeeps D t R p where
  toCompositional := Contract.compositional_triple stable_lasts
  routine ho := keeps_calm (Op.chainsNoChunk_of_isRoutine ho)

theorem Goes.keeps [hR : Lasts R] {p : Pipe α} (h : Goes D t R p fun _ _ => True) : ChunkKeeps D t R p :=
  (Contract.Triple.frame h hR.grow).consequence (fun _ _ h => ⟨h, h⟩) (fun _ _ _ h => h.2)
    fun _ _ _ h => h.2

theorem ChunkKeeps.goes {p : Pipe α} (h : ChunkKeeps D t R p) : Goes D t R p fun _ => R :=
  h.consequence (fun _ _ h => h) (fun _ _ _ h => h) fun _ _ _ _ => trivial

/-- The operations that only the state settles, and whose lost call leaves no trace. -/
def Op.byState : Op → Bool
  | now | nowIso | aborted | random _ | readCatalogIndex _ | extracted .. | acquireLock | persistSnapshot ..
  | diverge => false
  | _ => true

theorem answer_byState {o : Op} (ho : o.byState) (c : Choice) : answer D.env o c = none := by
  cases o <;> first | (cases c <;> rfl) | cases ho

theorem attempted_byState {o : Op} (ho : o.byState) (s : SnapshotState) : attempted t s o = some s := by
  cases o <;> first | rfl | cases ho

theorem goes_state {o : Op} (ho : o.byState) {Q : o.Ans → SnapshotState → Prop} (hP : (chunking D).Stable t P)
    (hQ : ∀ a, (chunking D).Stable t (Q a))
    (heffect : ∀ s r s', ChunkInv D.catalogue s → (chunking D).own t s → P s →
      effect D.env t s o = some (r, s') → (chunking D).Keeps t s s' ∧ ∀ a, r = .ok a → Q a s') : Goes D t P (await o) Q := by
  refine triple_effect hP hQ (fun c => answer_byState ho c) heffect fun s s' hi hown _ he => ?_
  rw [attempted_byState ho] at he
  cases he
  exact Contract.Keeps.refl hi hown

/-- An operation that chains no chunk, and what its answer says. -/
theorem goes_observed {o : Op} (ho : o.byState) (hcalm : o.chainsNoChunk t) {Q : o.Ans → SnapshotState → Prop} [hP : Lasts P]
    [∀ a, Lasts (Q a)]
    (heffect : ∀ s a s', ChunkInv D.catalogue s → P s → P s' →
      effect D.env t s o = some (.ok a, s') → Q a s') : Goes D t P (await o) Q := by
  refine goes_state ho stable_lasts (fun a => stable_lasts) fun s r s' hi hown hs he => ?_
  have hk := calm_chainsNoChunk hcalm s .done r s' hi hown he
  refine ⟨hk, fun a ha => ?_⟩
  subst ha
  exact heffect s a s' hi hs (hP.grow s s' hk.grows hs) he

/-! ### The operations that chain -/

/-- What an enqueue leaves, however it ends. -/
theorem goes_enqueue [Lasts P] {job : StageJob} {d : ℕ}
    (hchunk : ∀ s j, job = .chunk j → P s → s.Cut j)
    (hreconcile : ∀ s j, job = .reconcile j → t.runsChunk = true → P s →
      ∃ pass, j.pass = some pass ∧ s.AllMarked pass) :
    Goes D t P (deps.enqueue job d) fun _ _ => True := by
  refine goes_state rfl stable_lasts (fun _ => stable_lasts) fun s r s' hi hown hs he => ?_
  obtain ⟨-, rfl⟩ := Prod.mk.inj (Option.some.inj he)
  have hg : ChunkGrows s ({ s with entries := addEntry s.entries job }.note t (.enqueued job)) :=
    ⟨fun _ h => h, fun _ h => h, fun _ _ h => h, fun _ h => h⟩
  refine ⟨chunking_keeps hown ?_ hg fun _ _ => rfl, fun _ _ => trivial⟩
  refine ChunkInv.grow hi hg hi.index (fun _ _ h => .inl h) (fun _ _ h => .inl h) fun u e hmem => ?_
  refine (List.mem_cons.1 hmem).symm.imp id fun hnew => ?_
  cases hnew
  exact ⟨fun j hj => hchunk s j (Event.enqueued.inj hj) hs,
    fun j hj ht => hreconcile s j (Event.enqueued.inj hj) ht hs⟩

theorem goes_enqueueChunk {job : ReleaseChunkJob} {d : ℕ} :
    Goes D t (fun s => s.Cut job) (deps.enqueue (.chunk job) d) fun _ _ => True := by
  refine goes_enqueue (fun s j hj h => ?_) fun s j hj => by cases hj
  cases hj
  exact h

/-- The chunk that the plan names next is a chunk of the plan. -/
theorem cut_chunkJob {s : SnapshotState} {job : SnapshotRef} {pass next : ℕ}
    {plan : List (List String)} {done : List ℕ} (hplan : s.plans pass = some plan)
    (hnext : nextChunk plan done = some next) : s.Cut (chunkJob job pass plan next) := by
  refine ⟨pass, plan, rfl, hplan, ?_⟩
  have hlt := nextChunk_lt hnext
  simp [chunkJob, List.getD, hlt]

/-- A planner's hop: the next chunk of a plan that is durable, if it has any. -/
theorem goes_enqueueNext {job : SnapshotRef} {pass next d : ℕ} {plan : List (List String)}
    {done : List ℕ} (hnext : nextChunk plan done = some next) :
    Goes D t (fun s => plan = [] ∨ s.plans pass = some plan)
      (deps.enqueue (.chunk (chunkJob job pass plan next)) d) fun _ _ => True := by
  have hlt := nextChunk_lt hnext
  refine (goes_enqueueChunk).pre fun s _ h => ?_
  rcases h with rfl | hplan
  · simp at hlt
  · exact cut_chunkJob hplan hnext

/-- A stage that runs no chunk reconciles as it likes. -/
theorem goes_enqueueReconcile {job : ReconcileJob} {d : ℕ} (ht : t.runsChunk = false) :
    Goes D t (fun _ => True) (deps.enqueue (.reconcile job) d) fun _ _ => True := by
  refine goes_enqueue (fun s j hj => by cases hj) fun s j hj hchunk => ?_
  rw [ht] at hchunk
  cases hchunk

/-! ### Planning a pass -/

/-- What a planner knows of its own pass stays so while the others run. -/
theorem stable_plans [hP : Lasts P] {pass : ℕ} (ht : t.work.planned = some pass)
    (plan : Option (List (List String))) :
    (chunking D).Stable t fun s => s.plans pass = plan ∧ P s :=
  fun s s' hr _ h => ⟨(hr.2 pass ht).trans h.1, hP.grow s s' hr.1 h.2⟩

/-- A plan of releases that have names, where there was none. -/
theorem ChunkInv.putPlan {s : SnapshotState} (hi : ChunkInv D.catalogue s) {pass : ℕ}
    {kept : Option (List (List String))} (hnone : s.plans pass = none)
    (hkept : ∀ plan, kept = some plan → ∀ id ∈ plan.flatten, s.Names id) :
    ChunkGrows s { s with plans := Function.update s.plans pass kept } ∧
      ChunkInv D.catalogue { s with plans := Function.update s.plans pass kept } := by
  have hg : ChunkGrows s { s with plans := Function.update s.plans pass kept } := by
    refine ⟨fun _ h => h, fun _ h => h, fun p plan hplan => ?_, fun _ h => h⟩
    have hp : p ≠ pass := by
      rintro rfl
      rw [hnone] at hplan
      cases hplan
    exact (Function.update_of_ne hp _ _).trans hplan
  refine ⟨hg, ChunkInv.grow hi hg hi.index (fun p plan hplan => ?_) (fun _ _ h => .inl h)
    fun _ _ h => .inl h⟩
  by_cases hp : p = pass
  · subst hp
    have hplan : kept = some plan := (Function.update_self p kept s.plans).symm.trans hplan
    exact .inr fun chunk hchunk id hid => hkept plan hplan id (List.mem_flatten.2 ⟨chunk, hchunk, hid⟩)
  · exact .inl ((Function.update_of_ne hp _ _).symm.trans hplan)

/-- A plan of releases that have names, put where there is none yet. -/
theorem goes_putPassPlan {pass : ℕ} {plan : List (List String)} (ht : t.work.planned = some pass) :
    Goes D t (fun s => s.plans pass = none ∧ ∀ id ∈ plan.flatten, s.Names id)
      (store.putPassPlan pass plan) fun _ s => plan = [] ∨ s.plans pass = some plan := by
  refine goes_state rfl (stable_plans ht none) (fun _ => stable_lasts) fun s r s' hi hown hs he => ?_
  obtain ⟨-, rfl⟩ := Prod.mk.inj (Option.some.inj he)
  have hkept : ∀ chunks, (if plan = [] ∧ D.env.keepsEmptyPlan = false then none else some plan) =
      some chunks → ∀ id ∈ chunks.flatten, s.Names id := by
    intro chunks hchunks
    split at hchunks
    · cases hchunks
    · cases hchunks
      exact hs.2
  obtain ⟨hg, hi'⟩ := hi.putPlan hs.1 hkept
  refine ⟨chunking_keeps hown hi' hg fun p hp => ?_, fun _ _ => ?_⟩
  · apply Function.update_of_ne
    rintro rfl
    exact hp ht
  · by_cases hempty : plan = []
    · exact .inl hempty
    · right
      simp [hempty]

/-- A pass is planned from releases that have names, and its plan is durable unless empty. -/
theorem goes_passPlan {job : SnapshotRef} {pass : ℕ} {ids : List String} {size : ChunkSize}
    (ht : t.work.planned = some pass) :
    Goes D t (fun s => ∀ id ∈ ids, s.Names id) (passPlan D.env job pass ids size)
      fun plan s => plan = [] ∨ s.plans pass = some plan := by
  have hread : Goes D t (fun s => ∀ id ∈ ids, s.Names id) (store.getPassPlan pass)
      fun plan s => s.plans pass = plan ∧ ∀ id ∈ ids, s.Names id := by
    refine goes_state rfl stable_lasts (stable_plans ht) fun s r s' hi hown hs he => ?_
    obtain ⟨rfl, rfl⟩ := Prod.mk.inj (Option.some.inj he)
    refine ⟨Contract.Keeps.refl hi hown, fun plan hplan => ⟨?_, hs⟩⟩
    cases hplan
    rfl
  refine hread.bind fun plan => ?_
  cases plan with
  | some plan =>
    exact Contract.triple_ret (stable_plans ht _) fun s _ h => .inr h.1
  | none =>
    have hopen : (chunking D).Stable t fun s => s.plans pass = none ∧ ∀ id ∈ ids, s.Names id :=
      stable_plans ht none
    cases hcut : chunkReleases ids size with
    | none =>
      refine Contract.Triple.bind (Q := fun _ _ => False) ?_ fun plan => ?_
      · refine (chunkKeeps_read hopen rfl).goes.bind fun _ => ?_
        exact Contract.triple_raise hopen fun _ _ _ => trivial
      · exact fun s _ _ h => h.elim
    | some plan =>
      have hchunks : ∀ id ∈ plan.flatten, id ∈ ids := by
        intro id hid
        obtain ⟨chunk, hchunk, hmem⟩ := List.mem_flatten.1 hid
        exact mem_chunkReleases hcut hchunk hmem
      refine Contract.Triple.bind (Q := fun plan' s => plan' = plan ∧ s.plans pass = none ∧
        ∀ id ∈ ids, s.Names id) ?_ fun plan' => ?_
      · exact Contract.triple_ret hopen fun _ _ h => ⟨rfl, h⟩
      · intro s hi hown h
        obtain ⟨rfl, hs⟩ := h
        refine ((chunkKeeps hopen).assertSnapshotCanContinue job).goes.bind (fun _ => ?_) s hi hown hs
        refine Contract.Triple.bind ((goes_putPassPlan ht).pre fun s _ h =>
          ⟨h.1, fun id hid => h.2 id (hchunks id hid)⟩) fun _ => ?_
        exact Contract.triple_ret stable_lasts fun _ _ h => h

/-! ### The planning stages -/

/-- The releases of the catalogue index that a planner reads have names. -/
theorem goes_getIndex : Goes D t (fun _ => True) store.getIndex
    fun index s => ∀ id ∈ index.map (·.releaseId), s.Names id := by
  refine goes_observed rfl rfl fun s index s' hi _ _ he => ?_
  cases he
  exact fun id hid => .inl hid

theorem goes_getOutcomes [Lasts P] : Goes D t P store.getOutcomes
    fun outcomes s => P s ∧ ∀ id ∈ outcomes.map (·.outcomeReleaseId), s.HasOutcome id := by
  refine goes_observed rfl rfl fun s outcomes s' hi _ hs he => ⟨hs, ?_⟩
  cases he
  exact fun id hid => hid

/-- A stage that plans runs no chunk. -/
theorem runsChunk_of_planned {pass : ℕ} (ht : t.work.planned = some pass) : t.runsChunk = false := by
  obtain ⟨pid, work⟩ := t
  cases work with
  | stage job => cases job <;> first | rfl | cases ht
  | attempt entry =>
    obtain ⟨id, job, status, attemptsMade, failedReason, progress⟩ := entry
    cases job <;> first | rfl | cases ht
  | _ => rfl

variable (D t) in
/-- The program keeps the contract. -/
abbrev Chunks (p : Pipe α) : Prop := ChunkKeeps D t (fun _ => True) p

/-- What keeps the contract does so from any fact. -/
theorem ChunkKeeps.anywhere {p : Pipe α} (h : Chunks D t p) : Goes D t P p fun _ _ => True :=
  h.consequence (fun _ _ _ => trivial) (fun _ _ _ _ => trivial) fun _ _ _ _ => trivial

theorem chunks_planChunks {job : PlanChunksJob} (ht : t.work.planned = some INITIAL_PASS) :
    Chunks D t (planChunks D.env job) := by
  refine goes_getIndex.bind fun index => (keeps.read rfl).goes.bind fun done => (goes_passPlan ht).bind fun plan => ?_
  refine (keeps.markRunning fun _ _ => keeps_calm rfl).goes.bind fun _ =>
    Contract.Triple.bind (Q := fun _ _ => True) ?_ fun _ => keeps.ret _
  unfold chainPlanned
  split
  · rename_i next hnext
    exact (keeps.assertSnapshotCanContinue job.toSnapshotRef).goes.bind fun _ => goes_enqueueNext hnext
  · exact (goes_enqueueReconcile (runsChunk_of_planned ht)).pre fun _ _ _ => trivial

theorem chunks_retryFailed {job : RetryFailedJob} (ht : t.work.planned = some job.attempt) :
    Chunks D t (retryFailed D.env job) := by
  refine goes_getIndex.bind fun index => goes_getOutcomes.bind fun outcomes => ?_
  have hreconcile : Goes D t (fun _ => True)
      (deps.enqueue (.reconcile (reconcileJob job.toSnapshotRef job.attempt)) 0) fun _ _ => True :=
    goes_enqueueReconcile (runsChunk_of_planned ht)
  dsimp only
  split
  · refine Contract.Triple.pre ?_ fun _ _ _ => trivial
    exact (keeps.assertSnapshotCanContinue _).bind fun _ => hreconcile.bind fun _ => keeps.ret _
  · refine Contract.Triple.bind ((goes_passPlan ht).pre fun s _ h id hid => ?_) fun plan => ?_
    · rcases retryable_known hid with hindex | houtcome
      · exact h.1 id hindex
      · exact .inr (h.2 id houtcome)
    refine (keeps.read rfl).goes.bind fun done =>
      Contract.Triple.bind (Q := fun _ _ => True) ?_ fun _ => keeps.ret _
    refine (keeps.assertSnapshotCanContinue job.toSnapshotRef).goes.bind fun _ => ?_
    split
    · rename_i next hnext
      exact goes_enqueueNext hnext
    · exact hreconcile.pre fun _ _ _ => trivial

/-- The index is the catalogue, or it has not been read yet. -/
theorem goes_putIndex (releases : List ReleaseRefRecord) :
    Goes D t (fun _ => releases = D.catalogue) (store.putIndex releases) fun _ _ => True := by
  refine goes_state rfl stable_lasts (fun _ => stable_lasts) fun s r s' hi hown hs he => ?_
  obtain ⟨-, rfl⟩ := Prod.mk.inj (Option.some.inj he)
  have hg : ChunkGrows s { s with index := releases } := by
    refine ⟨fun id hid => ?_, fun _ h => h, fun _ _ h => h, fun _ h => h⟩
    rcases hi.index with hindex | hindex
    · rw [hindex] at hid
      cases hid
    · rw [hindex, ← hs] at hid
      exact hid
  refine ⟨chunking_keeps hown ?_ hg fun _ _ => rfl, fun _ _ => trivial⟩
  exact ChunkInv.grow hi hg (.inr hs) (fun _ _ h => .inl h) (fun _ _ h => .inl h) fun _ _ h => .inl h

/-- The index reader answers the catalogue. -/
theorem goes_readCatalogIndex (job : CatalogIndexJob) :
    Goes D t (fun _ => True) (deps.readCatalogIndex job) fun releases _ => releases = D.catalogue := by
  refine Contract.triple_call (fun _ _ _ _ h => h) (fun r => by cases r <;> exact fun _ _ _ _ h => h)
    fun s c r s' hi hown _ hp => ?_
  obtain rfl : s' = s := perform_read rfl hp
  refine ⟨Contract.Keeps.refl hi hown, ?_⟩
  rcases perform_cases hp with he | ⟨e, r', -, he, -⟩ | ⟨e, -, -, rfl⟩ | ⟨a, c', ha, -, rfl⟩
  · cases he
  · cases he
  · trivial
  · cases c' <;> simp only [answer, reduceCtorEq] at ha
    rw [D.reads] at ha
    split at ha
    · rename_i hall
      cases ha
      have hall : D.catalogue = a := by simpa using hall
      exact hall.symm
    · cases ha

theorem chunks_catalogIndexWork (job : CatalogIndexJob) :
    Chunks D t (catalogIndexWork D.env job) := by
  have hcheck : Chunks D t (assertCanContinue D.env job.toSnapshotRef) := keeps.assertCanContinue _
  refine (goes_readCatalogIndex job).bind fun releases =>
    (keeps.assertCanContinue _).goes.bind fun _ => (goes_putIndex releases).bind fun _ => ?_
  exact (keeps.read rfl).bind fun _ => (keeps.read rfl).bind fun _ => hcheck.bind fun _ =>
    (keeps_calm rfl).bind fun _ => hcheck.bind fun _ => (keeps_calm rfl).bind fun _ => keeps.ret _

/-! ### The chunk stage -/

/-- Every release of the job's chunk has an outcome, or is among these. -/
def SnapshotState.Lacks (s : SnapshotState) (job : ReleaseChunkJob) (ids : List String) : Prop :=
  s.Cut job ∧ ∀ id ∈ job.releaseIds, id ∈ ids ∨ s.HasOutcome id

instance (job : ReleaseChunkJob) (ids : List String) : Lasts fun s => s.Lacks job ids :=
  inferInstanceAs (Lasts fun s => s.Cut job ∧ ∀ id ∈ job.releaseIds, id ∈ ids ∨ s.HasOutcome id)

/-- A planned release is in the index that the delivery reads, or it has an outcome. -/
theorem goes_chunkIndex (job : ReleaseChunkJob) : Goes D t (fun s => s.Cut job) store.getIndex
    fun index s => s.Lacks job (index.map (·.releaseId)) := by
  have hlasts : ∀ index : Op.getIndex.Ans, Lasts fun s => s.Lacks job (List.map (·.releaseId) index) :=
    inferInstanceAs (∀ index : List ReleaseRefRecord, Lasts fun s => s.Lacks job (index.map (·.releaseId)))
  refine goes_observed rfl rfl fun s index s' hi _ hs he => ⟨hs, ?_⟩
  cases he
  obtain ⟨pass, plan, -, hplan, hchunk⟩ := hs
  exact hi.named pass plan hplan _ (List.mem_of_getElem? hchunk)

/-- So it has one among those that the delivery found, or it is left to do. -/
theorem goes_openExisting (job : ReleaseChunkJob) (index : List ReleaseRefRecord) :
    Goes D t (fun s => s.Lacks job (index.map (·.releaseId))) deps.openExisting
      fun existing s => s.Lacks job
        (((refsOf index job.releaseIds).filter (isTodo existing)).map (·.releaseId)) := by
  refine goes_observed rfl rfl fun s existing s' hi hs hs' he => ⟨hs'.1, ?_⟩
  cases he
  intro id hid
  rcases hs.2 id hid with hin | hout
  · exact mem_todo hid hin
  · exact .inr hout

/-- The extractor answers an outcome for each release that it was asked for. -/
theorem goes_extracted (job : ReleaseChunkJob) (refs : List ReleaseRefRecord) :
    Goes D t (fun s => s.Lacks job (refs.map (·.releaseId))) (deps.extracted job refs)
      fun os s => s.Lacks job (os.map (·.outcomeReleaseId)) := by
  refine Contract.triple_call stable_lasts (fun r => ?_) fun s c r s' hi hown hs hp => ?_
  · cases r with
    | ok os => exact stable_lasts (P := fun s => s.Lacks job _)
    | error e => exact fun _ _ _ _ _ => trivial
  obtain rfl : s' = s := perform_read rfl hp
  refine ⟨Contract.Keeps.refl hi hown, ?_⟩
  rcases perform_cases hp with he | ⟨e, r', -, he, -⟩ | ⟨e, -, -, rfl⟩ | ⟨a, c', ha, -, rfl⟩
  · cases he
  · cases he
  · trivial
  · cases c' <;> simp only [answer, reduceCtorEq] at ha
    split at ha
    · rename_i hall
      cases ha
      rw [D.extracts] at hall
      have hperm := List.isPerm_iff.1 (by simpa using hall)
      exact ⟨hs.1, fun id hid => (hs.2 id hid).imp_left hperm.mem_iff.2⟩
    · cases ha

theorem goes_converge (job : ReleaseChunkJob) (pid : ℕ) (batch : List ReleaseExtractionOutcome) :
    Goes D t (fun s => s.Lacks job (batch.map (·.outcomeReleaseId))) (deps.converge pid batch)
      fun outcomes s => s.Lacks job (outcomes.map (·.outcomeReleaseId)) := by
  have hlasts : ∀ outcomes : (Op.converge pid batch).Ans,
      Lasts fun s => s.Lacks job (List.map (·.outcomeReleaseId) outcomes) :=
    inferInstanceAs (∀ outcomes : List ReleaseExtractionOutcome,
      Lasts fun s => s.Lacks job (outcomes.map (·.outcomeReleaseId)))
  refine goes_observed rfl rfl fun s outcomes s' hi _ hs he => ?_
  cases he
  rwa [convergeBatch_ids]

theorem goes_putOutcomes (job : ReleaseChunkJob) (os : List ReleaseExtractionOutcome) :
    Goes D t (fun s => s.Lacks job (os.map (·.outcomeReleaseId))) (store.putOutcomes os)
      fun _ s => s.Cut job ∧ ∀ id ∈ job.releaseIds, s.HasOutcome id := by
  refine goes_observed rfl rfl fun s a s' hi _ hs he => ⟨hs.1, fun id hid => ?_⟩
  cases he
  exact (hs.2 id hid).elim (fun hin => mem_keys_putAll.2 (.inr hin)) fun hout => hout

/-- A chunk is marked once its releases have outcomes. -/
theorem goes_markChunkComplete {job : ReleaseChunkJob} :
    Goes D t (fun s => s.Cut job ∧ ∀ id ∈ job.releaseIds, s.HasOutcome id)
      (store.markChunkComplete (job.pass.getD INITIAL_PASS) job.chunkIndex) fun _ s => s.Cut job := by
  refine goes_state rfl stable_lasts (fun _ => stable_lasts) fun s r s' hi hown hs he => ?_
  obtain ⟨-, rfl⟩ := Prod.mk.inj (Option.some.inj he)
  obtain ⟨⟨pass, plan, hpass, hplan, hchunk⟩, hids⟩ := hs
  rw [hpass, Option.getD_some]
  have hg : ChunkGrows s { s with
      chunks := if (pass, job.chunkIndex) ∈ s.chunks then s.chunks
        else (pass, job.chunkIndex) :: s.chunks } := by
    refine ⟨fun _ h => h, fun _ h => h, fun _ _ h => h, fun c hc => ?_⟩
    show c ∈ if _ then _ else _
    split
    · exact hc
    · exact List.mem_cons_of_mem _ hc
  refine ⟨chunking_keeps hown ?_ hg fun _ _ => rfl, fun _ _ => ⟨pass, plan, hpass, hplan, hchunk⟩⟩
  refine ChunkInv.grow hi hg hi.index (fun _ _ h => .inl h) (fun p i hmem => ?_) fun _ _ h => .inl h
  change (p, i) ∈ (if _ then _ else _) at hmem
  split at hmem
  · exact .inl hmem
  · refine (List.mem_cons.1 hmem).symm.imp id fun hnew => ?_
    cases hnew
    exact ⟨plan, job.releaseIds, hplan, hchunk, hids⟩

theorem goes_completedChunks [Lasts P] (pass : ℕ) : Goes D t P (store.completedChunks pass)
    fun done s => P s ∧ ∀ i ∈ done, (pass, i) ∈ s.chunks := by
  refine goes_observed rfl rfl fun s done s' hi _ hs he => ⟨hs, fun i hi => ?_⟩
  cases he
  obtain ⟨⟨p, i'⟩, hc, rfl⟩ := List.mem_map.1 ((List.mem_insertionSort _).1 hi)
  obtain ⟨hmem, hp⟩ := List.mem_filter.1 hc
  have hp : p = pass := by simpa using hp
  exact hp ▸ hmem

/-- The chunk's hop: the next chunk of the durable plan, or the reconciliation of a pass
whose chunks are marked. -/
theorem goes_chainNext {job : ReleaseChunkJob} {done : List ℕ} {progress : Option SnapshotProgress} :
    Goes D t (fun s => s.Cut job ∧ ∀ i ∈ done, (job.pass.getD INITIAL_PASS, i) ∈ s.chunks)
      (chainNext D.env job (job.pass.getD INITIAL_PASS) done progress) fun _ _ => True := by
  generalize hpass : job.pass.getD INITIAL_PASS = pass
  -- The job was cut from the plan that is durable, so the read finds it.
  have hread : Goes D t (fun s => s.Cut job ∧ ∀ i ∈ done, (pass, i) ∈ s.chunks) (store.getPassPlan pass)
      fun a s => ∃ plan, a = some plan ∧ (∀ i ∈ done, (pass, i) ∈ s.chunks) ∧
        s.plans pass = some plan := by
    refine goes_observed rfl rfl fun s a s' hi _ hs he => ?_
    cases he
    obtain ⟨⟨p, plan, hp, hplan, -⟩, hdone⟩ := hs
    rw [hp, Option.getD_some] at hpass
    subst hpass
    exact ⟨plan, hplan, hdone, hplan⟩
  refine hread.bind fun a => ?_
  intro s hi hown h
  obtain ⟨plan, rfl, hs⟩ := h
  refine ((keeps (R := fun s => (∀ i ∈ done, (pass, i) ∈ s.chunks) ∧ s.plans pass = some plan)).assertCanContinue
    _).goes.bind (fun _ => ?_) s hi hown hs
  cases hnext : nextChunk plan done with
  | some next => exact (goes_enqueueChunk).pre fun s _ h => cut_chunkJob h.2 hnext
  | none =>
    refine goes_enqueue (fun s j hj => by cases hj) fun s j hj _ h => ?_
    cases hj
    exact ⟨pass, rfl, plan, h.2, fun i hi => h.1 i (mem_of_nextChunk hnext hi)⟩

theorem goes_chunkWork (job : ReleaseChunkJob) :
    Goes D t (fun s => s.Cut job) (chunkWork D.env t.pid job) fun _ _ => True := by
  refine (goes_chunkIndex job).bind fun index => (goes_openExisting job index).bind fun existing => ?_
  refine (keeps_calm rfl).goes.bind fun _ => (goes_extracted job _).bind fun extracted => ?_
  refine (keeps.assertCanContinue _).goes.bind fun _ => (goes_converge job t.pid extracted).bind fun outcomes =>
    (goes_putOutcomes job outcomes).bind fun _ => (keeps.assertCanContinue _).goes.bind fun _ => ?_
  refine goes_markChunkComplete.bind fun _ => (goes_completedChunks _).bind fun done => ?_
  exact (keeps.read rfl).goes.bind fun progress =>
    (keeps.recordChunkProgress fun _ => keeps_calm rfl).goes.bind fun _ =>
      goes_chainNext.bind fun _ => keeps.ret _

/-! ### The processes -/

theorem chunks_resume (job : SnapshotRef) : Chunks D t (resumeTerminalFinalizer job) :=
  keeps.resume (fun _ _ => keeps_calm rfl) job

theorem chunks_plan (ht : t.work.planned = some INITIAL_PASS) (job : PlanChunksJob) :
    Chunks D t (planDistroKidReleaseChunks D.env job) :=
  keeps.unlessTerminal (chunks_resume _) (chunks_planChunks ht)

/-- A deferred chunk job carries the same chunk. -/
theorem chunkKeeps_deferChunk (job : ReleaseChunkJob) :
    ChunkKeeps D t (fun s => s.Cut job) (deferChunk D.env job) := by
  have hall : StageProperty fun {α} (p : Pipe α) => ChunkKeeps D t (fun s => s.Cut job) p := keeps
  have hdefer : ∀ n d, ChunkKeeps D t (fun s => s.Cut job)
      (deps.enqueue (.chunk { job with deferAttempt := some n }) d) := fun n d =>
    Goes.keeps ((goes_enqueueChunk).pre fun s _ h => h)
  unfold deferChunk
  dsimp only
  split
  · exact hall.raise _
  · refine hall.bind (hall.read rfl) fun delayMs => ?_
    split
    · exact hall.raise _
    · exact hall.bind (hdefer _ _) fun _ => hall.ret _
    · refine hall.bind (hall.read rfl) fun now => ?_
      split
      · exact hall.raise _
      · exact hall.bind (hdefer _ _) fun _ => hall.ret _

theorem chunkKeeps_chunk (job : ReleaseChunkJob) :
    ChunkKeeps D t (fun s => s.Cut job) (extractDistroKidReleaseChunk D.env t.pid job) := by
  refine keeps.unlessTerminal ?_ (keeps.withAccountLock (chunkKeeps_deferChunk job) ?_)
  · exact keeps.resume (fun _ _ => keeps_calm rfl) _
  · exact (goes_chunkWork job).keeps

theorem chunks_terminalize (job : StageJob) (stage : String) (error : PipelineError) :
    Chunks D t (terminalizeDistroKidFailure job stage error) :=
  keeps.terminalize (fun _ => keeps_calm rfl)
    fun _ _ => keeps_calm rfl

/-- The stage of a job keeps the contract in a process that is known to run it. -/
theorem goes_processor {job : StageJob} (hplanned : t.work.planned = job.planned) :
    Goes D t (fun s => ∀ j, job = .chunk j → s.Cut j) (processor D.env t.pid job) fun _ _ => True := by
  cases job with
  | index job =>
    exact (keeps.discard (keeps.unlessTerminal (chunks_resume _) (keeps.withAccountLock (keeps.raise _)
      (chunks_catalogIndexWork job)))).anywhere
  | plan job => exact (keeps.discard (chunks_plan hplanned job)).anywhere
  | chunk job =>
    exact (keeps.discard (chunkKeeps_chunk job)).consequence (fun s _ h => h job rfl)
      (fun _ _ _ _ => trivial) fun _ _ _ _ => trivial
  | retry job =>
    exact (keeps.discard (keeps.unlessTerminal (chunks_resume _) (chunks_retryFailed hplanned))).anywhere
  | reconcile job =>
    exact (keeps.discard (keeps.reconcile (fun _ _ _ => keeps_calm rfl) (fun _ => keeps_calm rfl)
      fun _ _ => keeps_calm rfl)).anywhere
  | finalize job =>
    exact (keeps.finalize (fun _ _ => keeps_calm rfl) (fun _ _ => keeps_calm rfl)
      (fun _ _ => keeps_calm rfl) (fun _ => keeps_calm rfl) fun _ => keeps_calm rfl).anywhere

theorem goes_code (D : Reading) (t : Delivery) :
    Goes D t (fun s => ∀ j, t.work.job? = some (.chunk j) → s.Cut j) (code D.env t)
      fun _ _ => True := by
  have hplanned : ∀ job, t.work.job? = some job → t.work.planned = job.planned := by
    obtain ⟨pid, work⟩ := t
    intro job hjob
    cases work <;> cases hjob <;> rfl
  refine (keeps.code (fun _ => Goes.keeps (chunks_resume _).anywhere) (fun job hjob => ?_)
    (fun _ _ _ => Goes.keeps (chunks_terminalize _ _ _).anywhere)
    (fun _ _ _ => keeps.cancel fun _ => keeps_calm rfl) (fun job hwork => ?_)
    (fun _ _ _ _ => keeps.onCheckpoint (fun _ => keeps_calm rfl) fun _ => keeps_calm rfl)
    fun _ _ => keeps_calm rfl).goes.post fun _ _ _ _ => trivial
  · exact Goes.keeps ((goes_processor (hplanned job hjob)).pre fun s _ h j hj => h j (hj ▸ hjob))
  · have hfirst : t.work.planned = some INITIAL_PASS := congrArg Work.planned hwork
    exact Goes.keeps (ChunkKeeps.anywhere (keeps.recover (fun _ _ => keeps_calm rfl)
      (fun _ _ => keeps_calm rfl) (chunks_plan hfirst) chunks_terminalize))

/-! ### Runs -/

/-- A job that the snapshot's log names is cut from the plan of its pass. -/
theorem ChunkInv.cut_of_descends {s : SnapshotState} (hs : ChunkInv D.catalogue s) {work : Work}
    (hwork : descends D.j₀ s work = true) {job : ReleaseChunkJob}
    (hjob : work.job? = some (.chunk job)) : s.Cut job := by
  have hknown : knownJob D.j₀ s (.chunk job) = true := by
    cases work with
    | stage job' =>
      cases hjob
      exact hwork
    | attempt entry =>
      have hentry : entry.job = .chunk job := Option.some.inj hjob
      exact hentry ▸ hwork
    | _ => cases hjob
  simp only [knownJob, reduceCtorEq, decide_false, Bool.false_or, List.any_eq_true,
    decide_eq_true_eq] at hknown
  obtain ⟨⟨d, e⟩, hmem, rfl⟩ := hknown
  exact hs.jobs d job hmem

/-- The records that a process number or a lapsed lock are no part of. -/
theorem ChunkInv.idle {s s' : SnapshotState} (hi : ChunkInv D.catalogue s) (hindex : s'.index = s.index)
    (houtcomes : s'.outcomes = s.outcomes) (hplans : s'.plans = s.plans) (hchunks : s'.chunks = s.chunks)
    (hlog : s'.log = s.log) : ChunkInv D.catalogue s' ∧ ChunkGrows s s' := by
  have hg : ChunkGrows s s' :=
    ⟨fun id h => hindex ▸ h, fun id (h : id ∈ _) => (houtcomes ▸ h : id ∈ _),
      fun p plan h => hplans ▸ h, fun c h => hchunks ▸ h⟩
  exact ⟨ChunkInv.grow hi hg (hindex ▸ hi.index) (fun p plan h => .inl (hplans ▸ h))
    (fun p i h => .inl (hchunks ▸ h)) fun d e h => .inl (hlog ▸ h), hg⟩

theorem chunking_sound (D : Reading) : (chunking D).Sound := by
  refine ⟨fun s ts d s' hi hown h => ?_, fun s d r hi _ _ => ?_, fun s d hi _ => ?_, fun s c s' hi h => ?_⟩
  · simp only [pipelineSystem, onePlanner, anyOrder] at h
    split at h
    · rename_i halone
      split at h
      · rename_i hstart
        cases h
        obtain ⟨hi', hg⟩ : ChunkInv D.catalogue { s with nextPid := s.nextPid + 1 } ∧
            ChunkGrows s { s with nextPid := s.nextPid + 1 } := ChunkInv.idle hi rfl rfl rfl rfl rfl
        have hd : (chunking D).own d { s with nextPid := s.nextPid + 1 } :=
          fun job hjob => hg.cut (hi.cut_of_descends hstart.2 hjob)
        have hsafe := goes_code D d _ hi' hd hd
        refine ⟨hi', hg, hd, hsafe.mono fun _ _ _ _ => trivial, fun u hu => ⟨?_, ?_, hg, fun _ _ => rfl⟩⟩
        · intro pass hdp hup
          exact halone u hu (by simp [hdp]) (hup.trans hdp.symm)
        · intro pass hup hdp
          exact halone u hu (by simp [hdp]) (hup.trans hdp.symm)
      · cases h
    · cases h
  · exact ⟨hi, ChunkGrows.refl s, fun _ _ => ⟨ChunkGrows.refl s, fun _ _ => rfl⟩⟩
  · exact ⟨hi, ChunkGrows.refl s, fun _ _ => ⟨ChunkGrows.refl s, fun _ _ => rfl⟩⟩
  · cases c <;> cases h
    obtain ⟨hi', hg⟩ : ChunkInv D.catalogue { s with lock := none } ∧
        ChunkGrows s { s with lock := none } := ChunkInv.idle hi rfl rfl rfl rfl rfl
    exact ⟨hi', hg, fun _ => ⟨hg, fun _ _ => rfl⟩⟩

theorem ChunkInv.unplanned {catalogue : List ReleaseRefRecord} {s : SnapshotState}
    (hs : Unplanned catalogue s) : ChunkInv catalogue s where
  index := hs.index
  named pass plan hplan := by simp [hs.plans] at hplan
  jobs d job hjob := by simp [hs.log] at hjob
  marked pass i hi := by simp [hs.chunks] at hi
  reconciled d job hjob := by simp [hs.log] at hjob

/-- In every run, the releases of a marked chunk have outcomes; and a chunk delivery is
about to enqueue the reconciliation of a pass only when the chunks of its durable plan
are marked. -/
theorem marked_chunks_extracted {env : Env} {j₀ : CatalogIndexJob} {catalogue : List ReleaseRefRecord}
    (hcatalogue : env.catalogue = some catalogue) (hone : env.oneOutcomePerRef = true)
    {s : SnapshotState} (hs : Unplanned catalogue s) {w : SnapshotWorld}
    (h : (pipelineSystem env (onePlanner j₀)).Reaches (World.idle s) w) :
    (∀ pass i, (pass, i) ∈ w.state.chunks → ∃ plan chunk, w.state.plans pass = some plan ∧
      plan[i]? = some chunk ∧ ∀ id ∈ chunk, w.state.HasOutcome id) ∧
    ∀ d job delayMs k, (d, Prog.op (Op.enqueue (.reconcile job) delayMs) k) ∈ w.procs →
      d.runsChunk = true → ∃ pass, job.pass = some pass ∧ w.state.AllMarked pass := by
  have hvalid : (chunking ⟨env, j₀, catalogue, hcatalogue, hone⟩).Valid w :=
    (Contract.valid_idle (ChunkInv.unplanned hs)).reaches (chunking_sound _) h
  refine ⟨hvalid.inv.marked, fun d job delayMs k hmem hd => ?_⟩
  obtain ⟨i, hi⟩ := List.mem_iff_getElem?.1 hmem
  -- Performed now, the enqueue would have to keep the invariant.
  have hkeeps := (hvalid.safe i d _ hi w.state .done _ _ ((chunking _).rely_refl d _)
    hvalid.inv (hvalid.own i d _ hi) rfl).1
  exact hkeeps.inv.reconciled d job List.mem_cons_self hd

/-- A catalogue of two releases, read one release a chunk. -/
def twoReleases : List ReleaseRefRecord := (indexed ["a", "b"]).index

def twoEnv : Env :=
  { sampleEnv with chunkSize := .finite 1, catalogue := some twoReleases, oneOutcomePerRef := true }

def twoIndex : CatalogIndexJob := { toSnapshotRef := sampleRef, artists := [] }

/-- Every call succeeds, and every release is read. -/
def reading (_ : Delivery) : Op → Choice
  | .now => .time 0
  | .nowIso => .stamp "t"
  | .readCatalogIndex _ => .catalogue twoReleases
  | .extracted _ refs => .outcomes (refs.map fun ref => sampleRead ref.releaseId)
  | _ => .done

/-- A chunk delivery is about to enqueue a reconciliation. -/
def sendsToReconcile (w : SnapshotWorld) : Bool :=
  w.procs.any fun q => match q.2 with
    | .op (.enqueue (.reconcile _) _) _ => q.1.runsChunk
    | _ => false

/-- The catalogue is read and planned, and both of its chunks are. -/
def twoChunks : { cues : List (System.Cue Delivery) //
    ∃ w ∈ (pipelineSystem twoEnv (onePlanner twoIndex)).play reading (World.idle .empty) cues,
      (1, 1) ∈ w.state.chunks ∧ sendsToReconcile w = true } :=
  ⟨[.start ⟨0, .stage (.index twoIndex)⟩, .awaits 0 23, .settle 0,
    .start ⟨1, .stage (.plan { toSnapshotRef := sampleRef, chunkSize := none })⟩, .awaits 0 13, .settle 0,
    .start ⟨2, .stage (.chunk (chunkJob sampleRef INITIAL_PASS [["a"], ["b"]] 0))⟩, .awaits 0 34, .settle 0,
    .start ⟨3, .stage (.chunk (chunkJob sampleRef INITIAL_PASS [["a"], ["b"]] 1))⟩, .awaits 0 31],
    by decide +kernel⟩

theorem marked_chunks_extracted_read : ∃ w,
    (pipelineSystem twoEnv (onePlanner twoIndex)).Reaches (World.idle .empty) w ∧
    (∃ plan chunk, w.state.plans 1 = some plan ∧ plan[1]? = some chunk ∧
      ∀ id ∈ chunk, w.state.HasOutcome id) ∧
    ∃ d job delayMs k, (d, Prog.op (Op.enqueue (.reconcile job) delayMs) k) ∈ w.procs ∧
      ∃ pass, job.pass = some pass ∧ w.state.AllMarked pass := by
  have hempty : Unplanned twoReleases .empty := ⟨.inl rfl, fun _ => rfl, rfl, rfl⟩
  obtain ⟨cues, w, hw, hmarked, hsends⟩ := twoChunks
  have hreach := System.reaches_play hw
  obtain ⟨hchunks, hreconcile⟩ := marked_chunks_extracted rfl rfl hempty hreach
  obtain ⟨⟨d, p⟩, hmem, hp⟩ := List.any_eq_true.1 hsends
  cases p with
  | op o k =>
    cases o with
    | enqueue job delayMs =>
      cases job with
      | reconcile job =>
        exact ⟨w, hreach, hchunks 1 1 hmarked, d, job, delayMs, k, hmem,
          hreconcile d job delayMs k hmem hp⟩
      | _ => cases hp
    | _ => cases hp
  | _ => cases hp

end CatalogSentinel.Distrokid
