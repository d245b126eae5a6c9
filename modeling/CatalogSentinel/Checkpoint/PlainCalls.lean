import CatalogSentinel.Checkpoint.CommandRules

/-!
The calls of the tiered store that neither mark a chunk nor claim a tombstone, and bind nothing:
none of their awaits needs a fact to keep what every await keeps.
-/

namespace CatalogSentinel.Checkpoint.Commands

open CatalogSentinel.Data CatalogSentinel.Concurrent CatalogSentinel.Distrokid
open Prog (calls_ret calls_raise calls_ofExcept)

variable {D : DashboardPlatform} {dep : Deployment} {pages : ℕ} {s : String} {part : CheckpointPart}

theorem plain_sql {o : SqlOp} (h : (Op.sql o).Plain) : (sql o).Calls Op.Plain :=
  @Prog.calls_call commands CheckpointError _ _ h

theorem plain_redis {o : RedisOp} (h : (Op.redis o).Plain) : (redis o).Calls Op.Plain :=
  @Prog.calls_call commands CheckpointError _ _ h

theorem plain_memory {o : MemoryOp} (h : (Op.memory o).Plain) : (memory o).Calls Op.Plain :=
  @Prog.calls_call commands CheckpointError _ _ h

theorem plain_stall {α : Type} : (stall : Store α).Calls Op.Plain :=
  Prog.Calls.bind (@Prog.calls_call commands CheckpointError _ .stall trivial) fun never => never.elim

theorem plain_throwIf {α : Type} {c : Prop} [Decidable c] {e : CheckpointError} {p : Store α}
    (hp : p.Calls Op.Plain) :
    (do
      if c then throw e
      p : Store α).Calls Op.Plain := by
  dsimp only
  split
  · trivial
  · exact hp

theorem plain_durableBinding (s : String) : (Postgres.binding s).Calls Op.Plain := by
  refine .bind (plain_memory trivial) fun m => ?_
  cases m.durableBindings s with
  | none => exact calls_raise _
  | some b => exact calls_ret _

theorem plain_binding (s : String) : (binding s).Calls Op.Plain := by
  refine .bind (plain_memory trivial) fun m => ?_
  cases m.bindings s with
  | none => exact calls_raise _
  | some b => exact calls_ret _

theorem plain_discardBinding (s : String) : (discard (binding s)).Calls Op.Plain :=
  (plain_binding s).bind fun _ => calls_ret _

theorem plain_currentVersion (s : String) (part : CheckpointPart) :
    (Postgres.currentVersion s part).Calls Op.Plain := by
  refine (plain_durableBinding s).bind fun _ => ?_
  refine .bind (plain_memory trivial) fun m => ?_
  cases m.versions s with
  | none => exact calls_raise _
  | some versions => exact calls_ret _

theorem plain_refreshVersion (s : String) (part : CheckpointPart) :
    (Postgres.refreshVersion s part).Calls Op.Plain := by
  refine (plain_durableBinding s).bind fun b => ?_
  refine .bind (plain_sql trivial) fun found => ?_
  cases found with
  | none => exact calls_raise _
  | some version =>
    exact .bind (plain_memory trivial) fun _ => calls_ret _

theorem plain_lock (b : SnapshotCheckpointBinding) : (Postgres.lock b).Calls Op.Plain := by
  refine .bind (plain_sql trivial) fun locked => ?_
  cases locked with
  | true => exact calls_ret _
  | false => exact calls_raise _

theorem plain_bumpVersion (b : SnapshotCheckpointBinding) (part : CheckpointPart) :
    (Postgres.bumpVersion b part).Calls Op.Plain :=
  .bind (plain_sql trivial) fun _ => plain_memory trivial

theorem plain_transaction {α : Type} {work : Store α} (h : work.Calls Op.Plain) (s : String) :
    (Postgres.transaction s work).Calls Op.Plain := by
  refine .bind (plain_sql trivial) fun _ => Prog.Calls.handle ?_ fun e => ?_
  · refine .bind (plain_sql trivial) fun _ => h.bind fun result => ?_
    exact .bind (plain_sql trivial) fun _ => calls_ret _
  · refine Prog.Calls.bind ?_ fun _ => calls_raise _
    exact Prog.Calls.handle (plain_sql trivial) fun _ => calls_ret _

theorem plain_inBatches {α : Type} {size : ℕ} {insert : ℕ → List α → Store Unit}
    (h : ∀ offset batch, (insert offset batch).Calls Op.Plain) (fuel offset : ℕ) (rows : List α) :
    (Postgres.inBatches size insert fuel offset rows).Calls Op.Plain := by
  induction fuel generalizing offset rows with
  | zero => exact calls_ret _
  | succ fuel ih =>
    rw [Postgres.inBatches]
    split
    · exact calls_ret _
    · exact (h _ _).bind fun _ => ih _ _

theorem plain_readPages {R K β : Type} {query : K → Store (List R)} {key : R → K} {f : β → R → Checked β}
    (h : ∀ after, (query after).Calls Op.Plain) (fuel : ℕ) (after : K) (acc : β) :
    (Postgres.readPages query key f fuel after acc).Calls Op.Plain := by
  induction fuel generalizing after acc with
  | zero => exact plain_stall
  | succ fuel ih =>
    refine (h after).bind fun rows => (calls_ofExcept _).bind fun acc => ?_
    cases rows.getLast? with
    | none => exact calls_ret _
    | some last =>
      dsimp only
      split
      · exact calls_ret _
      · exact ih _ _

/-! ### PostgreSQL -/

theorem plain_durablePutIndex (releases : List ReleaseRefRecord) :
    (Postgres.putIndex D dep s releases).Calls Op.Plain := by
  refine (plain_durableBinding s).bind fun b => plain_throwIf ((calls_ofExcept _).bind fun sanitized => ?_)
  refine plain_throwIf (plain_transaction ?_ s)
  refine (plain_lock b).bind fun _ => .bind (plain_sql trivial) fun _ => ?_
  refine (plain_inBatches (fun offset batch => ?_) _ _ _).bind fun _ => plain_bumpVersion b .index
  exact plain_sql trivial

theorem plain_durableGetIndex : (Postgres.getIndex D pages s).Calls Op.Plain :=
  (plain_durableBinding s).bind fun b =>
    plain_readPages (fun after => plain_sql (o := .selectIndex b after) trivial) _ _ _

theorem plain_durablePutOutcomes (outcomes : List ReleaseExtractionOutcome) :
    (Postgres.putOutcomes D dep s outcomes).Calls Op.Plain := by
  refine (plain_durableBinding s).bind fun b => plain_throwIf ((calls_ofExcept _).bind fun sanitized => ?_)
  refine plain_transaction ?_ s
  refine (plain_lock b).bind fun _ => (plain_inBatches (fun offset batch => ?_) _ _ _).bind fun _ => ?_
  · exact plain_sql trivial
  · split
    · exact plain_bumpVersion b .outcomes
    · exact calls_ret _

theorem plain_durableGetOutcomes : (Postgres.getOutcomes D pages s).Calls Op.Plain :=
  (plain_durableBinding s).bind fun b =>
    plain_readPages (fun after => plain_sql (o := .selectOutcomes b after) trivial) _ _ _

theorem plain_durablePutProgress (progress : SnapshotProgress) :
    (Postgres.putProgress D progress).Calls Op.Plain := by
  refine (plain_durableBinding _).bind fun b => (calls_ofExcept _).bind fun value => ?_
  refine plain_transaction ?_ progress.snapshotId
  refine (plain_lock b).bind fun _ => ?_
  exact .bind (plain_sql trivial) fun _ => plain_bumpVersion b .progress

theorem plain_durableGetProgress : (Postgres.getProgress D s).Calls Op.Plain := by
  refine (plain_durableBinding s).bind fun b => .bind (plain_sql trivial) fun found => ?_
  cases found with
  | none => exact calls_ret _
  | some raw => exact (calls_ofExcept _).bind fun _ => calls_ret _

theorem plain_durablePutPassPlan (pass : ℕ) (chunks : List (List String)) :
    (Postgres.putPassPlan dep s pass chunks).Calls Op.Plain := by
  refine (plain_durableBinding s).bind fun b => (calls_ofExcept _).bind fun safePass => ?_
  refine plain_throwIf ((calls_ofExcept _).bind fun plan => plain_transaction ?_ s)
  refine (plain_lock b).bind fun _ => .bind (plain_sql trivial) fun _ => ?_
  refine (plain_inBatches (fun offset batch => ?_) _ _ _).bind fun _ => plain_bumpVersion b .plans
  exact plain_sql trivial

theorem plain_durableGetPassPlan (pass : ℕ) : (Postgres.getPassPlan pages s pass).Calls Op.Plain := by
  refine (plain_durableBinding s).bind fun b => (calls_ofExcept _).bind fun safePass => plain_throwIf ?_
  exact .bind (plain_readPages (fun after => plain_sql (o := .selectPlan b safePass after) trivial) _ _ _)
    fun _ => calls_ret _

/-! ### Redis -/

theorem plain_getVersion (s : String) (part : VersionPart) : (Hot.getVersion s part).Calls Op.Plain :=
  plain_redis trivial

theorem plain_putVersion (s : String) (part : VersionPart) (version : ℕ) :
    (Hot.putVersion s part version).Calls Op.Plain :=
  plain_redis trivial

theorem plain_hotBindSnapshot (b : SnapshotCheckpointBinding) : (Hot.bindSnapshot b).Calls Op.Plain := by
  refine (calls_ofExcept _).bind fun _ => ?_
  refine .bind (plain_redis trivial) fun won => ?_
  cases won with
  | true => exact calls_ret _
  | false =>
    have howner : ∀ existing : SnapshotCheckpointBinding, Prog.Calls Op.Plain (do
        if existing ≠ b then throw .principalMismatch
        redis (.expire (.binding b.snapshotId)) : Store Unit) := fun existing =>
      plain_throwIf (plain_redis trivial)
    refine .bind (plain_redis trivial) fun raw => ?_
    cases raw with
    | none => exact calls_raise _
    | some existing => exact howner existing

/-! ### Both tiers -/

theorem admitted_plain : revisions.Admitted Op.Plain s part :=
  ⟨plain_currentVersion s part, plain_refreshVersion s part, plain_getVersion s (.part part),
    plain_putVersion s (.part part)⟩

theorem plain_putIndex (releases : List ReleaseRefRecord) : (putIndex D dep s releases).Calls Op.Plain := by
  refine (plain_binding s).bind fun _ => (plain_durablePutIndex releases).bind fun _ => ?_
  refine (calls_ofExcept _).bind fun sanitized => admitted_plain.cacheProjection ?_
  exact plain_redis trivial

theorem plain_getIndex : (getIndex D pages s).Calls Op.Plain := by
  refine (plain_binding s).bind fun _ => admitted_plain.hotMatchesDurable.bind fun hit => ?_
  refine (calls_cachedAt ?_ hit).bind fun found => ?_
  · refine .bind (plain_redis trivial) fun raw => ?_
    cases raw with
    | none => exact calls_ret _
    | some cached => exact (calls_ofExcept _).bind fun _ => calls_ret _
  · cases found with
    | some cached => exact calls_ret _
    | none =>
      refine plain_durableGetIndex.bind fun durable => ?_
      exact .bind (admitted_plain.cacheProjection (plain_redis trivial)) fun _ => calls_ret _

theorem plain_putOutcomes (outcomes : List ReleaseExtractionOutcome) :
    ((tiers D dep pages).putOutcomes D.toPlatform s outcomes).Calls Op.Plain := by
  refine Tiers.calls_putOutcomes (plain_discardBinding s) admitted_plain plain_durableGetOutcomes ?_ ?_ ?_
    (plain_durablePutOutcomes outcomes)
  · exact fun _ => plain_redis trivial
  · exact plain_redis trivial
  · exact plain_redis trivial

theorem plain_getOutcomes : ((tiers D dep pages).getOutcomes D.toPlatform s).Calls Op.Plain :=
  Tiers.calls_getOutcomes (plain_discardBinding s) admitted_plain plain_durableGetOutcomes
    (fun _ => plain_redis trivial) (plain_redis trivial) (plain_redis trivial) (plain_redis trivial)

theorem plain_putProgress (progress : SnapshotProgress) : (putProgress D progress).Calls Op.Plain := by
  refine (plain_binding _).bind fun b => (calls_ofExcept _).bind fun sanitized => ?_
  refine (plain_durablePutProgress sanitized).bind fun _ => admitted_plain.cacheProjection ?_
  exact plain_redis trivial

theorem plain_getProgress : (getProgress D s).Calls Op.Plain := by
  refine (plain_binding s).bind fun b => admitted_plain.hotMatchesDurable.bind fun hit => ?_
  refine (calls_cachedAt ?_ hit).bind fun found => ?_
  · refine .bind (plain_redis trivial) fun raw => ?_
    cases raw with
    | none => exact calls_ret _
    | some cached => exact (calls_ofExcept _).bind fun _ => calls_ret _
  · cases found with
    | some cached => exact calls_ret _
    | none =>
      refine plain_durableGetProgress.bind fun durable => ?_
      cases durable with
      | none => exact calls_ret _
      | some progress =>
        exact .bind (admitted_plain.cacheProjection (plain_redis trivial)) fun _ => calls_ret _

theorem plain_putPassPlan (pass : ℕ) (chunks : List (List String)) :
    ((tiers D dep pages).putPassPlan s pass chunks).Calls Op.Plain :=
  Tiers.calls_putPassPlan (plain_discardBinding s) admitted_plain
    (plain_durablePutPassPlan pass chunks) (plain_redis trivial)

theorem plain_getPassPlan (pass : ℕ) : ((tiers D dep pages).getPassPlan s pass).Calls Op.Plain :=
  Tiers.calls_getPassPlan (plain_discardBinding s) admitted_plain (plain_durableGetPassPlan pass)
    (plain_redis trivial) fun _ => plain_redis trivial

end CatalogSentinel.Checkpoint.Commands
