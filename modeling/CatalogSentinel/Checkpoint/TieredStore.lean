import CatalogSentinel.Concurrent.Prog
import CatalogSentinel.Checkpoint.Sanitize

/-!
The code of the tiered checkpoint store: PostgreSQL holds the facts and counts the revisions of
each part of a snapshot, Redis holds a copy of each part and the revision it was copied at. How the
tiers are awaited, whole methods at a time or command by command, is left open.
-/

namespace CatalogSentinel.Checkpoint

open CatalogSentinel.Data CatalogSentinel.Concurrent CatalogSentinel.Distrokid

inductive CheckpointPart
  | index | outcomes | progress | chunks | plans | terminal
  deriving DecidableEq, Repr

/-- How a store instance awaits the revision of a part, of the durable rows and of the copy. -/
structure Revisions (S : Signature) where
  currentVersion (snapshotId : String) (part : CheckpointPart) : Prog S CheckpointError ℕ
  refreshVersion (snapshotId : String) (part : CheckpointPart) : Prog S CheckpointError ℕ
  getVersion (snapshotId : String) (part : CheckpointPart) : Prog S CheckpointError (Option ℕ)
  putVersion (snapshotId : String) (part : CheckpointPart) (version : ℕ) : Prog S CheckpointError Unit

/-- How it awaits the plans, whose passes are counted in `κ`, and the outcomes. -/
structure Tiers (S : Signature) (κ : Type) extends Revisions S where
  binding (snapshotId : String) : Prog S CheckpointError Unit
  durablePutPassPlan (snapshotId : String) (pass : κ) (releaseIdChunks : List (List String)) :
    Prog S CheckpointError Unit
  durableGetPassPlan (snapshotId : String) (pass : κ) :
    Prog S CheckpointError (Option (List (List String)))
  getPlan (snapshotId : String) (pass : κ) : Prog S CheckpointError (Option (List (List String)))
  setPlan (snapshotId : String) (pass : κ) (releaseIdChunks : List (List String)) :
    Prog S CheckpointError Unit
  durablePutOutcomes (snapshotId : String) (outcomes : List ReleaseExtractionOutcome) :
    Prog S CheckpointError Unit
  durableGetOutcomes (snapshotId : String) : Prog S CheckpointError (List ReleaseExtractionOutcome)
  hset (snapshotId : String) (outcome : ReleaseExtractionOutcome) : Prog S CheckpointError Unit
  hgetall (snapshotId : String) : Prog S CheckpointError (List ReleaseExtractionOutcome)
  del (snapshotId : String) : Prog S CheckpointError Unit
  expire (snapshotId : String) : Prog S CheckpointError Unit

section Cache

variable {S : Signature} {α : Type}

/-- A cache error is reported and forgotten. -/
def cacheError (error : CheckpointError) : Prog S CheckpointError Unit :=
  if error = .principalMismatch then throw error else return ()

def cacheWrite (work : Prog S CheckpointError Unit) : Prog S CheckpointError Unit :=
  work.handle cacheError

/-- `try { return await read() } catch (error) { this.cacheError(error) }` -/
def cacheRead (read : Prog S CheckpointError α) (otherwise : α) : Prog S CheckpointError α :=
  read.handle fun error => do
    cacheError error
    return otherwise

/-- What the cache answers where it is at the durable version. -/
def cachedAt (hit : Bool) (read : Prog S CheckpointError (Option α)) :
    Prog S CheckpointError (Option α) :=
  if hit then cacheRead read none else return none

end Cache

namespace Revisions

variable {S : Signature} (V : Revisions S)

def cacheProjection (snapshotId : String) (part : CheckpointPart)
    (work : Prog S CheckpointError Unit) : Prog S CheckpointError Unit := do
  let version ← V.currentVersion snapshotId part
  -- Written last: equality is to prove that the projection was written for this revision.
  cacheWrite (do work; V.putVersion snapshotId part version)

def hotMatchesDurable (snapshotId : String) (part : CheckpointPart) :
    Prog S CheckpointError Bool := do
  let durableVersion ← V.refreshVersion snapshotId part
  cacheRead (do
    let hotVersion ← V.getVersion snapshotId part
    return decide (hotVersion = some durableVersion)) false

end Revisions

def readPlanIds (rows : List (List String)) (name : String) : Checked (List (List String)) :=
  rows.mapM fun ids => ids.mapM fun id => textValue id name 512

/-- The batch is written over the hash where Redis is at this revision or one behind. -/
def isIncremental (hotVersion : Option ℕ) (version : ℕ) : Bool :=
  hotVersion = some version || hotVersion.map (· + 1) = some version

namespace Tiers

variable {S : Signature} {κ : Type} (T : Tiers S κ)

def putPassPlan (snapshotId : String) (pass : κ) (releaseIdChunks : List (List String)) :
    Prog S CheckpointError Unit := do
  T.binding snapshotId
  T.durablePutPassPlan snapshotId pass releaseIdChunks
  T.cacheProjection snapshotId .plans (T.setPlan snapshotId pass releaseIdChunks)

def cachedPassPlan (snapshotId : String) (pass : κ) :
    Prog S CheckpointError (Option (List (List String))) := do
  match ← T.getPlan snapshotId pass with
  | none => return none
  | some cached =>
    let plan ← Prog.ofExcept (readPlanIds cached "cached pass plan releaseId")
    return some plan

def getPassPlan (snapshotId : String) (pass : κ) :
    Prog S CheckpointError (Option (List (List String))) := do
  T.binding snapshotId
  let hit ← T.hotMatchesDurable snapshotId .plans
  match ← cachedAt hit (T.cachedPassPlan snapshotId pass) with
  | some cached => return some cached
  | none =>
    match ← T.durableGetPassPlan snapshotId pass with
    | none => return none
    | some plan =>
      T.cacheProjection snapshotId .plans (T.setPlan snapshotId pass plan)
      return some plan

/-- `RedisSnapshotStore.putOutcomes` -/
def hotPutOutcomes (snapshotId : String) :
    List ReleaseExtractionOutcome → Prog S CheckpointError Unit
  | [] => T.expire snapshotId
  | o :: os => do
    T.hset snapshotId o
    hotPutOutcomes snapshotId os

def replaceOutcomes (snapshotId : String) (outcomes : List ReleaseExtractionOutcome) :
    Prog S CheckpointError Unit := do
  T.del snapshotId
  T.hotPutOutcomes snapshotId outcomes

variable (P : Platform)

def putOutcomes (snapshotId : String) (outcomes : List ReleaseExtractionOutcome) :
    Prog S CheckpointError Unit := do
  T.binding snapshotId
  T.durablePutOutcomes snapshotId outcomes
  let sanitized ← Prog.ofExcept (outcomes.mapM (sanitizeOutcome P))
  let version ← T.currentVersion snapshotId .outcomes
  let hotVersion ← cacheRead (T.getVersion snapshotId .outcomes) none
  T.cacheProjection snapshotId .outcomes
    (if isIncremental hotVersion version then T.hotPutOutcomes snapshotId sanitized
    else do
      let durable ← T.durableGetOutcomes snapshotId
      T.replaceOutcomes snapshotId durable)

def cachedOutcomes (snapshotId : String) :
    Prog S CheckpointError (Option (List ReleaseExtractionOutcome)) := do
  let stored ← T.hgetall snapshotId
  let cached ← Prog.ofExcept (stored.mapM (sanitizeOutcome P))
  if cached.length > 0 then return some cached
  else do
    let version ← T.currentVersion snapshotId .outcomes
    return if version = 0 then some cached else none

def getOutcomes (snapshotId : String) :
    Prog S CheckpointError (List ReleaseExtractionOutcome) := do
  T.binding snapshotId
  let hit ← T.hotMatchesDurable snapshotId .outcomes
  match ← cachedAt hit (T.cachedOutcomes P snapshotId) with
  | some cached => return cached
  | none =>
    let durable ← T.durableGetOutcomes snapshotId
    T.cacheProjection snapshotId .outcomes (T.replaceOutcomes snapshotId durable)
    return durable

end Tiers

/-! ### What the code awaits -/

section Calls

open Prog (Calls calls_ret calls_raise calls_ofExcept)

variable {S : Signature} {ok : S.Op → Prop} {α κ : Type} {s : String} {part : CheckpointPart}

theorem calls_cacheError (e : CheckpointError) : (cacheError e).Calls ok := by
  unfold cacheError
  split
  · exact calls_raise _
  · exact calls_ret _

theorem calls_cacheWrite {work : Prog S CheckpointError Unit} (h : work.Calls ok) :
    (cacheWrite work).Calls ok :=
  h.handle calls_cacheError

theorem calls_cacheRead {read : Prog S CheckpointError α} {otherwise : α} (h : read.Calls ok) :
    (cacheRead read otherwise).Calls ok :=
  h.handle fun e => (calls_cacheError e).bind fun _ => calls_ret _

theorem calls_cachedAt {read : Prog S CheckpointError (Option α)} (h : read.Calls ok) (hit : Bool) :
    (cachedAt hit read).Calls ok := by
  unfold cachedAt
  split
  · exact calls_cacheRead h
  · exact calls_ret _

/-- The awaits of the revisions of a part are all admitted. -/
structure Revisions.Admitted (V : Revisions S) (ok : S.Op → Prop) (s : String) (part : CheckpointPart) :
    Prop where
  current : (V.currentVersion s part).Calls ok
  refresh : (V.refreshVersion s part).Calls ok
  get : (V.getVersion s part).Calls ok
  put : ∀ version, (V.putVersion s part version).Calls ok

theorem Revisions.Admitted.cacheProjection {V : Revisions S} (h : V.Admitted ok s part)
    {work : Prog S CheckpointError Unit} (hwork : work.Calls ok) :
    (V.cacheProjection s part work).Calls ok :=
  h.current.bind fun version => calls_cacheWrite (hwork.bind fun _ => h.put version)

theorem Revisions.Admitted.hotMatchesDurable {V : Revisions S} (h : V.Admitted ok s part) :
    (V.hotMatchesDurable s part).Calls ok :=
  h.refresh.bind fun _ => calls_cacheRead (h.get.bind fun _ => calls_ret _)

namespace Tiers

variable {T : Tiers S κ} (hb : (T.binding s).Calls ok)

section Plans

variable (hV : T.Admitted ok s .plans) {pass : κ}
include hb hV

theorem calls_putPassPlan {chunks : List (List String)}
    (hput : (T.durablePutPassPlan s pass chunks).Calls ok) (hset : (T.setPlan s pass chunks).Calls ok) :
    (T.putPassPlan s pass chunks).Calls ok :=
  hb.bind fun _ => hput.bind fun _ => hV.cacheProjection hset

theorem calls_getPassPlan (hget : (T.durableGetPassPlan s pass).Calls ok)
    (hcached : (T.getPlan s pass).Calls ok) (hset : ∀ plan, (T.setPlan s pass plan).Calls ok) :
    (T.getPassPlan s pass).Calls ok := by
  refine hb.bind fun _ => hV.hotMatchesDurable.bind fun hit => (calls_cachedAt ?_ hit).bind fun found => ?_
  · refine hcached.bind fun stored => ?_
    cases stored with
    | none => exact calls_ret _
    | some cached => exact (calls_ofExcept _).bind fun _ => calls_ret _
  · cases found with
    | some cached => exact calls_ret _
    | none =>
      refine hget.bind fun durable => ?_
      cases durable with
      | none => exact calls_ret _
      | some plan => exact (hV.cacheProjection (hset plan)).bind fun _ => calls_ret _

end Plans

section Outcomes

variable {P : Platform} (hV : T.Admitted ok s .outcomes) (hdurable : (T.durableGetOutcomes s).Calls ok)
variable (hhset : ∀ o, (T.hset s o).Calls ok) (hdel : (T.del s).Calls ok) (hexpire : (T.expire s).Calls ok)

include hhset hexpire in
theorem calls_hotPutOutcomes (os : List ReleaseExtractionOutcome) : (T.hotPutOutcomes s os).Calls ok := by
  induction os with
  | nil => exact hexpire
  | cons o os ih => exact (hhset o).bind fun _ => ih

include hhset hdel hexpire in
theorem calls_replaceOutcomes (os : List ReleaseExtractionOutcome) : (T.replaceOutcomes s os).Calls ok :=
  hdel.bind fun _ => calls_hotPutOutcomes hhset hexpire os

include hb hV hdurable hhset hdel hexpire

theorem calls_putOutcomes {os : List ReleaseExtractionOutcome}
    (hput : (T.durablePutOutcomes s os).Calls ok) : (T.putOutcomes P s os).Calls ok := by
  refine hb.bind fun _ => hput.bind fun _ => (calls_ofExcept _).bind fun sanitized => ?_
  refine hV.current.bind fun version => (calls_cacheRead hV.get).bind fun hotVersion => hV.cacheProjection ?_
  split
  · exact calls_hotPutOutcomes hhset hexpire _
  · exact hdurable.bind fun _ => calls_replaceOutcomes hhset hdel hexpire _

theorem calls_getOutcomes (hstored : (T.hgetall s).Calls ok) : (T.getOutcomes P s).Calls ok := by
  refine hb.bind fun _ => hV.hotMatchesDurable.bind fun hit => (calls_cachedAt ?_ hit).bind fun found => ?_
  · refine hstored.bind fun stored => (calls_ofExcept _).bind fun cached => ?_
    split
    · exact calls_ret _
    · exact hV.current.bind fun _ => calls_ret _
  · cases found with
    | some cached => exact calls_ret _
    | none =>
      exact hdurable.bind fun durable =>
        (hV.cacheProjection (calls_replaceOutcomes hhset hdel hexpire durable)).bind fun _ => calls_ret _

end Outcomes

end Tiers

end Calls

end CatalogSentinel.Checkpoint
