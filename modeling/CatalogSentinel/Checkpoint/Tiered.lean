import Mathlib.Data.List.Sort
import CatalogSentinel.Concurrent.Sequential
import CatalogSentinel.Checkpoint.TieredStore

/-!
The tiered checkpoint store with every Redis command and every durable method as one await. A
Redis command may fail, before or after it took effect, and any Redis key may be lost before any
await.
-/

namespace CatalogSentinel.Checkpoint

open CatalogSentinel.Data CatalogSentinel.Concurrent CatalogSentinel.Distrokid

/-- The Redis keys of a snapshot, by the part after `dk:snap:${snapshotId}:`. -/
inductive HotKey
  | outcomes (snapshotId : String)
  | plan (snapshotId : String) (pass : ℚ)
  | version (snapshotId : String) (part : CheckpointPart)
  deriving DecidableEq, Repr

/-- One `plan:${pass}` key with its value. -/
structure HotPlan where
  snapshotId : String
  pass : ℚ
  chunks : List (List String)
  deriving DecidableEq, Repr

def HotPlan.key (e : HotPlan) : String × ℚ := (e.snapshotId, e.pass)

/-- An absent hash is an empty one. -/
structure HotTier where
  outcomes : String → List ReleaseExtractionOutcome
  plans : List HotPlan
  versions : String → CheckpointPart → Option ℕ

namespace HotTier

def empty : HotTier := ⟨fun _ => [], [], fun _ _ => none⟩

def plan? (h : HotTier) (snapshotId : String) (pass : ℚ) : Option (List (List String)) :=
  (get? HotPlan.key (snapshotId, pass) h.plans).map HotPlan.chunks

/-- A key expires, is evicted or is deleted by someone else. -/
def lose (h : HotTier) : HotKey → HotTier
  | .outcomes s => { h with outcomes := Function.update h.outcomes s [] }
  | .plan s pass => { h with plans := h.plans.filter fun e => e.key ≠ (s, pass) }
  | .version s part =>
    { h with versions := Function.update h.versions s (Function.update (h.versions s) part none) }

end HotTier

/-- The rows of each snapshot: the principal it is bound to, the revision of each part,
the outcomes by release id and the chunks of each pass in the order of their index. -/
structure DurableTier where
  principal : String → Option SnapshotCheckpointBinding
  versions : String → CheckpointPart → ℕ
  outcomes : String → List ReleaseExtractionOutcome
  plans : String → ℚ → List (List String)

/-- `WHERE "userId"=$1 AND "connectionId"=$2 AND "snapshotId"=$3` -/
def DurableTier.holds (d : DurableTier) (b : SnapshotCheckpointBinding) : Bool :=
  (d.principal b.snapshotId).any fun row =>
    row.tenantId = b.tenantId && row.connectionId = b.connectionId

def DurableTier.bump (d : DurableTier) (snapshotId : String) (part : CheckpointPart) : DurableTier :=
  { d with versions := Function.update d.versions snapshotId <|
      Function.update (d.versions snapshotId) part (d.versions snapshotId part + 1) }

inductive Call
  | putPassPlan (snapshotId : String) (pass : ℚ) (releaseIdChunks : List (List String))
  | getPassPlan (snapshotId : String) (pass : ℚ)
  | putOutcomes (snapshotId : String) (outcomes : List ReleaseExtractionOutcome)
  | getOutcomes (snapshotId : String)
  deriving DecidableEq, Repr

/-- A call, by the worker whose store instance serves it. -/
structure Request where
  worker : ℕ
  call : Call
  deriving DecidableEq, Repr

/-- What a read answered, beside what the durable store would have answered then. -/
inductive Answer
  | plan (answer reference : Checked (Option (List (List String))))
  | outcomes (answer reference : Checked (List ReleaseExtractionOutcome))
  deriving DecidableEq

/-- The two tiers, what each worker's store instance remembers, and the answers given. -/
structure CheckpointState where
  hot : HotTier
  durable : DurableTier
  bindings : ℕ → String → Option SnapshotCheckpointBinding
  versions : ℕ → String → CheckpointPart → ℕ
  log : List Answer

namespace CheckpointState

def lose (st : CheckpointState) (keys : List HotKey) : CheckpointState :=
  { st with hot := keys.foldl HotTier.lose st.hot }

/-- A worker learns the revision of a part. -/
def learn (st : CheckpointState) (worker : ℕ) (snapshotId : String) (part : CheckpointPart) :
    CheckpointState :=
  { st with versions := Function.update st.versions worker (Function.update (st.versions worker)
      snapshotId (Function.update (st.versions worker snapshotId) part
        (st.durable.versions snapshotId part))) }

def binding (st : CheckpointState) (worker : ℕ) (snapshotId : String) :
    Checked SnapshotCheckpointBinding :=
  match st.bindings worker snapshotId with
  | none => .error (.bindingRequired snapshotId)
  | some b => .ok b

end CheckpointState

/-! ### The durable store -/

/-- A value for an `INTEGER` column. -/
def pgInteger (value : ℚ) : Checked ℚ :=
  if value ≤ 2147483647 then .ok value else .error (.postgres "integer out of range")

def sanitizeChunk (chunk : List String) (chunkIndex : ℕ) : Checked (List String) :=
  if chunk.length > 1000 then
    .error (.invalid s!"pass plan chunk {chunkIndex} exceeds its bounded size")
  else chunk.mapM fun id => textValue id s!"pass plan {chunkIndex} releaseId" 512

def assertPassPlan (pass : ℚ) (releaseIdChunks : List (List String)) : Checked Unit :=
  if pass < 1 || releaseIdChunks.length > MAX_RELEASES then
    .error (.invalid "invalid pass plan checkpoint")
  else .ok ()

/-- `lock`: the row of the snapshot must be the binding's. -/
def lockRow (d : DurableTier) (b : SnapshotCheckpointBinding) : Checked Unit :=
  if d.holds b then .ok () else .error .principalMismatch

/-- The rows that `putPassPlan` leaves for the pass. -/
def acceptPassPlan (st : CheckpointState) (worker : ℕ) (snapshotId : String) (pass : ℚ)
    (releaseIdChunks : List (List String)) : Checked (List (List String)) := do
  let b ← st.binding worker snapshotId
  let safePass ← nonNegativeInteger pass "plan pass"
  assertPassPlan safePass releaseIdChunks
  let plan ← releaseIdChunks.zipIdx.mapM fun x => sanitizeChunk x.1 x.2
  lockRow st.durable b
  let _ ← pgInteger safePass
  return plan

def durablePutPassPlan (st : CheckpointState) (worker : ℕ) (snapshotId : String) (pass : ℚ)
    (releaseIdChunks : List (List String)) : Checked Unit × CheckpointState :=
  match acceptPassPlan st worker snapshotId pass releaseIdChunks with
  | .error e => (.error e, st)
  | .ok plan =>
    let plans := Function.update st.durable.plans snapshotId
      (Function.update (st.durable.plans snapshotId) pass plan)
    let durable := { st.durable with plans := plans }.bump snapshotId .plans
    (.ok (), { st with durable := durable }.learn worker snapshotId .plans)

/-- The pass as `getPassPlan` asks for it. -/
def planPass (pass : ℚ) : Checked ℚ := do
  let safePass ← nonNegativeInteger pass "plan pass"
  if safePass < 1 then .error (.invalid "checkpoint plan pass must be positive")
  else pgInteger safePass

/-- `plan.length > 0 ? plan : null` -/
def storedPassPlan (rows : List (List String)) : Checked (Option (List (List String))) := do
  let plan ← readPlanIds rows "stored pass plan releaseId"
  return if plan = [] then none else some plan

def durableGetPassPlan (st : CheckpointState) (worker : ℕ) (snapshotId : String) (pass : ℚ) :
    Checked (Option (List (List String))) := do
  let b ← st.binding worker snapshotId
  let safePass ← planPass pass
  storedPassPlan (if st.durable.holds b then st.durable.plans snapshotId safePass else [])

/-- One statement may not write a row twice. -/
def insertBatches (batchSize : ℕ) (rows : List ReleaseExtractionOutcome) :
    ℕ → List ReleaseExtractionOutcome → Checked (List ReleaseExtractionOutcome)
  | 0, _ => .ok rows
  | _, [] => .ok rows
  | fuel + 1, outcomes =>
    if ((outcomes.take batchSize).map (·.outcomeReleaseId)).Nodup then
      insertBatches batchSize (putOutcomes rows (outcomes.take batchSize)) fuel
        (outcomes.drop batchSize)
    else .error (.postgres "ON CONFLICT DO UPDATE command cannot affect row a second time")

/-- The rows that `putOutcomes` leaves. -/
def acceptOutcomes (P : Platform) (batchSize : ℕ) (st : CheckpointState) (worker : ℕ)
    (snapshotId : String) (outcomes : List ReleaseExtractionOutcome) :
    Checked (List ReleaseExtractionOutcome) := do
  let b ← st.binding worker snapshotId
  if outcomes.length > MAX_RELEASES then
    .error (.invalid "outcome checkpoint batch exceeds its bounded release limit")
  else do
  let sanitized ← outcomes.mapM (sanitizeOutcome P)
  lockRow st.durable b
  insertBatches batchSize (st.durable.outcomes snapshotId) sanitized.length sanitized

def durablePutOutcomes (P : Platform) (batchSize : ℕ) (st : CheckpointState) (worker : ℕ)
    (snapshotId : String) (outcomes : List ReleaseExtractionOutcome) :
    Checked Unit × CheckpointState :=
  match acceptOutcomes P batchSize st worker snapshotId outcomes with
  | .error e => (.error e, st)
  | .ok rows =>
    let written := { st.durable with outcomes := Function.update st.durable.outcomes snapshotId rows }
    if outcomes.length > 0 then
      (.ok (), { st with durable := written.bump snapshotId .outcomes }.learn worker snapshotId .outcomes)
    else (.ok (), { st with durable := written })

/-- `ORDER BY "releaseId"` -/
def byReleaseId (rows : List ReleaseExtractionOutcome) : List ReleaseExtractionOutcome :=
  rows.insertionSort fun o o' => o.outcomeReleaseId ≤ o'.outcomeReleaseId

def durableGetOutcomes (P : Platform) (st : CheckpointState) (worker : ℕ) (snapshotId : String) :
    Checked (List ReleaseExtractionOutcome) := do
  let b ← st.binding worker snapshotId
  let rows := if st.durable.holds b then st.durable.outcomes snapshotId else []
  (byReleaseId rows).mapM (sanitizeOutcome P)

def refreshVersion (st : CheckpointState) (worker : ℕ) (snapshotId : String) (part : CheckpointPart) :
    Checked ℕ × CheckpointState :=
  match st.binding worker snapshotId >>= lockRow st.durable with
  | .error e => (.error e, st)
  | .ok () => (.ok (st.durable.versions snapshotId part), st.learn worker snapshotId part)

/-! ### Awaits -/

inductive Op
  | binding (snapshotId : String)
  | currentVersion (snapshotId : String) (part : CheckpointPart)
  | refreshVersion (snapshotId : String) (part : CheckpointPart)
  | durablePutPassPlan (snapshotId : String) (pass : ℚ) (releaseIdChunks : List (List String))
  | durableGetPassPlan (snapshotId : String) (pass : ℚ)
  | durablePutOutcomes (snapshotId : String) (outcomes : List ReleaseExtractionOutcome)
  | durableGetOutcomes (snapshotId : String)
  | getVersion (snapshotId : String) (part : CheckpointPart)
  | putVersion (snapshotId : String) (part : CheckpointPart) (version : ℕ)
  | getPlan (snapshotId : String) (pass : ℚ)
  | setPlan (snapshotId : String) (pass : ℚ) (releaseIdChunks : List (List String))
  | hset (snapshotId : String) (outcome : ReleaseExtractionOutcome)
  | hgetall (snapshotId : String)
  | del (snapshotId : String)
  | expire (snapshotId : String)
  | planAnswered (snapshotId : String) (pass : ℚ) (answer : Checked (Option (List (List String))))
  | outcomesAnswered (snapshotId : String) (answer : Checked (List ReleaseExtractionOutcome))

def Op.Ans : Op → Type
  | currentVersion .. => ℕ
  | refreshVersion .. => ℕ
  | durableGetPassPlan .. => Option (List (List String))
  | durableGetOutcomes _ => List ReleaseExtractionOutcome
  | getVersion .. => Option ℕ
  | getPlan .. => Option (List (List String))
  | hgetall _ => List ReleaseExtractionOutcome
  | _ => Unit

/-- The Redis commands. -/
def Op.isHot : Op → Bool
  | getVersion .. => true
  | putVersion .. => true
  | getPlan .. => true
  | setPlan .. => true
  | hset .. => true
  | hgetall _ => true
  | del _ => true
  | expire _ => true
  | _ => false

abbrev checkpoints : Signature := ⟨Op, Op.Ans⟩

abbrev Store := Prog checkpoints CheckpointError

def await (o : Op) : Store o.Ans := @Prog.call checkpoints CheckpointError o

def effect (P : Platform) (batchSize : ℕ) (worker : ℕ) (st : CheckpointState) :
    (o : Op) → Checked o.Ans × CheckpointState
  | .binding s => ((st.binding worker s).map fun _ => (), st)
  | .currentVersion s part => ((st.binding worker s).map fun _ => st.versions worker s part, st)
  | .refreshVersion s part => refreshVersion st worker s part
  | .durablePutPassPlan s pass chunks => durablePutPassPlan st worker s pass chunks
  | .durableGetPassPlan s pass => (durableGetPassPlan st worker s pass, st)
  | .durablePutOutcomes s os => durablePutOutcomes P batchSize st worker s os
  | .durableGetOutcomes s => (durableGetOutcomes P st worker s, st)
  | .getVersion s part => (.ok (st.hot.versions s part), st)
  | .putVersion s part version => (.ok (), { st with hot := { st.hot with
      versions := Function.update st.hot.versions s
        (Function.update (st.hot.versions s) part (some version)) } })
  | .getPlan s pass => (.ok (st.hot.plan? s pass), st)
  | .setPlan s pass chunks => (.ok (), { st with hot := { st.hot with
      plans := put HotPlan.key ⟨s, pass, chunks⟩ st.hot.plans } })
  | .hset s o => (.ok (), { st with hot := { st.hot with
      outcomes := Function.update st.hot.outcomes s (putOutcomes (st.hot.outcomes s) [o]) } })
  | .hgetall s => (.ok (st.hot.outcomes s), st)
  | .del s => (.ok (), { st with hot := st.hot.lose (.outcomes s) })
  | .expire _ => (.ok (), st)
  | .planAnswered s pass answer =>
    (.ok (), { st with log := .plan answer (durableGetPassPlan st worker s pass) :: st.log })
  | .outcomesAnswered s answer =>
    (.ok (), { st with log := .outcomes answer (durableGetOutcomes P st worker s) :: st.log })

/-- How an await ends: as it should, or, if it is a Redis command, with an error, whether
or not it took effect. -/
inductive Fate
  | done
  | fails (effective : Bool) (message : String)
  deriving DecidableEq, Repr

def Fate.takesEffect : Fate → Bool
  | done => true
  | fails effective _ => effective

/-- The keys that Redis has lost before an await, and how it ends. -/
structure Choice where
  lost : List HotKey
  fate : Fate
  deriving DecidableEq, Repr

/-- The steps that await nothing: Redis loses no key meanwhile. -/
def Op.isSync : Op → Bool
  | binding _ => true
  | currentVersion .. => true
  | planAnswered .. => true
  | outcomesAnswered .. => true
  | _ => false

def perform (P : Platform) (batchSize : ℕ) (t : Request) (st : CheckpointState) (o : Op) (c : Choice) :
    Option (Checked o.Ans × CheckpointState) :=
  if o.isSync ∧ c.lost ≠ [] then none
  else match c.fate with
  | .done => some (effect P batchSize t.worker (st.lose c.lost) o)
  | .fails effective message =>
    if o.isHot then
      some (.error (.redis message),
        if effective then (effect P batchSize t.worker (st.lose c.lost) o).2 else st.lose c.lost)
    else none

/-! ### TieredSnapshotCheckpointStore -/

def tiers : Tiers checkpoints ℚ where
  currentVersion s part := await (.currentVersion s part)
  refreshVersion s part := await (.refreshVersion s part)
  getVersion s part := await (.getVersion s part)
  putVersion s part version := await (.putVersion s part version)
  binding s := await (.binding s)
  durablePutPassPlan s pass chunks := await (.durablePutPassPlan s pass chunks)
  durableGetPassPlan s pass := await (.durableGetPassPlan s pass)
  getPlan s pass := await (.getPlan s pass)
  setPlan s pass chunks := await (.setPlan s pass chunks)
  durablePutOutcomes s outcomes := await (.durablePutOutcomes s outcomes)
  durableGetOutcomes s := await (.durableGetOutcomes s)
  hset s outcome := await (.hset s outcome)
  hgetall s := await (.hgetall s)
  del s := await (.del s)
  expire s := await (.expire s)

/-- A read is followed by the note of what it answered. -/
def serve (P : Platform) (t : Request) : Store Unit :=
  match t.call with
  | .putPassPlan s pass chunks => tiers.putPassPlan s pass chunks
  | .getPassPlan s pass => do
    let answer ← (tiers.getPassPlan s pass).attempt
    await (.planAnswered s pass answer)
  | .putOutcomes s outcomes => tiers.putOutcomes P s outcomes
  | .getOutcomes s => do
    let answer ← (tiers.getOutcomes P s).attempt
    await (.outcomesAnswered s answer)

/-- The store under the calls that `admits` lets start beside the running ones. -/
def tieredSystem (P : Platform) (batchSize : ℕ) (admits : List Request → Bool) :
    System checkpoints CheckpointError CheckpointState Request Choice where
  perform := perform P batchSize
  code := serve P
  start st running _ := if admits running then some st else none
  settle st _ _ := st
  crash st _ := st
  env _ _ := none

def oneAtATime (running : List Request) : Bool := running.isEmpty

abbrev CheckpointWorld := World checkpoints CheckpointError CheckpointState Request

/-- Nothing is stored yet, every worker's bindings are those of the rows, and no worker
remembers a revision that is still to come. -/
structure CheckpointState.Fresh (st : CheckpointState) : Prop where
  hot : st.hot = HotTier.empty
  outcomes : ∀ s, st.durable.outcomes s = []
  plans : ∀ s pass, st.durable.plans s pass = []
  bound : ∀ worker s b, st.bindings worker s = some b → st.durable.holds b
  versions : ∀ worker s part, st.versions worker s part ≤ st.durable.versions s part
  log : st.log = []

end CatalogSentinel.Checkpoint
