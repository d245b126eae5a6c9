import CatalogSentinel.Concurrent.RowLocks
import CatalogSentinel.Checkpoint.StoreRows

/-!
`TieredSnapshotCheckpointStore`, command by command: every Redis command, every SQL command and
every access to a map of the store instance is an await. PostgreSQL is read committed: a
transaction locks the row of its snapshot first, and publishes what it wrote when it commits. A
command may fail, before or after it took effect, and Redis may lose any key at any time.
-/

namespace CatalogSentinel.Checkpoint.Commands

open CatalogSentinel.Data CatalogSentinel.Concurrent CatalogSentinel.Distrokid

/-! ### PostgreSQL -/

/-- The row of a snapshot in `DistroKidSnapshotCheckpoint`, with its rows in the other tables. -/
structure SnapshotRows extends RowSet where
  binding : SnapshotCheckpointBinding
  versions : CheckpointPart → ℕ

/-- The rows that the first binding of a snapshot inserts. -/
def SnapshotRows.fresh (b : SnapshotCheckpointBinding) : SnapshotRows where
  index := []
  outcomes := []
  progress := none
  chunks := []
  plans := fun _ => []
  terminal := none
  binding := b
  versions := fun _ => 0

/-- The rows of every snapshot. A transaction goes by the id of its request. -/
abbrev Tables := RowLocks String (Option SnapshotRows) ℕ

/-- `WHERE "userId"=$1 AND "connectionId"=$2 AND "snapshotId"=$3` -/
def rowOf (b : SnapshotCheckpointBinding) (rows : Option SnapshotRows) : Option SnapshotRows :=
  rows.filter fun r => scope r.binding = scope b

/-- The statements of a transaction, on the rows that it has locked. -/
inductive Statement
  | deleteIndex
  | insertIndex (batch : List (ReleaseRefRecord × ℕ))
  | upsertOutcomes (batch : List ReleaseExtractionOutcome)
  | upsertProgress (progress : SnapshotProgress)
  | insertChunk (pass chunkIndex : ℕ)
  | deletePlan (pass : ℕ)
  | insertPlan (pass : ℕ) (batch : List (List String × ℕ))
  | insertTerminal (tombstone : SnapshotTerminalTombstone)
  | bumpVersion (part : CheckpointPart)

/-- What `RETURNING` answers. -/
@[reducible] def Statement.Ans : Statement → Type
  | insertChunk .. => Bool
  | insertTerminal _ => Option SnapshotTerminalTombstone
  | bumpVersion _ => ℕ
  | _ => Unit

section Statements

variable (D : DashboardPlatform) (dep : Deployment) (r : SnapshotRows)

def Statement.execute : (st : Statement) → Checked (st.Ans × SnapshotRows)
  | .deleteIndex => .ok ((), { r with index := [] })
  | .insertIndex batch => do
    let _ ← batch.mapM fun row => row.1.expectedTrackCount.mapM pgCount
    return ((), { r with index := r.index ++ batch })
  | .upsertOutcomes batch =>
    if (batch.map (·.outcomeReleaseId)).Nodup then
      .ok ((), { r with outcomes := Distrokid.putOutcomes r.outcomes batch })
    else .error (.postgres "ON CONFLICT DO UPDATE command cannot affect row a second time")
  | .upsertProgress progress => do
    let row ← progressRow D dep progress
    return ((), { r with progress := some row })
  | .insertChunk pass chunkIndex => do
    let passColumn ← pgCount pass
    let chunkColumn ← pgCount chunkIndex
    let row := (passColumn, chunkColumn)
    return (!r.chunks.contains row, { r with chunks := addOnce row r.chunks })
  | .deletePlan pass => do
    let passColumn ← pgCount pass
    return ((), { r with plans := Function.update r.plans passColumn [] })
  | .insertPlan pass batch => do
    let passColumn ← pgCount pass
    return ((), { r with plans := Function.update r.plans passColumn (r.plans passColumn ++ batch) })
  | .insertTerminal tombstone =>
    match r.terminal with
    | some _ => .ok (none, r)
    | none => .ok (some tombstone, { r with terminal := some tombstone })
  | .bumpVersion part =>
    .ok (r.versions part + 1,
      { r with versions := Function.update r.versions part (r.versions part + 1) })

end Statements

inductive SqlOp
  | connect
  | begin
  | lock (b : SnapshotCheckpointBinding)
  | execute (snapshotId : String) (st : Statement)
  | commit (snapshotId : String)
  | rollback (snapshotId : String)
  | insertCheckpoint (b : SnapshotCheckpointBinding)
  | selectCheckpoint (snapshotId : String)
  | selectVersion (b : SnapshotCheckpointBinding) (part : CheckpointPart)
  | selectIndex (b : SnapshotCheckpointBinding) (after : ℤ)
  | selectOutcomes (b : SnapshotCheckpointBinding) (after : String)
  | selectProgress (b : SnapshotCheckpointBinding)
  | selectChunks (b : SnapshotCheckpointBinding) (pass : ℕ) (after : ℤ)
  | countChunks (b : SnapshotCheckpointBinding) (pass : ℕ)
  | selectPlan (b : SnapshotCheckpointBinding) (pass : ℕ) (after : ℤ)
  | selectTerminal (b : SnapshotCheckpointBinding)

@[reducible] def SqlOp.Ans : SqlOp → Type
  | lock _ => Bool
  | execute _ st => st.Ans
  | selectCheckpoint _ => Option (SnapshotCheckpointBinding × (CheckpointPart → ℕ))
  | selectVersion .. => Option ℕ
  | selectIndex .. => List (ReleaseRefRecord × ℕ)
  | selectOutcomes .. => List ReleaseExtractionOutcome
  | selectProgress _ => Option ProgressRow
  | selectChunks .. => List ℕ
  | countChunks .. => ℕ
  | selectPlan .. => List (List String × ℕ)
  | selectTerminal _ => Option SnapshotTerminalTombstone
  | _ => Unit

/-- The completed chunks of a pass. -/
def passChunks (rows : Option SnapshotRows) (pass : ℕ) : List ℕ :=
  (rows.elim [] (·.chunks)).filterMap fun row => if row.1 = pass then some row.2 else none

def terminalOf (rows : Option SnapshotRows) : Option SnapshotTerminalTombstone :=
  rows.bind (·.terminal)

/-- The next page of rows in the order of an integer column. -/
def nextPage {R : Type} (key : R → ℕ) (rows : List R) (after : ℤ) : List R :=
  page (fun row => (key row : ℤ)) CHECKPOINT_PAGE_SIZE rows after

/-- A SQL command, where it does not have to wait for a lock. -/
def SqlOp.perform (D : DashboardPlatform) (dep : Deployment) (t : ℕ) (d : Tables) :
    (o : SqlOp) → Option (Checked o.Ans × Tables)
  | .connect => some (.ok (), d)
  | .begin => some (.ok (), d)
  | .lock b =>
    match rowOf b (d.rows b.snapshotId) with
    | none => some (.ok false, d)
    | some _ => (d.lock t b.snapshotId).map fun d' => (.ok true, d')
  | .execute s st =>
    match d.own? t s with
    | some (some r) =>
      match st.execute D dep r with
      | .ok (answer, r') => some (.ok answer, d.write t s (some r'))
      | .error e => some (.error e, d)
    | _ => some (.error (.postgres "the row is not locked"), d)
  | .commit s => some (.ok (), d.commit t s)
  | .rollback s => some (.ok (), d.rollback t s)
  | .insertCheckpoint b =>
    match d.rows b.snapshotId with
    | some _ => some (.ok (), d)
    | none => some (.ok (), d.autocommit b.snapshotId (some (SnapshotRows.fresh b)))
  | .selectCheckpoint s => some (.ok ((d.rows s).map fun r => (r.binding, r.versions)), d)
  | .selectVersion b part =>
    some (.ok ((rowOf b (d.rows b.snapshotId)).map fun r => r.versions part), d)
  | .selectIndex b after =>
    let rows := (rowOf b (d.rows b.snapshotId)).elim [] fun r => r.index
    some (.ok (nextPage (fun row => row.2) rows after), d)
  | .selectOutcomes b after =>
    let rows := (rowOf b (d.rows b.snapshotId)).elim [] fun r => r.outcomes
    some (.ok (page (·.outcomeReleaseId) CHECKPOINT_PAGE_SIZE rows after), d)
  | .selectProgress b =>
    some (.ok ((rowOf b (d.rows b.snapshotId)).bind fun r => r.progress), d)
  | .selectChunks b pass after =>
    match pgCount pass with
    | .error e => some (.error e, d)
    | .ok passColumn =>
      let chunks := passChunks (rowOf b (d.rows b.snapshotId)) passColumn
      some (.ok (nextPage id chunks after), d)
  | .countChunks b pass =>
    match pgCount pass with
    | .error e => some (.error e, d)
    | .ok passColumn =>
      some (.ok (passChunks (rowOf b (d.rows b.snapshotId)) passColumn).length, d)
  | .selectPlan b pass after =>
    match pgCount pass with
    | .error e => some (.error e, d)
    | .ok passColumn =>
      let rows := (rowOf b (d.rows b.snapshotId)).elim [] fun r => r.plans passColumn
      some (.ok (nextPage (fun row => row.2) rows after), d)
  | .selectTerminal b => some (.ok (terminalOf (rowOf b (d.rows b.snapshotId))), d)

/-! ### Redis -/

/-- The versions that Redis keeps: of the parts, and the size of each set of chunks. -/
inductive VersionPart
  | part (part : CheckpointPart)
  | chunks (pass : ℕ)
  deriving DecidableEq, Repr

/-- The keys `dk:snap:${snapshotId}:…`. -/
inductive Key
  | binding (snapshotId : String)
  | index (snapshotId : String)
  | outcomes (snapshotId : String)
  | progress (snapshotId : String)
  | chunks (snapshotId : String) (pass : ℕ)
  | plan (snapshotId : String) (pass : ℕ)
  | terminal (snapshotId : String)
  | version (snapshotId : String) (part : VersionPart)
  deriving DecidableEq, Repr

/-- What the text under a key stands for, or the hash or the set under it. -/
def Key.Value : Key → Type
  | binding _ => SnapshotCheckpointBinding
  | index _ => List ReleaseRefRecord
  | outcomes _ => List ReleaseExtractionOutcome
  | progress _ => SnapshotProgress
  | chunks .. => List ℕ
  | plan .. => List (List String)
  | terminal _ => SnapshotTerminalTombstone
  | version .. => ℕ

abbrev Redis := (k : Key) → Option k.Value

def Redis.set (r : Redis) (k : Key) (value : k.Value) : Redis := Function.update r k (some value)

def Redis.del (r : Redis) (k : Key) : Redis := Function.update r k none

def Redis.hashOf (r : Redis) (s : String) : List ReleaseExtractionOutcome := (r (.outcomes s)).getD []

def Redis.setOf (r : Redis) (s : String) (pass : ℕ) : List ℕ := (r (.chunks s pass)).getD []

inductive RedisOp
  | get (k : Key)
  | set (k : Key) (value : k.Value)
  | setNX (k : Key) (value : k.Value)
  | del (k : Key)
  | expire (k : Key)
  | hset (snapshotId : String) (outcome : ReleaseExtractionOutcome)
  | hgetall (snapshotId : String)
  | sadd (snapshotId : String) (pass chunkIndex : ℕ)
  | smembers (snapshotId : String) (pass : ℕ)

@[reducible] def RedisOp.Ans : RedisOp → Type
  | get k => Option k.Value
  | setNX .. => Bool
  | hgetall _ => List ReleaseExtractionOutcome
  | smembers .. => List ℕ
  | _ => Unit

def RedisOp.perform (r : Redis) : (o : RedisOp) → o.Ans × Redis
  | .get k => (r k, r)
  | .set k value => ((), r.set k value)
  | .setNX k value => if (r k).isSome then (false, r) else (true, r.set k value)
  | .del k => ((), r.del k)
  | .expire _ => ((), r)
  | .hset s o => ((), r.set (.outcomes s) (Distrokid.putOutcomes (r.hashOf s) [o]))
  | .hgetall s => (r.hashOf s, r)
  | .sadd s pass i => ((), r.set (.chunks s pass) (addOnce i (r.setOf s pass)))
  | .smembers s pass => (r.setOf s pass, r)

/-! ### The store instances -/

/-- The maps of one store instance: those of the durable store, and the tiered store's own. -/
structure Instance where
  durableBindings : String → Option SnapshotCheckpointBinding
  versions : String → Option (CheckpointPart → ℕ)
  bindings : String → Option SnapshotCheckpointBinding

def Instance.fresh : Instance := ⟨fun _ => none, fun _ => none, fun _ => none⟩

inductive MemoryOp
  | maps
  | rememberDurable (b : SnapshotCheckpointBinding) (versions : CheckpointPart → ℕ)
  | rememberTiered (b : SnapshotCheckpointBinding)
  | noteVersion (snapshotId : String) (part : CheckpointPart) (version : ℕ)

@[reducible] def MemoryOp.Ans : MemoryOp → Type
  | maps => Instance
  | _ => Unit

def MemoryOp.perform (m : Instance) : (o : MemoryOp) → Checked o.Ans × Instance
  | .maps => (.ok m, m)
  | .rememberDurable b versions =>
    (.ok (), { m with durableBindings := Function.update m.durableBindings b.snapshotId (some b)
                      versions := Function.update m.versions b.snapshotId (some versions) })
  | .rememberTiered b =>
    (.ok (), { m with bindings := Function.update m.bindings b.snapshotId (some b) })
  | .noteVersion s part version =>
    match m.versions s with
    | none => (.error (.bindingRequired s), m)
    | some versions =>
      (.ok (), { m with
        versions := Function.update m.versions s (some (Function.update versions part version)) })

/-! ### Awaits -/

deriving instance DecidableEq for StoreCall

/-- A call of a worker's store instance. No two requests share an id. -/
structure Request where
  id : ℕ
  worker : ℕ
  call : StoreCall
  deriving DecidableEq

/-- The rows of every snapshot, as committed at one time. -/
abbrev Committed := String → Option SnapshotRows

/-- A call that was answered, with the rows when it started and when it was answered. -/
structure Answered where
  request : Request
  answer : StoreAnswer
  began : Committed
  ended : Committed

/-- `stall` is a page beyond those that a call reads. -/
inductive Op
  | sql (o : SqlOp)
  | redis (o : RedisOp)
  | memory (o : MemoryOp)
  | answer (a : StoreAnswer)
  | stall

@[reducible] def Op.Ans : Op → Type
  | sql o => o.Ans
  | redis o => o.Ans
  | memory o => o.Ans
  | answer _ => Unit
  | stall => Empty

abbrev commands : Signature := ⟨Op, Op.Ans⟩

abbrev Store := Prog commands CheckpointError

def sql (o : SqlOp) : Store o.Ans := @Prog.call commands CheckpointError (.sql o)

def redis (o : RedisOp) : Store o.Ans := @Prog.call commands CheckpointError (.redis o)

def memory (o : MemoryOp) : Store o.Ans := @Prog.call commands CheckpointError (.memory o)

def stall {α : Type} : Store α := do
  let never ← @Prog.call commands CheckpointError .stall
  never.elim

/-- The two tiers and the store instances, with the calls that started and those answered. -/
structure State where
  tables : Tables
  redis : Redis
  instances : ℕ → Instance
  started : List (Request × Committed)
  answers : List Answered

/-- Nothing is stored yet. -/
def State.initial : State where
  tables := RowLocks.unlocked fun _ => none
  redis := fun _ => none
  instances := fun _ => Instance.fresh
  started := []
  answers := []

/-- How an await ends, or a key that Redis loses. -/
inductive Choice
  | done
  | fails (effective : Bool) (message : String)
  | lose (k : Key)

def begun (st : State) (t : Request) : Committed :=
  ((st.started.find? fun q => q.1.id = t.id).map Prod.snd).getD fun _ => none

/-- A SQL command that fails ends its transaction. -/
def perform (D : DashboardPlatform) (dep : Deployment) (t : Request) (st : State) :
    (o : Op) → Choice → Option (Checked o.Ans × State)
  | .sql o, .done =>
    (o.perform D dep t.id st.tables).map fun r => (r.1, { st with tables := r.2 })
  | .sql o, .fails effective message =>
    (o.perform D dep t.id st.tables).map fun r =>
      let tables := if effective then r.2 else st.tables
      (.error (.postgres message), { st with tables := tables.abandon t.id })
  | .redis o, .done => some (.ok (o.perform st.redis).1, { st with redis := (o.perform st.redis).2 })
  | .redis o, .fails effective message =>
    some (.error (.redis message),
      { st with redis := if effective then (o.perform st.redis).2 else st.redis })
  | .memory o, .done =>
    let r := o.perform (st.instances t.worker)
    some (r.1, { st with instances := Function.update st.instances t.worker r.2 })
  | .answer a, .done =>
    some (.ok (), { st with answers := ⟨t, a, begun st t, st.tables.rows⟩ :: st.answers })
  | _, _ => none

/-! ### PostgresSnapshotCheckpointStore -/

namespace Postgres

def binding (snapshotId : String) : Store SnapshotCheckpointBinding := do
  let m : Instance ← memory .maps
  match m.durableBindings snapshotId with
  | none => throw (.bindingRequired snapshotId)
  | some b => return b

def bindSnapshot (b : SnapshotCheckpointBinding) : Store Unit := do
  Prog.ofExcept (validateBinding b)
  let m : Instance ← memory .maps
  if (m.durableBindings b.snapshotId).any (· ≠ b) then throw .principalMismatch
  sql (.insertCheckpoint b)
  match ← sql (.selectCheckpoint b.snapshotId) with
  | none => throw .principalMismatch
  | some (row, versions) =>
    if row ≠ b then throw .principalMismatch
    memory (.rememberDurable b versions)

def refreshVersion (snapshotId : String) (part : CheckpointPart) : Store ℕ := do
  let b ← binding snapshotId
  match ← sql (.selectVersion b part) with
  | none => throw .principalMismatch
  | some version =>
    memory (.noteVersion snapshotId part version)
    return version

def currentVersion (snapshotId : String) (part : CheckpointPart) : Store ℕ := do
  let _ ← binding snapshotId
  let m : Instance ← memory .maps
  match m.versions snapshotId with
  | none => throw (.bindingRequired snapshotId)
  | some versions => return versions part

def transaction {α : Type} (snapshotId : String) (work : Store α) : Store α := do
  sql .connect
  Prog.handle (do
    sql .begin
    let result ← work
    sql (.commit snapshotId)
    return result) fun error => do
      Prog.settle (sql (.rollback snapshotId))
      throw error

def lock (b : SnapshotCheckpointBinding) : Store Unit := do
  let locked : Bool ← sql (.lock b)
  if !locked then throw .principalMismatch

/-- The version is noted before the transaction commits. -/
def bumpVersion (b : SnapshotCheckpointBinding) (part : CheckpointPart) : Store Unit := do
  let version : ℕ ← sql (.execute b.snapshotId (.bumpVersion part))
  memory (.noteVersion b.snapshotId part version)

/-- `for (let offset = 0; offset < rows.length; offset += this.batchSize)` -/
def inBatches {α : Type} (size : ℕ) (insert : ℕ → List α → Store Unit) : ℕ → ℕ → List α → Store Unit
  | 0, _, _ => return
  | fuel + 1, offset, rows => do
    if rows = [] then return
    insert offset (rows.take size)
    inBatches size insert fuel (offset + size) (rows.drop size)

/-- `while (true) { …; if (rows.length < CHECKPOINT_PAGE_SIZE) break; }` -/
def readPages {R K β : Type} (query : K → Store (List R)) (key : R → K) (f : β → R → Checked β) :
    ℕ → K → β → Store β
  | 0, _, _ => stall
  | fuel + 1, after, acc => do
    let rows ← query after
    let acc ← Prog.ofExcept (rows.foldlM f acc)
    match rows.getLast? with
    | none => return acc
    | some last =>
      if rows.length < CHECKPOINT_PAGE_SIZE then return acc
      else readPages query key f fuel (key last) acc

section Calls

variable (D : DashboardPlatform) (dep : Deployment) (pages : ℕ)

def putIndex (snapshotId : String) (releases : List ReleaseRefRecord) : Store Unit := do
  let b ← binding snapshotId
  if releases.length > MAX_RELEASES then
    throw (.invalid "snapshot index exceeds its bounded release limit")
  let sanitized ← Prog.ofExcept (releases.mapM (sanitizeReleaseRef D))
  if ¬ (sanitized.map (·.releaseId)).Nodup then
    throw (.invalid "snapshot index contains duplicate release ids")
  transaction snapshotId do
    lock b
    sql (.execute snapshotId .deleteIndex)
    inBatches dep.batchSize (fun offset batch =>
      sql (.execute snapshotId (.insertIndex (batch.zipIdx offset)))) sanitized.length 0 sanitized
    bumpVersion b .index

def getIndex (snapshotId : String) : Store (List ReleaseRefRecord) := do
  let b ← binding snapshotId
  readPages (fun after => sql (.selectIndex b after)) (fun row => (row.2 : ℤ))
    (fun result raw => do
      let release ← sanitizeReleaseRef D raw.1
      return result ++ [release]) pages (-1) []

def putOutcomes (snapshotId : String) (outcomes : List ReleaseExtractionOutcome) : Store Unit := do
  let b ← binding snapshotId
  if outcomes.length > MAX_RELEASES then
    throw (.invalid "outcome checkpoint batch exceeds its bounded release limit")
  let sanitized ← Prog.ofExcept (outcomes.mapM (sanitizeOutcome D.toPlatform))
  transaction snapshotId do
    lock b
    inBatches dep.batchSize (fun _ batch => sql (.execute snapshotId (.upsertOutcomes batch)))
      sanitized.length 0 sanitized
    if sanitized.length > 0 then bumpVersion b .outcomes

def getOutcomes (snapshotId : String) : Store (List ReleaseExtractionOutcome) := do
  let b ← binding snapshotId
  readPages (fun after => sql (.selectOutcomes b after)) (·.outcomeReleaseId)
    (fun outcomes raw => do
      let outcome ← sanitizeOutcome D.toPlatform raw
      return outcomes ++ [outcome]) pages "" []

def putProgress (progress : SnapshotProgress) : Store Unit := do
  let b ← binding progress.snapshotId
  let value ← Prog.ofExcept (sanitizeProgress D.toPlatform progress b)
  transaction progress.snapshotId do
    lock b
    sql (.execute progress.snapshotId (.upsertProgress value))
    bumpVersion b .progress

def getProgress (snapshotId : String) : Store (Option SnapshotProgress) := do
  let b ← binding snapshotId
  match ← sql (.selectProgress b) with
  | none => return none
  | some raw =>
    let progress ← Prog.ofExcept (sanitizeProgress D.toPlatform (raw.progress D b) b)
    return some progress

def markChunkComplete (snapshotId : String) (pass chunkIndex : ℕ) : Store Unit := do
  let b ← binding snapshotId
  let safePass ← Prog.ofExcept (PostgresSnapshotCheckpointStore.chunkPass pass)
  let safeChunk ← Prog.ofExcept (safeCount chunkIndex "chunk index")
  transaction snapshotId do
    lock b
    let inserted : Bool ← sql (.execute snapshotId (.insertChunk safePass safeChunk))
    if inserted then bumpVersion b .chunks

def completedChunks (snapshotId : String) (pass : ℕ) : Store (List ℕ) := do
  let b ← binding snapshotId
  let safePass ← Prog.ofExcept (PostgresSnapshotCheckpointStore.chunkPass pass)
  readPages (fun after => sql (.selectChunks b safePass after)) (fun row => (row : ℤ))
    (fun chunks row => do
      let chunk ← safeCount row "stored chunk index"
      return chunks ++ [chunk]) pages (-1) []

def completedChunkCount (snapshotId : String) (pass : ℕ) : Store ℕ := do
  let b ← binding snapshotId
  let safePass ← Prog.ofExcept (PostgresSnapshotCheckpointStore.chunkPass pass)
  sql (.countChunks b safePass)

def putPassPlan (snapshotId : String) (pass : ℕ) (releaseIdChunks : List (List String)) :
    Store Unit := do
  let b ← binding snapshotId
  let safePass ← Prog.ofExcept (safeCount pass "plan pass")
  if safePass < 1 || releaseIdChunks.length > MAX_RELEASES then
    throw (.invalid "invalid pass plan checkpoint")
  let plan ← Prog.ofExcept (releaseIdChunks.zipIdx.mapM fun x => sanitizeChunk x.1 x.2)
  transaction snapshotId do
    lock b
    sql (.execute snapshotId (.deletePlan safePass))
    inBatches dep.batchSize (fun offset batch =>
      sql (.execute snapshotId (.insertPlan safePass (batch.zipIdx offset)))) plan.length 0 plan
    bumpVersion b .plans

def getPassPlan (snapshotId : String) (pass : ℕ) : Store (Option (List (List String))) := do
  let b ← binding snapshotId
  let safePass ← Prog.ofExcept (safeCount pass "plan pass")
  if safePass < 1 then throw (.invalid "checkpoint plan pass must be positive")
  let plan ← readPages (fun after => sql (.selectPlan b safePass after)) (fun row => (row.2 : ℤ))
    PostgresSnapshotCheckpointStore.readPlanRow pages (-1) []
  return if plan.length > 0 then some plan else none

def getTerminal (snapshotId : String) : Store (Option SnapshotTerminalTombstone) := do
  let b ← binding snapshotId
  match ← sql (.selectTerminal b) with
  | none => return none
  | some raw =>
    let tombstone ← Prog.ofExcept (sanitizeTombstone D.toPlatform raw b)
    return some tombstone

def claimTerminal (snapshotId : String) (tombstone : SnapshotTerminalTombstone) :
    Store SnapshotTerminalTombstone := do
  let b ← binding snapshotId
  let proposed ← Prog.ofExcept (sanitizeTombstone D.toPlatform tombstone b)
  let inserted ← transaction snapshotId do
    lock b
    let result : Option SnapshotTerminalTombstone ←
      sql (.execute snapshotId (.insertTerminal proposed))
    if result.isSome then bumpVersion b .terminal
    return result
  match inserted with
  | some raw => Prog.ofExcept (sanitizeTombstone D.toPlatform raw b)
  | none =>
    match ← getTerminal D snapshotId with
    | none => throw (.invalid "durable terminal tombstone ownership could not be confirmed")
    | some existing => return existing

end Calls

end Postgres

/-! ### RedisSnapshotStore -/

namespace Hot

def bindSnapshot (b : SnapshotCheckpointBinding) : Store Unit := do
  Prog.ofExcept (validateBinding b)
  let won : Bool ← redis (.setNX (.binding b.snapshotId) b)
  if !won then
    let raw : Option SnapshotCheckpointBinding ← redis (.get (.binding b.snapshotId))
    match raw with
    | none => throw (.invalid "snapshot Redis binding ownership could not be confirmed")
    | some existing =>
      if existing ≠ b then throw .principalMismatch
      redis (.expire (.binding b.snapshotId))

def markChunkComplete (snapshotId : String) (pass chunkIndex : ℕ) : Store Unit := do
  redis (.sadd snapshotId pass chunkIndex)
  redis (.expire (.chunks snapshotId pass))

def completedChunks (snapshotId : String) (pass : ℕ) : Store (List ℕ) := do
  let members : List ℕ ← redis (.smembers snapshotId pass)
  return members.insertionSort (· ≤ ·)

def markChunks (snapshotId : String) (pass : ℕ) : List ℕ → Store Unit
  | [] => return
  | i :: chunks => do
    markChunkComplete snapshotId pass i
    markChunks snapshotId pass chunks

def replaceCompletedChunks (snapshotId : String) (pass : ℕ) (chunks : List ℕ) : Store Unit := do
  redis (.del (.chunks snapshotId pass))
  markChunks snapshotId pass chunks

def putVersion (snapshotId : String) (part : VersionPart) (version : ℕ) : Store Unit :=
  redis (.set (.version snapshotId part) version)

def getVersion (snapshotId : String) (part : VersionPart) : Store (Option ℕ) :=
  redis (.get (.version snapshotId part))

end Hot

/-! ### TieredSnapshotCheckpointStore -/

def binding (snapshotId : String) : Store SnapshotCheckpointBinding := do
  let m : Instance ← memory .maps
  match m.bindings snapshotId with
  | none => throw (.bindingRequired snapshotId)
  | some b => return b

def revisions : Revisions commands where
  currentVersion := Postgres.currentVersion
  refreshVersion := Postgres.refreshVersion
  getVersion s part := Hot.getVersion s (.part part)
  putVersion s part version := Hot.putVersion s (.part part) version

def bindSnapshot (b : SnapshotCheckpointBinding) : Store Unit := do
  Prog.ofExcept (validateBinding b)
  Postgres.bindSnapshot b
  let m : Instance ← memory .maps
  if (m.bindings b.snapshotId).any (· ≠ b) then throw .principalMismatch
  memory (.rememberTiered b)
  cacheWrite (Hot.bindSnapshot b)

section Calls

variable (D : DashboardPlatform) (dep : Deployment) (pages : ℕ)

def putIndex (snapshotId : String) (releases : List ReleaseRefRecord) : Store Unit := do
  let _ ← binding snapshotId
  Postgres.putIndex D dep snapshotId releases
  let sanitized ← Prog.ofExcept (releases.mapM (sanitizeReleaseRef D))
  revisions.cacheProjection snapshotId .index (redis (.set (.index snapshotId) sanitized))

def cachedIndex (snapshotId : String) : Store (Option (List ReleaseRefRecord)) := do
  let raw : Option (List ReleaseRefRecord) ← redis (.get (.index snapshotId))
  match raw with
  | none => return none
  | some cached =>
    let releases ← Prog.ofExcept (cached.mapM (sanitizeReleaseRef D))
    return some releases

def getIndex (snapshotId : String) : Store (List ReleaseRefRecord) := do
  let _ ← binding snapshotId
  let hit ← revisions.hotMatchesDurable snapshotId .index
  match ← cachedAt hit (cachedIndex D snapshotId) with
  | some cached => return cached
  | none =>
    let durable ← Postgres.getIndex D pages snapshotId
    revisions.cacheProjection snapshotId .index (redis (.set (.index snapshotId) durable))
    return durable

def putProgress (progress : SnapshotProgress) : Store Unit := do
  let b ← binding progress.snapshotId
  let sanitized ← Prog.ofExcept (sanitizeProgress D.toPlatform progress b)
  Postgres.putProgress D sanitized
  revisions.cacheProjection progress.snapshotId .progress (redis (.set (.progress progress.snapshotId) sanitized))

def cachedProgress (snapshotId : String) (b : SnapshotCheckpointBinding) :
    Store (Option SnapshotProgress) := do
  let raw : Option SnapshotProgress ← redis (.get (.progress snapshotId))
  match raw with
  | none => return none
  | some cached =>
    let progress ← Prog.ofExcept (sanitizeProgress D.toPlatform cached b)
    return some progress

def getProgress (snapshotId : String) : Store (Option SnapshotProgress) := do
  let b ← binding snapshotId
  let hit ← revisions.hotMatchesDurable snapshotId .progress
  match ← cachedAt hit (cachedProgress D snapshotId b) with
  | some cached => return some cached
  | none =>
    let durable ← Postgres.getProgress D snapshotId
    match durable with
    | none => return none
    | some progress =>
      revisions.cacheProjection snapshotId .progress (redis (.set (.progress snapshotId) progress))
      return some progress

def markChunkComplete (snapshotId : String) (pass chunkIndex : ℕ) : Store Unit := do
  let _ ← binding snapshotId
  Postgres.markChunkComplete snapshotId pass chunkIndex
  let version ← Postgres.completedChunkCount snapshotId pass
  let hotVersion ← cacheRead (Hot.getVersion snapshotId (.chunks pass)) none
  cacheWrite do
    if isIncremental hotVersion version then Hot.markChunkComplete snapshotId pass chunkIndex
    else do
      let durable ← Postgres.completedChunks pages snapshotId pass
      Hot.replaceCompletedChunks snapshotId pass durable
    Hot.putVersion snapshotId (.chunks pass) version

def cachedChunks (snapshotId : String) (pass durableCount : ℕ) : Store (Option (List ℕ)) := do
  let hotVersion ← Hot.getVersion snapshotId (.chunks pass)
  if hotVersion = some durableCount then
    let cached ← Hot.completedChunks snapshotId pass
    return if cached.length = durableCount then some cached else none
  else return none

def completedChunks (snapshotId : String) (pass : ℕ) : Store (List ℕ) := do
  let _ ← binding snapshotId
  let durableCount ← Postgres.completedChunkCount snapshotId pass
  match ← cacheRead (cachedChunks snapshotId pass durableCount) none with
  | some cached => return cached
  | none =>
    let durable ← Postgres.completedChunks pages snapshotId pass
    cacheWrite do
      Hot.replaceCompletedChunks snapshotId pass durable
      Hot.putVersion snapshotId (.chunks pass) durable.length
    return durable

def claimTerminal (snapshotId : String) (tombstone : SnapshotTerminalTombstone) :
    Store SnapshotTerminalTombstone := do
  let b ← binding snapshotId
  let sanitized ← Prog.ofExcept (sanitizeTombstone D.toPlatform tombstone b)
  let winner ← Postgres.claimTerminal D snapshotId sanitized
  revisions.cacheProjection snapshotId .terminal (redis (.set (.terminal snapshotId) winner))
  return winner

def cachedTerminal (snapshotId : String) (b : SnapshotCheckpointBinding) :
    Store (Option SnapshotTerminalTombstone) := do
  let raw : Option SnapshotTerminalTombstone ← redis (.get (.terminal snapshotId))
  match raw with
  | none => return none
  | some cached =>
    let tombstone ← Prog.ofExcept (sanitizeTombstone D.toPlatform cached b)
    return some tombstone

def getTerminal (snapshotId : String) : Store (Option SnapshotTerminalTombstone) := do
  let b ← binding snapshotId
  let hit ← revisions.hotMatchesDurable snapshotId .terminal
  match ← cachedAt hit (cachedTerminal D snapshotId b) with
  | some cached => return some cached
  | none =>
    let durable ← Postgres.getTerminal D snapshotId
    match durable with
    | none => return none
    | some tombstone =>
      revisions.cacheProjection snapshotId .terminal (redis (.set (.terminal snapshotId) tombstone))
      return some tombstone

/-- The tiers, in the commands that their methods send. -/
def tiers : Tiers commands ℕ where
  toRevisions := revisions
  binding s := discard (binding s)
  durablePutPassPlan := Postgres.putPassPlan dep
  durableGetPassPlan := Postgres.getPassPlan pages
  getPlan s pass := redis (.get (.plan s pass))
  setPlan s pass chunks := redis (.set (.plan s pass) chunks)
  durablePutOutcomes := Postgres.putOutcomes D dep
  durableGetOutcomes := Postgres.getOutcomes D pages
  hset s outcome := redis (.hset s outcome)
  hgetall s := redis (.hgetall s)
  del s := redis (.del (.outcomes s))
  expire s := redis (.expire (.outcomes s))

def serve : StoreCall → Store StoreAnswer
  | .bindSnapshot b => do bindSnapshot b; return .done
  | .putIndex s releases => do putIndex D dep s releases; return .done
  | .getIndex s => StoreAnswer.index <$> getIndex D pages s
  | .putOutcomes s os => do (tiers D dep pages).putOutcomes D.toPlatform s os; return .done
  | .getOutcomes s => StoreAnswer.outcomes <$> (tiers D dep pages).getOutcomes D.toPlatform s
  | .putProgress p => do putProgress D p; return .done
  | .getProgress s => StoreAnswer.progress <$> getProgress D s
  | .markChunkComplete s pass i => do markChunkComplete pages s pass i; return .done
  | .completedChunks s pass => StoreAnswer.chunks <$> completedChunks pages s pass
  | .putPassPlan s pass chunks => do (tiers D dep pages).putPassPlan s pass chunks; return .done
  | .getPassPlan s pass => StoreAnswer.plan <$> (tiers D dep pages).getPassPlan s pass
  | .claimTerminal s t => (fun winner => .terminal (some winner)) <$> claimTerminal D s t
  | .getTerminal s => StoreAnswer.terminal <$> getTerminal D s

def code (t : Request) : Store Unit := do
  let a ← serve D dep pages t.call
  @Prog.call commands CheckpointError (.answer a)

/-- Any number of store instances over the same two tiers. -/
def store : System commands CheckpointError State Request Choice where
  perform := perform D dep
  code := code D dep pages
  start st _ t :=
    if st.started.any fun q => q.1.id = t.id then none
    else some { st with started := (t, st.tables.rows) :: st.started }
  settle st _ _ := st
  crash st t := { st with tables := st.tables.abandon t.id }
  env st
    | .lose k => some { st with redis := st.redis.del k }
    | _ => none

end Calls

end CatalogSentinel.Checkpoint.Commands
