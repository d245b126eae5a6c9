import CatalogSentinel.Concurrent.Steps
import CatalogSentinel.Distrokid.Deadline
import CatalogSentinel.Distrokid.RecoverySweep

/-!
Who decides what a snapshot is recovered with. Calls that start the snapshot, sweeps and clears
interleave statement by statement on the same tables. As long as nothing is cleared, what was
stored first is what every preparation returns, every sweep lists and every index job keeps to;
and a snapshot that is terminal and cleared is never given an envelope again.
-/

namespace CatalogSentinel.Distrokid.Authority

open CatalogSentinel.Data CatalogSentinel.Concurrent CatalogSentinel.Checkpoint

variable (D : Dates)

/-! ### Preparation, statement by statement -/

/-- The upsert, and what is made of the row that it returns; `none` is no row. -/
def prepareRow (t : RecoveryTables) (job : CatalogIndexJob) :
    Except RecoveryError (Option CatalogIndexJob) × RecoveryTables :=
  match (proposedRoot D job).bind (upsert t) with
  | none => (.error .database, t)
  | some (none, t') => (.ok none, t')
  | some (some row, t') =>
    match fromRow D row with
    | .error e => (.error e, t')
    | .ok durable =>
      if sameImmutablePrincipal durable job then (.ok (some durable), t') else (.error .principalMismatch, t')

/-! ### Calls -/

/-- Where a call has got to. -/
inductive RecoveryCall
  -- `startSnapshot`
  | submitted (job : CatalogIndexJob)
  | versioned (job : CatalogIndexJob)
  | validated (job : CatalogIndexJob)
  | refused (job : CatalogIndexJob)
  | prepared (durable : CatalogIndexJob)
  | adding (durable job : CatalogIndexJob) (readAt : ℤ)
  -- a sweep: the job at hand and those that are left
  | sweeping (jobs : List CatalogIndexJob)
  | bound (job : CatalogIndexJob) (jobs : List CatalogIndexJob)
  | clearing (job : CatalogIndexJob) (jobs : List CatalogIndexJob)
  | unstopped (job : CatalogIndexJob) (jobs : List CatalogIndexJob)
  | inTime (job : CatalogIndexJob) (readAt : ℤ) (jobs : List CatalogIndexJob)
  | live (job : CatalogIndexJob) (readAt : ℤ) (jobs : List CatalogIndexJob)
  | done
  deriving DecidableEq, Repr

inductive RecoveryEvent
  | prepared (durable : CatalogIndexJob)
  | listed (limit : ℕ) (jobs : List CatalogIndexJob)
  | enqueued (job : CatalogIndexJob) (readAt : ℤ)
  | cleared (job : CatalogIndexJob) (removed : Bool)
  | claimed (key : String × String × String)
  deriving DecidableEq, Repr

/-- The log is newest first. -/
structure RecoveryWorld where
  tables : RecoveryTables
  clock : ℤ
  calls : List RecoveryCall
  log : List RecoveryEvent

def RecoveryWorld.idle (tables : RecoveryTables) (clock : ℤ) : RecoveryWorld := ⟨tables, clock, [], []⟩

/-- How a step turns out where the tables leave it open. -/
inductive Turn
  | goesOn | otherwise | fails
  deriving DecidableEq, Repr

structure Advance where
  call : RecoveryCall
  tables : RecoveryTables
  event : Option RecoveryEvent

variable (options : DistroKidProducerOptions)

/-- `{ schemaVersion: DISTROKID_JOB_SCHEMA_VERSION, ...budgeted }` -/
def withVersion (budgeted : CatalogIndexJob) : CatalogIndexJob :=
  { budgeted with schemaVersion := budgeted.schemaVersion.or (some DISTROKID_JOB_SCHEMA_VERSION) }

def terminalKey (job : CatalogIndexJob) : String × String × String := (job.tenantId, job.connectionId, job.snapshotId)

/-- The call goes on, and has changed nothing. -/
def RecoveryWorld.go (w : RecoveryWorld) (call : RecoveryCall) : Advance := ⟨call, w.tables, none⟩

/-- `withDistroKidDeadline`, the schema version and `parseJob` -/
def budget (w : RecoveryWorld) (job : CatalogIndexJob) : Advance :=
  match withDistroKidDeadline D options w.clock job with
  | .error _ => w.go .done
  | .ok budgeted =>
    if catalogIndexJobSchema D (withVersion budgeted) then w.go (.versioned (withVersion budgeted)) else w.go .done

def validate (w : RecoveryWorld) (job : CatalogIndexJob) : Advance :=
  match validatedRecoveryJob D job (some w.clock) with
  | .error _ => w.go .done
  | .ok job => w.go (.validated job)

/-- The upsert. Its answer may be lost. -/
def store (w : RecoveryWorld) (turn : Turn) (job : CatalogIndexJob) : Advance :=
  match turn, prepareRow D w.tables job with
  | .fails, (_, t) => ⟨.done, t, none⟩
  | _, (.error _, t) => ⟨.done, t, none⟩
  | _, (.ok none, t) => ⟨.refused job, t, none⟩
  | _, (.ok (some durable), t) => ⟨.prepared durable, t, some (.prepared durable)⟩

/-- The durable deadline, against the clock as it is now. -/
def rebudget (w : RecoveryWorld) (durable : CatalogIndexJob) : Advance :=
  match withDistroKidDeadline D options w.clock durable with
  | .error _ => w.go .done
  | .ok job => if catalogIndexJobSchema D job then w.go (.adding durable job w.clock) else w.go .done

def bindNext (w : RecoveryWorld) (turn : Turn) : List CatalogIndexJob → Advance
  | [] => w.go .done
  | job :: jobs =>
    match turn with
    | .goesOn => ⟨.bound job jobs, w.tables.bind job.binding, none⟩
    | .otherwise => ⟨.sweeping jobs, w.tables.bind job.binding, none⟩
    | .fails => w.go (.sweeping jobs)

/-- With a tombstone a finalizer is enqueued again, or a cancelled session is released. -/
def readTerminal (w : RecoveryWorld) (turn : Turn) (job : CatalogIndexJob) (jobs : List CatalogIndexJob) : Advance :=
  if terminalKey job ∈ w.tables.terminals then
    match turn with
    | .otherwise => w.go (.clearing job jobs)
    | _ => w.go (.sweeping jobs)
  else
    match turn with
    | .fails => w.go (.sweeping jobs)
    | _ => w.go (.unstopped job jobs)

def clearCancelled (w : RecoveryWorld) (turn : Turn) (job : CatalogIndexJob) (jobs : List CatalogIndexJob) : Advance :=
  match turn with
  | .fails => w.go (.sweeping jobs)
  | _ => ⟨.sweeping jobs, (clear w.tables job).2, some (.cleared job (clear w.tables job).1)⟩

/-- `now() >= limit` terminalizes the snapshot. -/
def checkTime (w : RecoveryWorld) (limit : Option String) (next : RecoveryCall) (jobs : List CatalogIndexJob) : Advance :=
  if (limit.bind D.parse).any (w.clock < ·) then w.go next else w.go (.sweeping jobs)

/-- Without an index and a progress row the index job is enqueued; else the planner runs. -/
def resume (w : RecoveryWorld) (turn : Turn) (job : CatalogIndexJob) (readAt : ℤ) (jobs : List CatalogIndexJob) : Advance :=
  match turn with
  | .goesOn => ⟨.sweeping jobs, w.tables, some (.enqueued job readAt)⟩
  | _ => w.go (.sweeping jobs)

/-- The next step of a call, up to its next await. -/
def advance (w : RecoveryWorld) (turn : Turn) : RecoveryCall → Advance
  | .submitted job => budget D options w job
  | .versioned job => validate D w job
  | .validated job => store D w turn job
  -- The second query tells a terminal snapshot from a mismatch; neither is enqueued.
  | .refused _ => w.go .done
  | .prepared durable => rebudget D options w durable
  | .adding _ job readAt => ⟨.done, w.tables, some (.enqueued job readAt)⟩
  | .sweeping jobs => bindNext w turn jobs
  | .bound job jobs => readTerminal w turn job jobs
  | .clearing job jobs => clearCancelled w turn job jobs
  | .unstopped job jobs => checkTime D w job.deadlineAt (.inTime job w.clock jobs) jobs
  | .inTime job readAt jobs => checkTime D w job.sessionExpiresAt (.live job readAt jobs) jobs
  | .live job readAt jobs => resume w turn job readAt jobs
  | .done => w.go .done

/-- The world after a call's step. -/
def RecoveryWorld.after (w : RecoveryWorld) (i : ℕ) (next : Advance) : RecoveryWorld :=
  { w with tables := next.tables, calls := w.calls.set i next.call, log := next.event.toList ++ w.log }

inductive RecoveryMove
  | tick (now : ℤ)
  | start (job : CatalogIndexJob)
  | sweep (limit : Option ℚ)
  | go (i : ℕ) (turn : Turn)
  | crash (i : ℕ)
  | clear (job : CatalogIndexJob)
  | bind (binding : SnapshotCheckpointBinding)
  | claimTerminal (key : String × String × String)

def step (w : RecoveryWorld) : RecoveryMove → Option RecoveryWorld
  | .tick now => if w.clock ≤ now then some { w with clock := now } else none
  | .start job => some { w with calls := w.calls ++ [.submitted job] }
  | .sweep limit =>
    match list D w.tables limit with
    | .error _ => some w
    | .ok jobs =>
      some { w with calls := w.calls ++ [.sweeping jobs], log := .listed (boundedLimit limit) jobs :: w.log }
  | .go i turn =>
    match w.calls[i]? with
    | none => none
    | some call => some (w.after i (advance D options w turn call))
  | .crash i => some { w with calls := w.calls.set i .done }
  | .clear job =>
    some { w with tables := (clear w.tables job).2, log := .cleared job (clear w.tables job).1 :: w.log }
  | .bind binding => some { w with tables := w.tables.bind binding }
  | .claimTerminal key =>
    if key ∈ w.tables.roots.map CheckpointRoot.key then
      some { w with tables := w.tables.claimTerminal key, log := .claimed key :: w.log }
    else none

/-! ### The law -/

def hasPrepared (snapshotId : String) (log : List RecoveryEvent) : Bool :=
  log.any fun
    | .prepared durable => durable.snapshotId = snapshotId
    | _ => false

/-- No envelope was removed since the first successful preparation. -/
def uncleared (snapshotId : String) : List RecoveryEvent → Bool
  | [] => true
  | .cleared job true :: older =>
    uncleared snapshotId older && !(job.snapshotId = snapshotId && hasPrepared snapshotId older)
  | _ :: older => uncleared snapshotId older

/-- What happens agrees with what was prepared. -/
def Agrees (snapshotId : String) (durable : CatalogIndexJob) : RecoveryEvent → Prop
  | .prepared durable' => durable'.snapshotId = snapshotId → durable' = durable
  | .listed limit jobs =>
    (∀ job ∈ jobs, job.snapshotId = snapshotId → job = durable) ∧ (jobs.length < limit → durable ∈ jobs)
  | .enqueued job readAt =>
    job.snapshotId = snapshotId → job = { durable with deadlineAt := job.deadlineAt } ∧
      ∃ deadline stored expiry, job.deadlineAt.bind D.parse = some deadline ∧
        durable.deadlineAt.bind D.parse = some stored ∧ durable.sessionExpiresAt.bind D.parse = some expiry ∧
        readAt < deadline ∧ deadline ≤ stored ∧ deadline ≤ expiry - DISTROKID_SESSION_CLEANUP_GRACE_MS
  | _ => True

def FirstWins (snapshotId : String) : List RecoveryEvent → Prop
  | [] => True
  | event :: older =>
    FirstWins snapshotId older ∧
      (uncleared snapshotId older = true → ∀ durable, .prepared durable ∈ older → durable.snapshotId = snapshotId →
        Agrees D snapshotId durable event)

/-- A tombstone was stored, and a clear has run after it. -/
def sealed (key : String × String × String) : List RecoveryEvent → Bool
  | [] => false
  | .cleared job _ :: older => (terminalKey job = key && decide (.claimed key ∈ older)) || sealed key older
  | _ :: older => sealed key older

structure AuthorityLaw (snapshotId : String) (w : RecoveryWorld) : Prop where
  firstWins : FirstWins D snapshotId w.log
  neverAgain : ∀ key, key.2.2 = snapshotId → sealed key w.log = true →
    ∀ root, w.tables.root? snapshotId = some root → root.recovery = .empty

/-- No clear removes an envelope that can be read before the first successful preparation, unless
the snapshot is terminal. -/
def Careful (snapshotId : String) (w : RecoveryWorld) : RecoveryMove → Prop
  | .clear job =>
    job.snapshotId = snapshotId → hasPrepared snapshotId w.log = false →
      ∀ root, w.tables.root? snapshotId = some root → root.key = terminalKey job → Readable D root →
        root.key ∈ w.tables.terminals
  | _ => True

/-! ### What the tables keep -/

variable {D options}

/-- The job is what the snapshot's row is read as. -/
def Current (D : Dates) (t : RecoveryTables) (job : CatalogIndexJob) : Prop :=
  ∃ root, t.root? job.snapshotId = some root ∧ fromRow D root = .ok job

/-- The snapshot is terminal and has no envelope. -/
def Ended (t : RecoveryTables) (snapshotId : String) : Prop :=
  ∃ root, t.root? snapshotId = some root ∧ root.recovery = .empty ∧ root.key ∈ t.terminals

/-- Tombstones stay, and a terminal snapshot without an envelope stays without one. -/
structure KeepsEnded (t t' : RecoveryTables) : Prop where
  terminals : ∀ key ∈ t.terminals, key ∈ t'.terminals
  roots : ∀ snapshotId root, t.root? snapshotId = some root → root.recovery = .empty → root.key ∈ t.terminals →
    t'.root? snapshotId = some root

def KeepsEnvelopes (snapshotId : String) (t t' : RecoveryTables) : Prop :=
  ∀ root, t.root? snapshotId = some root → root.recovery.steelSessionIdEncrypted.isSome → t'.root? snapshotId = some root

theorem Ended.later {t t' : RecoveryTables} {snapshotId : String} (h : Ended t snapshotId) (hkeeps : KeepsEnded t t') :
    Ended t' snapshotId := by
  obtain ⟨root, hroot, hempty, hterminal⟩ := h
  exact ⟨root, hkeeps.roots snapshotId root hroot hempty hterminal, hempty, hkeeps.terminals _ hterminal⟩

/-- A row that is read has an envelope. -/
theorem envelope_of_read {t : RecoveryTables} {snapshotId : String} {root : CheckpointRoot}
    (hroot : t.root? snapshotId = some root) {job : CatalogIndexJob} (hread : fromRow D root = .ok job) :
    root.recovery.steelSessionIdEncrypted.isSome := by
  obtain ⟨artists, consentId, handle, expiry, deadline, version, hcolumns⟩ :=
    columns_of_read (RecoveryTables.checked_root? hroot) hread
  rw [hcolumns]
  rfl

theorem Current.later {t t' : RecoveryTables} {job : CatalogIndexJob} (h : Current D t job)
    (hkeeps : KeepsEnvelopes job.snapshotId t t') : Current D t' job := by
  obtain ⟨root, hroot, hread⟩ := h
  exact ⟨root, hkeeps root hroot (envelope_of_read hroot hread), hread⟩

theorem Current.eq {t : RecoveryTables} {job job' : CatalogIndexJob} (h : Current D t job) (h' : Current D t job')
    (hid : job.snapshotId = job'.snapshotId) : job = job' := by
  obtain ⟨root, hroot, hread⟩ := h
  obtain ⟨root', hroot', hread'⟩ := h'
  rw [hid, hroot'] at hroot
  cases hroot
  rw [hread] at hread'
  cases hread'
  rfl

theorem Current.not_ended {t : RecoveryTables} {job : CatalogIndexJob} (h : Current D t job) :
    ¬Ended t job.snapshotId := by
  rintro ⟨root, hroot, hempty, -⟩
  obtain ⟨root', hroot', hread⟩ := h
  rw [hroot] at hroot'
  cases hroot'
  have henvelope := envelope_of_read hroot hread
  rw [hempty] at henvelope
  cases henvelope

/-! ### What a statement keeps -/

theorem KeepsEnded.refl (t : RecoveryTables) : KeepsEnded t t := ⟨fun _ h => h, fun _ _ h _ _ => h⟩

theorem keepsEnvelopes_refl (snapshotId : String) (t : RecoveryTables) : KeepsEnvelopes snapshotId t t :=
  fun _ h _ => h

theorem keepsEnded_upsert {t t' : RecoveryTables} {excluded : CheckpointRoot} {row : Option CheckpointRoot}
    (h : upsert t excluded = some (row, t')) : KeepsEnded t t' := by
  obtain ⟨-, hterminals, ⟨hnone, -, hroots⟩ | ⟨other, hother, ⟨-, hmay, -, hroots⟩ | ⟨-, -, rfl⟩⟩⟩ := upsert_cases h
  · refine ⟨fun key hkey => hterminals ▸ hkey, fun snapshotId root hroot _ _ => ?_⟩
    rw [hroots, if_neg, hroot]
    rintro rfl
    rw [hnone] at hroot
    cases hroot
  · refine ⟨fun key hkey => hterminals ▸ hkey, fun snapshotId root hroot hempty hterminal => ?_⟩
    rw [hroots, if_neg, hroot]
    rintro rfl
    rw [hother] at hroot
    cases hroot
    -- The upsert's condition refuses a terminal snapshot without an envelope.
    simp [mayHoldEnvelope, hempty, RecoveryColumns.empty, hterminal] at hmay
  · exact .refl t'

/-- The upsert keeps what is there, and what it returns is what the row is read as. -/
theorem prepareRow_spec (t : RecoveryTables) (job : CatalogIndexJob) :
    KeepsEnded t (prepareRow D t job).2 ∧ (∀ snapshotId, KeepsEnvelopes snapshotId t (prepareRow D t job).2) ∧
      ∀ durable, (prepareRow D t job).1 = .ok (some durable) → Current D (prepareRow D t job).2 durable := by
  unfold prepareRow
  cases hbind : (proposedRoot D job).bind (upsert t) with
  | none => exact ⟨.refl t, fun _ => keepsEnvelopes_refl _ t, nofun⟩
  | some result =>
    obtain ⟨excluded, -, hupsert⟩ := Option.bind_eq_some_iff.1 hbind
    obtain ⟨row, t'⟩ := result
    have hended := keepsEnded_upsert hupsert
    have henvelopes : ∀ snapshotId, KeepsEnvelopes snapshotId t t' := fun snapshotId root hroot henvelope =>
      root?_upsert hupsert hroot henvelope
    cases row with
    | none => exact ⟨hended, henvelopes, nofun⟩
    | some row =>
      dsimp only
      cases hread : fromRow D row with
      | error e => exact ⟨hended, henvelopes, nofun⟩
      | ok durable =>
        dsimp only
        split
        swap
        · exact ⟨hended, henvelopes, nofun⟩
        refine ⟨hended, henvelopes, fun durable' hdurable => ?_⟩
        cases hdurable
        have hrow : t'.root? row.snapshotId = some row := by
          obtain ⟨-, -, ⟨-, hrow, hroots⟩ | ⟨root, hroot, ⟨-, -, hrow, hroots⟩ | ⟨-, hrow, -⟩⟩⟩ := upsert_cases hupsert
          · cases hrow
            rw [hroots, if_pos rfl]
          · cases hrow
            have hid : root.snapshotId = excluded.snapshotId := key_of_get? hroot
            rw [hroots]
            exact if_pos hid
          · cases hrow
        refine ⟨row, ?_, hread⟩
        rw [fromRow_snapshotId (RecoveryTables.checked_root? hrow) hread]
        exact hrow

theorem keepsEnded_bind (t : RecoveryTables) (binding : SnapshotCheckpointBinding) : KeepsEnded t (t.bind binding) := by
  refine ⟨fun key hkey => ?_, fun snapshotId root hroot _ _ => root?_bind hroot⟩
  unfold RecoveryTables.bind
  split <;> exact hkey

theorem mem_terminals_claimTerminal {t : RecoveryTables} {key : String × String × String}
    (h : key ∈ t.roots.map CheckpointRoot.key) : key ∈ (t.claimTerminal key).terminals := by
  rw [RecoveryTables.claimTerminal, dif_pos h]
  exact List.mem_cons_self

theorem root?_claimTerminal (t : RecoveryTables) (key : String × String × String) (snapshotId : String) :
    (t.claimTerminal key).root? snapshotId = t.root? snapshotId := by
  unfold RecoveryTables.claimTerminal
  split <;> rfl

theorem keepsEnded_claimTerminal (t : RecoveryTables) (key : String × String × String) :
    KeepsEnded t (t.claimTerminal key) := by
  refine ⟨fun key' hkey' => ?_, fun snapshotId root hroot _ _ => ?_⟩
  · unfold RecoveryTables.claimTerminal
    split
    · exact List.mem_cons_of_mem _ hkey'
    · exact hkey'
  · rw [root?_claimTerminal]
    exact hroot

/-- A clear that removes something empties the row of the job's key. -/
theorem clear_removed {t : RecoveryTables} {job : CatalogIndexJob} (h : (clear t job).1 = true) :
    ∃ root, t.root? job.snapshotId = some root ∧ root.key = terminalKey job ∧
      root.recovery.steelSessionIdEncrypted.isSome ∧ (clear t job).2.terminals = t.terminals ∧
      ∀ s, (clear t job).2.root? s =
        if s = job.snapshotId then some { root with recovery := .empty } else t.root? s := by
  obtain hkept | ⟨root, hroot, hsome, -, hterminals, hroots⟩ := clear_cases t job
  · rw [hkept] at h
    cases h
  refine ⟨root, hroot, ?_, hsome, hterminals, hroots⟩
  unfold clear at h
  rw [hroot] at h
  dsimp only at h
  split at h
  · rename_i hwhere
    simp only [Bool.and_eq_true, decide_eq_true_eq] at hwhere
    have hid : root.snapshotId = job.snapshotId := key_of_get? hroot
    rw [CheckpointRoot.key, hwhere.1.1, hwhere.1.2, hid, terminalKey]
  · cases h

theorem clear_kept {t : RecoveryTables} {job : CatalogIndexJob} (h : (clear t job).1 = false) : (clear t job).2 = t := by
  obtain hkept | ⟨root, -, -, hremoved, -, -⟩ := clear_cases t job
  · rw [hkept]
  · rw [hremoved] at h
    cases h

theorem keepsEnded_clear (t : RecoveryTables) (job : CatalogIndexJob) : KeepsEnded t (clear t job).2 := by
  cases hremoved : (clear t job).1 with
  | false =>
    rw [clear_kept hremoved]
    exact .refl t
  | true =>
    obtain ⟨cleared, hcleared, -, hsome, hterminals, hroots⟩ := clear_removed hremoved
    refine ⟨fun key hkey => hterminals ▸ hkey, fun snapshotId root hroot hempty _ => ?_⟩
    rw [hroots, if_neg, hroot]
    rintro rfl
    rw [hcleared] at hroot
    cases hroot
    rw [hempty] at hsome
    cases hsome

/-- After a clear of a terminal snapshot there is no envelope. -/
theorem ended_clear {t : RecoveryTables} {job : CatalogIndexJob} (h : terminalKey job ∈ t.terminals) :
    Ended (clear t job).2 job.snapshotId := by
  obtain ⟨root, hmem, hkey⟩ := List.mem_map.1 (t.referenced _ h)
  have hid : root.snapshotId = job.snapshotId := congrArg (fun key => key.2.2) hkey
  have hroot : t.root? job.snapshotId = some root := hid ▸ root?_of_mem hmem
  cases hremoved : (clear t job).1 with
  | true =>
    obtain ⟨cleared, hcleared, hcleared', -, hterminals, hroots⟩ := clear_removed hremoved
    refine ⟨{ cleared with recovery := .empty }, ?_, rfl, ?_⟩
    · rw [hroots, if_pos rfl]
    · rw [hterminals]
      exact hcleared' ▸ h
  | false =>
    refine ⟨root, ?_, ?_, ?_⟩
    · rw [clear_kept hremoved, hroot]
    · obtain hempty | ⟨artists, consentId, handle, expiry, deadline, version, hcolumns⟩ :=
        allowed_cases (RecoveryTables.checked_root? hroot)
      · exact hempty
      -- The statement would have found it.
      · have htenant : root.userId = job.tenantId := congrArg Prod.fst hkey
        have hconnection : root.connectionId = job.connectionId := congrArg (fun key => key.2.1) hkey
        unfold clear at hremoved
        rw [hroot] at hremoved
        dsimp only at hremoved
        rw [if_pos (by simp [htenant, hconnection, hcolumns])] at hremoved
        cases hremoved
    · rw [clear_kept hremoved, hkey]
      exact h

/-! ### The invariant -/

/-- The jobs that a call has been given by the tables. -/
def jobsOf : RecoveryCall → List CatalogIndexJob
  | .prepared durable => [durable]
  | .adding durable _ _ => [durable]
  | .sweeping jobs => jobs
  | .bound job jobs => job :: jobs
  | .clearing job jobs => job :: jobs
  | .unstopped job jobs => job :: jobs
  | .inTime job _ jobs => job :: jobs
  | .live job _ jobs => job :: jobs
  | _ => []

/-- What a call has checked. -/
def Checked (D : Dates) (options : DistroKidProducerOptions) (t : RecoveryTables) : RecoveryCall → Prop
  | .adding durable job readAt => withDistroKidDeadline D options readAt durable = .ok job
  | .inTime job readAt _ => ∃ deadline, job.deadlineAt.bind D.parse = some deadline ∧ readAt < deadline
  | .live job readAt _ => ∃ deadline, job.deadlineAt.bind D.parse = some deadline ∧ readAt < deadline
  | .clearing job _ => terminalKey job ∈ t.terminals
  | _ => True

/-- Until a clear, whatever was prepared is what the row is read as, and a call that holds another
job holds one of a snapshot that has ended. -/
structure Books (D : Dates) (options : DistroKidProducerOptions) (snapshotId : String) (w : RecoveryWorld) : Prop where
  checked : ∀ call ∈ w.calls, Checked D options w.tables call
  held : uncleared snapshotId w.log = true → ∀ call ∈ w.calls, ∀ job ∈ jobsOf call, job.snapshotId = snapshotId →
    Current D w.tables job ∨ Ended w.tables snapshotId
  prepared : uncleared snapshotId w.log = true → ∀ durable, .prepared durable ∈ w.log →
    durable.snapshotId = snapshotId → Current D w.tables durable
  claimed : ∀ key, .claimed key ∈ w.log → key ∈ w.tables.terminals
  ended : ∀ key, sealed key w.log = true → Ended w.tables key.2.2
  firstWins : FirstWins D snapshotId w.log

theorem books_idle (snapshotId : String) (t : RecoveryTables) (now : ℤ) :
    Books D options snapshotId (.idle t now) where
  checked _ hcall := absurd hcall List.not_mem_nil
  held _ _ hcall := absurd hcall List.not_mem_nil
  prepared _ _ hmem := absurd hmem List.not_mem_nil
  claimed _ hmem := absurd hmem List.not_mem_nil
  ended _ hkey := absurd hkey Bool.false_ne_true
  firstWins := trivial

variable {snapshotId : String} {w : RecoveryWorld}

theorem Checked.later {t t' : RecoveryTables} {call : RecoveryCall} (h : Checked D options t call)
    (hkeeps : KeepsEnded t t') : Checked D options t' call := by
  cases call with
  | clearing job jobs => exact hkeeps.terminals _ h
  | _ => exact h

theorem Books.withTables (h : Books D options snapshotId w) {t : RecoveryTables} (hended : KeepsEnded w.tables t)
    (henvelopes : KeepsEnvelopes snapshotId w.tables t) : Books D options snapshotId { w with tables := t } where
  checked call hcall := (h.checked call hcall).later hended
  held huncleared call hcall job hjob hid :=
    (h.held huncleared call hcall job hjob hid).imp (fun hc => hc.later (hid ▸ henvelopes)) fun he => he.later hended
  prepared huncleared durable hmem hid := (h.prepared huncleared durable hmem hid).later (hid ▸ henvelopes)
  claimed key hkey := hended.terminals key (h.claimed key hkey)
  ended key hkey := (h.ended key hkey).later hended
  firstWins := h.firstWins

/-- Calls go on with what they held, or with what is read now. -/
theorem Books.withCalls (h : Books D options snapshotId w) {calls : List RecoveryCall}
    (hcalls : ∀ call ∈ calls, call ∈ w.calls ∨ Checked D options w.tables call ∧
      ∀ job ∈ jobsOf call, Current D w.tables job ∨ ∃ call' ∈ w.calls, job ∈ jobsOf call') :
    Books D options snapshotId { w with calls := calls } where
  checked call hcall := (hcalls call hcall).elim (h.checked call) And.left
  held huncleared call hcall job hjob hid := by
    obtain hold | ⟨-, hjobs⟩ := hcalls call hcall
    · exact h.held huncleared call hold job hjob hid
    · obtain hcurrent | ⟨call', hcall', hheld⟩ := hjobs job hjob
      · exact .inl hcurrent
      · exact h.held huncleared call' hcall' job hheld hid
  prepared := h.prepared
  claimed := h.claimed
  ended := h.ended
  firstWins := h.firstWins

/-- An event that removes nothing. -/
structure Notes (D : Dates) (t : RecoveryTables) (event : RecoveryEvent) : Prop where
  uncleared : ∀ job, event ≠ .cleared job true
  prepared : ∀ durable, event = .prepared durable → Current D t durable
  claimed : ∀ key, event = .claimed key → key ∈ t.terminals
  cleared : ∀ job removed, event = .cleared job removed → terminalKey job ∈ t.terminals → Ended t job.snapshotId

theorem uncleared_cons {event : RecoveryEvent} (h : ∀ job, event ≠ .cleared job true) (older : List RecoveryEvent) :
    uncleared snapshotId (event :: older) = uncleared snapshotId older := by
  cases event with
  | cleared job removed =>
    cases removed with
    | false => rfl
    | true => exact absurd rfl (h job)
  | _ => rfl

theorem sealed_cons {event : RecoveryEvent} {older : List RecoveryEvent} {key : String × String × String}
    (h : sealed key (event :: older) = true) :
    sealed key older = true ∨
      ∃ job removed, event = .cleared job removed ∧ terminalKey job = key ∧ .claimed key ∈ older := by
  cases event with
  | cleared job removed =>
    rw [sealed, Bool.or_eq_true, Bool.and_eq_true, decide_eq_true_eq, decide_eq_true_eq] at h
    obtain ⟨hkey, hmem⟩ | h := h
    · exact .inr ⟨job, removed, rfl, hkey, hmem⟩
    · exact .inl h
  | _ => exact .inl h

theorem notes_prepared {t : RecoveryTables} {durable : CatalogIndexJob} (h : Current D t durable) :
    Notes D t (.prepared durable) where
  uncleared _ heq := by cases heq
  prepared durable' heq := by
    cases heq
    exact h
  claimed _ heq := by cases heq
  cleared _ _ heq := by cases heq

theorem notes_enqueued (t : RecoveryTables) (job : CatalogIndexJob) (readAt : ℤ) : Notes D t (.enqueued job readAt) where
  uncleared _ heq := by cases heq
  prepared _ heq := by cases heq
  claimed _ heq := by cases heq
  cleared _ _ heq := by cases heq

theorem notes_listed (t : RecoveryTables) (limit : ℕ) (jobs : List CatalogIndexJob) : Notes D t (.listed limit jobs) where
  uncleared _ heq := by cases heq
  prepared _ heq := by cases heq
  claimed _ heq := by cases heq
  cleared _ _ heq := by cases heq

theorem notes_claimed {t : RecoveryTables} {key : String × String × String} (h : key ∈ t.terminals) :
    Notes D t (.claimed key) where
  uncleared _ heq := by cases heq
  prepared _ heq := by cases heq
  claimed key' heq := by
    cases heq
    exact h
  cleared _ _ heq := by cases heq

theorem Books.note (h : Books D options snapshotId w) {event : RecoveryEvent} (hnotes : Notes D w.tables event)
    (hagrees : uncleared snapshotId w.log = true → ∀ durable, .prepared durable ∈ w.log →
      durable.snapshotId = snapshotId → Agrees D snapshotId durable event) :
    Books D options snapshotId { w with log := event :: w.log } where
  checked := h.checked
  held huncleared := h.held (uncleared_cons hnotes.uncleared w.log ▸ huncleared)
  prepared huncleared durable hmem hid := by
    obtain heq | hmem := List.mem_cons.1 hmem
    · exact hnotes.prepared durable heq.symm
    · exact h.prepared (uncleared_cons hnotes.uncleared w.log ▸ huncleared) durable hmem hid
  claimed key hkey := by
    obtain heq | hkey := List.mem_cons.1 hkey
    · exact hnotes.claimed key heq.symm
    · exact h.claimed key hkey
  ended key hkey := by
    obtain hold | ⟨job, removed, heq, hjob, hmem⟩ := sealed_cons hkey
    · exact h.ended key hold
    · rw [← hjob]
      exact hnotes.cleared job removed heq (hjob ▸ h.claimed key hmem)
  firstWins := ⟨h.firstWins, hagrees⟩

theorem hasPrepared_of_mem {durable : CatalogIndexJob} {log : List RecoveryEvent} (h : .prepared durable ∈ log)
    (hid : durable.snapshotId = snapshotId) : hasPrepared snapshotId log = true := by
  rw [hasPrepared, List.any_eq_true]
  exact ⟨_, h, decide_eq_true hid⟩

/-- A clear that is careful ends the first authority, or empties a snapshot that is terminal. -/
theorem Books.clear (h : Books D options snapshotId w) {job : CatalogIndexJob}
    (hcareful : job.snapshotId = snapshotId → hasPrepared snapshotId w.log = false →
      ∀ root, w.tables.root? snapshotId = some root → root.key = terminalKey job → Readable D root →
        root.key ∈ w.tables.terminals) :
    Books D options snapshotId
      { w with tables := (Distrokid.clear w.tables job).2
               log := .cleared job (Distrokid.clear w.tables job).1 :: w.log } := by
  have hended := keepsEnded_clear w.tables job
  cases hremoved : (Distrokid.clear w.tables job).1 with
  | false =>
    have hkept := clear_kept hremoved
    have hseal : terminalKey job ∈ w.tables.terminals → Ended w.tables job.snapshotId := fun hkey =>
      hkept ▸ ended_clear hkey
    rw [hkept]
    refine h.note ⟨nofun, nofun, nofun, ?_⟩ fun _ _ _ _ => trivial
    rintro job' removed heq
    cases heq
    exact hseal
  | true =>
    obtain ⟨root, hroot, hkey, hsome, hterminals, hroots⟩ := clear_removed hremoved
    -- Where the first authority goes on, what is held of the snapshot is still current, or it has ended.
    have hheld : uncleared snapshotId (.cleared job true :: w.log) = true →
        uncleared snapshotId w.log = true ∧ ∀ job', job'.snapshotId = snapshotId →
          (Current D w.tables job' → Current D (Distrokid.clear w.tables job).2 job' ∨
            Ended (Distrokid.clear w.tables job).2 snapshotId) ∧
          (.prepared job' ∈ w.log → Current D w.tables job' → Current D (Distrokid.clear w.tables job).2 job') := by
      intro huncleared
      rw [uncleared, Bool.and_eq_true] at huncleared
      refine ⟨huncleared.1, fun job' hid' => ?_⟩
      by_cases hid : job.snapshotId = snapshotId
      · subst hid
        have hnone : hasPrepared job.snapshotId w.log = false := by simpa using huncleared.2
        refine ⟨fun hcurrent => .inr ?_, fun hmem => ?_⟩
        · obtain ⟨root', hroot', hread⟩ := hcurrent
          rw [hid', hroot] at hroot'
          cases hroot'
          exact ended_clear (hkey ▸ hcareful rfl hnone root hroot hkey ⟨job', hread⟩)
        · rw [hasPrepared_of_mem hmem hid'] at hnone
          cases hnone
      · have henvelopes : KeepsEnvelopes job'.snapshotId w.tables (Distrokid.clear w.tables job).2 := by
          intro root' hroot' _
          rw [hroots, if_neg fun heq => hid (heq.symm.trans hid'), hroot']
        exact ⟨fun hcurrent => .inl (hcurrent.later henvelopes), fun _ hcurrent => hcurrent.later henvelopes⟩
    exact {
      checked := fun call hcall => (h.checked call hcall).later hended
      held := fun huncleared call hcall job' hjob' hid' => by
        obtain ⟨hbefore, hafter⟩ := hheld huncleared
        obtain hcurrent | hended' := h.held hbefore call hcall job' hjob' hid'
        · exact (hafter job' hid').1 hcurrent
        · exact .inr (hended'.later hended)
      prepared := fun huncleared durable hmem hid' => by
        obtain ⟨hbefore, hafter⟩ := hheld huncleared
        obtain heq | hmem := List.mem_cons.1 hmem
        · cases heq
        · exact (hafter durable hid').2 hmem (h.prepared hbefore durable hmem hid')
      claimed := fun key hmem => by
        obtain heq | hmem := List.mem_cons.1 hmem
        · cases heq
        · exact hended.terminals key (h.claimed key hmem)
      ended := fun key hsealed => by
        obtain hold | ⟨job', removed, heq, hjob', hmem⟩ := sealed_cons hsealed
        · exact (h.ended key hold).later hended
        · cases heq
          rw [← hjob']
          exact ended_clear (hjob' ▸ h.claimed key hmem)
      firstWins := ⟨h.firstWins, fun _ _ _ _ => trivial⟩ }

/-! ### What is prepared, listed and enqueued -/

/-- The instants of a job that a row is read as. -/
theorem Current.instants {t : RecoveryTables} {job : CatalogIndexJob} (h : Current D t job) :
    ∃ sessionExpiresAt deadlineAt expiry deadline, job.sessionExpiresAt = some sessionExpiresAt ∧
      job.deadlineAt = some deadlineAt ∧ D.parse sessionExpiresAt = some expiry ∧
      D.parse deadlineAt = some deadline ∧ deadline ≤ expiry - DISTROKID_SESSION_CLEANUP_GRACE_MS := by
  obtain ⟨root, hroot, hread⟩ := h
  obtain ⟨artists, consentId, handle, expiry, deadline, version, hcolumns⟩ :=
    columns_of_read (RecoveryTables.checked_root? hroot) hread
  obtain ⟨-, -, -, -, -, hvalid⟩ := (fromRow_ok hcolumns).1 hread
  exact instants_of_valid hvalid

/-- A job that a call holds is the one that was prepared. -/
theorem Books.held_eq (h : Books D options snapshotId w) (huncleared : uncleared snapshotId w.log = true)
    {durable : CatalogIndexJob} (hmem : .prepared durable ∈ w.log) (hid : durable.snapshotId = snapshotId)
    {call : RecoveryCall} (hcall : call ∈ w.calls) {job : CatalogIndexJob} (hjob : job ∈ jobsOf call)
    (hid' : job.snapshotId = snapshotId) : job = durable := by
  have hcurrent := h.prepared huncleared durable hmem hid
  obtain hjob | hended := h.held huncleared call hcall job hjob hid'
  · exact hjob.eq hcurrent (hid'.trans hid.symm)
  · exact absurd (hid ▸ hended) hcurrent.not_ended

/-- A prepared job is enqueued with a deadline no later than its own. -/
theorem Books.agrees_adding (hD : D.Lawful) (hempty : D.parse "" = none) (h : Books D options snapshotId w)
    (huncleared : uncleared snapshotId w.log = true) {durable : CatalogIndexJob} (hmem : .prepared durable ∈ w.log)
    (hid : durable.snapshotId = snapshotId) {held job : CatalogIndexJob} {readAt : ℤ}
    (hcall : .adding held job readAt ∈ w.calls) : Agrees D snapshotId durable (.enqueued job readAt) := by
  intro hid'
  obtain ⟨deadline, deadlineAt, requested, htext, rfl, hlater, hcapped, hrequested⟩ :=
    withDeadline_ok (h.checked _ hcall)
  obtain rfl := h.held_eq huncleared hmem hid hcall List.mem_cons_self hid'
  obtain ⟨sessionExpiresAt, storedAt, expiry, stored, hsession, hstored, hexpiry, hparse, hreserve⟩ :=
    (h.prepared huncleared held hmem hid).instants
  have hgiven : given held.deadlineAt = some storedAt := by
    rw [given, hstored, Option.filter_some, if_pos]
    rw [decide_eq_true_eq]
    rintro rfl
    rw [hempty] at hparse
    cases hparse
  have hle : deadline ≤ stored := by
    have heq := hrequested storedAt hgiven
    rw [hparse] at heq
    cases heq
    exact hcapped ▸ capped_le_requested ..
  refine ⟨rfl, deadline, stored, expiry, ?_, ?_, ?_, hlater, hle, hle.trans hreserve⟩
  · exact hD _ _ htext
  · rw [hstored]
    exact hparse
  · rw [hsession]
    exact hexpiry

/-- A listed job is enqueued as it was stored. -/
theorem Books.agrees_live (h : Books D options snapshotId w) (huncleared : uncleared snapshotId w.log = true)
    {durable : CatalogIndexJob} (hmem : .prepared durable ∈ w.log) (hid : durable.snapshotId = snapshotId)
    {job : CatalogIndexJob} {readAt : ℤ} {jobs : List CatalogIndexJob} (hcall : .live job readAt jobs ∈ w.calls) :
    Agrees D snapshotId durable (.enqueued job readAt) := by
  intro hid'
  obtain ⟨deadline, hdeadline, hlater⟩ := h.checked _ hcall
  obtain rfl := h.held_eq huncleared hmem hid hcall List.mem_cons_self hid'
  obtain ⟨sessionExpiresAt, storedAt, expiry, stored, hsession, hstored, hexpiry, hparse, hreserve⟩ :=
    (h.prepared huncleared job hmem hid).instants
  have hsame : deadline = stored := by
    rw [hstored, Option.bind_some, hparse] at hdeadline
    exact (Option.some.inj hdeadline).symm
  subst hsame
  refine ⟨rfl, deadline, deadline, expiry, hdeadline, hdeadline, ?_, hlater, le_rfl, hreserve⟩
  rw [hsession]
  exact hexpiry

/-- What is listed is current, and within the limit everything current is listed. -/
theorem listed_current {t : RecoveryTables} {limit : Option ℚ} {jobs : List CatalogIndexJob}
    (h : list D t limit = .ok jobs) :
    (∀ job ∈ jobs, Current D t job) ∧
      ∀ durable, Current D t durable → jobs.length < boundedLimit limit → durable ∈ jobs := by
  refine ⟨fun job hjob => fromRow_of_listed h hjob, fun durable hcurrent hlength => ?_⟩
  obtain ⟨root, hroot, hread⟩ := hcurrent
  have hrow : root ∈ recoveryRows t := mem_recoveryRows.2 ⟨mem_of_get? hroot, envelope_of_read hroot hread⟩
  have hlimit : (recoveryRows t).length ≤ boundedLimit limit := by
    have hsame := (mapM_ok.1 h).length_eq
    rw [List.length_take] at hsame
    omega
  obtain ⟨job, hjob, hread'⟩ := listed_of_length_le h hlimit hrow
  rw [hread] at hread'
  cases hread'
  exact hjob

/-! ### Steps and runs -/

theorem Books.setCall (h : Books D options snapshotId w) {i : ℕ} {call next : RecoveryCall}
    (hcall : call ∈ w.calls) (hchecked : Checked D options w.tables next)
    (hjobs : ∀ job ∈ jobsOf next, Current D w.tables job ∨ job ∈ jobsOf call) :
    Books D options snapshotId { w with calls := w.calls.set i next } := by
  apply h.withCalls
  intro call' hcall'
  obtain hold | rfl := List.mem_or_eq_of_mem_set hcall'
  · exact .inl hold
  · exact .inr ⟨hchecked, fun job hjob => (hjobs job hjob).imp_right fun hheld => ⟨call, hcall, hheld⟩⟩

theorem Books.stop (h : Books D options snapshotId w) (i : ℕ) {call : RecoveryCall} (hcall : call ∈ w.calls) :
    Books D options snapshotId (w.after i (w.go .done)) :=
  h.setCall hcall trivial fun _ hjob => absurd hjob List.not_mem_nil

/-- A sweep goes on with the jobs that are left. -/
theorem Books.drop (h : Books D options snapshotId w) (i : ℕ) {call : RecoveryCall} (hcall : call ∈ w.calls)
    {jobs : List CatalogIndexJob} (hjobs : jobs ⊆ jobsOf call) :
    Books D options snapshotId (w.after i (w.go (.sweeping jobs))) :=
  h.setCall hcall trivial fun _ hjob => .inr (hjobs hjob)

/-- The call goes on with the jobs that it holds. -/
theorem Books.keep (h : Books D options snapshotId w) (i : ℕ) {call next : RecoveryCall} (hcall : call ∈ w.calls)
    (hchecked : Checked D options w.tables next) (hjobs : jobsOf next ⊆ jobsOf call) :
    Books D options snapshotId (w.after i (w.go next)) :=
  h.setCall hcall hchecked fun _ hjob => .inr (hjobs hjob)

theorem Books.store (h : Books D options snapshotId w) (i : ℕ) {job : CatalogIndexJob} (turn : Turn)
    (hcall : .validated job ∈ w.calls) : Books D options snapshotId (w.after i (Authority.store D w turn job)) := by
  obtain ⟨hended, henvelopes, hcurrent⟩ := prepareRow_spec (D := D) w.tables job
  have hkept := h.withTables hended (henvelopes snapshotId)
  unfold Authority.store
  split
  · rename_i t hrow
    rw [hrow] at hkept
    exact hkept.stop i hcall
  · rename_i e t _ hrow
    rw [hrow] at hkept
    exact hkept.stop i hcall
  · rename_i t _ hrow
    rw [hrow] at hkept
    exact hkept.setCall hcall trivial fun _ hjob => absurd hjob List.not_mem_nil
  · rename_i durable t _ hrow
    rw [hrow] at hkept hcurrent
    have hstored := hcurrent durable rfl
    have hnoted := hkept.note (notes_prepared hstored) fun huncleared durable' hmem hid' hid =>
      hstored.eq (hkept.prepared huncleared durable' hmem hid') (hid.trans hid'.symm)
    refine hnoted.setCall hcall trivial fun job' hjob' => .inl ?_
    rw [List.mem_singleton.1 hjob']
    exact hstored

theorem Books.enqueue (h : Books D options snapshotId w) (i : ℕ) {call next : RecoveryCall} (hcall : call ∈ w.calls)
    {job : CatalogIndexJob} {readAt : ℤ} (hchecked : Checked D options w.tables next) (hjobs : jobsOf next ⊆ jobsOf call)
    (hagrees : uncleared snapshotId w.log = true → ∀ durable, .prepared durable ∈ w.log →
      durable.snapshotId = snapshotId → Agrees D snapshotId durable (.enqueued job readAt)) :
    Books D options snapshotId (w.after i ⟨next, w.tables, some (.enqueued job readAt)⟩) :=
  (h.note (notes_enqueued w.tables job readAt) hagrees).setCall hcall hchecked fun _ hjob => .inr (hjobs hjob)

/-- One step of a call keeps the books. -/
theorem Books.advance (hD : D.Lawful) (hempty : D.parse "" = none) (h : Books D options snapshotId w) (i : ℕ)
    {call : RecoveryCall} (turn : Turn) (hcall : call ∈ w.calls) :
    Books D options snapshotId (w.after i (Authority.advance D options w turn call)) := by
  have hrest : ∀ (job : CatalogIndexJob) (jobs : List CatalogIndexJob), jobs ⊆ job :: jobs := List.subset_cons_self
  cases call with
  | submitted job =>
    show Books D options snapshotId (w.after i (budget D options w job))
    unfold budget
    split
    · exact h.stop i hcall
    · split
      · exact h.keep i hcall trivial (List.nil_subset _)
      · exact h.stop i hcall
  | versioned job =>
    show Books D options snapshotId (w.after i (validate D w job))
    unfold validate
    split
    · exact h.stop i hcall
    · exact h.keep i hcall trivial (List.nil_subset _)
  | validated job => exact h.store i turn hcall
  | refused job => exact h.stop i hcall
  | prepared durable =>
    show Books D options snapshotId (w.after i (rebudget D options w durable))
    unfold rebudget
    split
    · exact h.stop i hcall
    · rename_i job hdeadline
      split
      · exact h.keep i hcall hdeadline (List.Subset.refl _)
      · exact h.stop i hcall
  | adding durable job readAt =>
    exact h.enqueue i hcall trivial (List.nil_subset _) fun huncleared durable' hmem hid =>
      h.agrees_adding hD hempty huncleared hmem hid hcall
  | sweeping jobs =>
    cases jobs with
    | nil => exact h.stop i hcall
    | cons job jobs =>
      have hbound := h.withTables (keepsEnded_bind w.tables job.binding) fun _ hroot _ => root?_bind hroot
      cases turn with
      | goesOn => exact hbound.setCall hcall trivial fun _ hjob => .inr hjob
      | otherwise => exact hbound.setCall hcall trivial fun _ hjob => .inr (hrest job jobs hjob)
      | fails => exact h.drop i hcall (hrest job jobs)
  | bound job jobs =>
    show Books D options snapshotId (w.after i (readTerminal w turn job jobs))
    unfold readTerminal
    split
    · rename_i hterminal
      split
      · exact h.keep i hcall hterminal (List.Subset.refl _)
      · exact h.drop i hcall (hrest job jobs)
    · split
      · exact h.drop i hcall (hrest job jobs)
      · exact h.keep i hcall trivial (List.Subset.refl _)
  | clearing job jobs =>
    show Books D options snapshotId (w.after i (clearCancelled w turn job jobs))
    unfold clearCancelled
    split
    · exact h.drop i hcall (hrest job jobs)
    -- The sweep has seen the tombstone.
    · have hterminal : terminalKey job ∈ w.tables.terminals := h.checked _ hcall
      have hcareful : ∀ root : CheckpointRoot, root.key = terminalKey job → root.key ∈ w.tables.terminals :=
        fun root hkey => hkey ▸ hterminal
      have hcleared := h.clear fun _ _ root _ hkey _ => hcareful root hkey
      exact hcleared.setCall hcall trivial fun _ hjob => .inr (hrest job jobs hjob)
  | unstopped job jobs =>
    show Books D options snapshotId (w.after i (checkTime D w job.deadlineAt (.inTime job w.clock jobs) jobs))
    unfold checkTime
    split
    · rename_i hlive
      obtain ⟨deadline, hdeadline, hlater⟩ := (Option.any_eq_true _ _).1 hlive
      exact h.keep i hcall ⟨deadline, hdeadline, of_decide_eq_true hlater⟩ (List.Subset.refl _)
    · exact h.drop i hcall (hrest job jobs)
  | inTime job readAt jobs =>
    have hchecked := h.checked _ hcall
    show Books D options snapshotId (w.after i (checkTime D w job.sessionExpiresAt (.live job readAt jobs) jobs))
    unfold checkTime
    split
    · exact h.keep i hcall hchecked (List.Subset.refl _)
    · exact h.drop i hcall (hrest job jobs)
  | live job readAt jobs =>
    show Books D options snapshotId (w.after i (resume w turn job readAt jobs))
    unfold resume
    split
    · exact h.enqueue i hcall trivial (hrest job jobs) fun huncleared durable hmem hid =>
        h.agrees_live huncleared hmem hid hcall
    · exact h.drop i hcall (hrest job jobs)
  | done => exact h.stop i hcall

theorem Books.list (h : Books D options snapshotId w) {limit : Option ℚ} {jobs : List CatalogIndexJob}
    (hlist : Distrokid.list D w.tables limit = .ok jobs) :
    Books D options snapshotId
      { w with calls := w.calls ++ [.sweeping jobs], log := .listed (boundedLimit limit) jobs :: w.log } := by
  obtain ⟨hcurrent, hwhole⟩ := listed_current hlist
  have hnoted := h.note (notes_listed w.tables (boundedLimit limit) jobs) fun huncleared durable hmem hid =>
    ⟨fun job hjob hid' => (hcurrent job hjob).eq (h.prepared huncleared durable hmem hid) (hid'.trans hid.symm),
      hwhole durable (h.prepared huncleared durable hmem hid)⟩
  refine hnoted.withCalls fun call hcall => ?_
  obtain hold | hnew := List.mem_append.1 hcall
  · exact .inl hold
  · rw [List.mem_singleton.1 hnew]
    exact .inr ⟨trivial, fun job hjob => .inl (hcurrent job hjob)⟩

/-- One step of the world keeps the books, if a clear is careful. -/
theorem Books.step (hD : D.Lawful) (hempty : D.parse "" = none) (h : Books D options snapshotId w)
    {move : RecoveryMove} (hcareful : Careful D snapshotId w move) {w' : RecoveryWorld}
    (hstep : Authority.step D options w move = some w') : Books D options snapshotId w' := by
  cases move with
  | tick now =>
    rw [Authority.step] at hstep
    split at hstep
    · cases hstep
      exact ⟨h.checked, h.held, h.prepared, h.claimed, h.ended, h.firstWins⟩
    · cases hstep
  | start job =>
    cases hstep
    refine h.withCalls fun call hcall => ?_
    obtain hold | hnew := List.mem_append.1 hcall
    · exact .inl hold
    · rw [List.mem_singleton.1 hnew]
      exact .inr ⟨trivial, fun _ hjob => absurd hjob List.not_mem_nil⟩
  | sweep limit =>
    rw [Authority.step] at hstep
    split at hstep
    · cases hstep
      exact h
    · rename_i jobs hlist
      cases hstep
      exact h.list hlist
  | go i turn =>
    rw [Authority.step] at hstep
    split at hstep
    · cases hstep
    · rename_i call hcall
      cases hstep
      exact h.advance hD hempty i turn (List.mem_of_getElem? hcall)
  | crash i =>
    cases hstep
    apply h.withCalls
    intro call hcall
    obtain hold | rfl := List.mem_or_eq_of_mem_set hcall
    · exact .inl hold
    · exact .inr ⟨trivial, fun _ hjob => absurd hjob List.not_mem_nil⟩
  | clear job =>
    cases hstep
    exact h.clear hcareful
  | bind binding =>
    cases hstep
    exact h.withTables (keepsEnded_bind w.tables binding) fun _ hroot _ => root?_bind hroot
  | claimTerminal key =>
    rw [Authority.step] at hstep
    split at hstep
    · rename_i hkey
      cases hstep
      have hclaimed := h.withTables (t := w.tables.claimTerminal key) (keepsEnded_claimTerminal w.tables key)
        fun root hroot _ => (root?_claimTerminal w.tables key snapshotId).trans hroot
      exact hclaimed.note (notes_claimed (mem_terminals_claimTerminal hkey)) fun _ _ _ _ => trivial
    · cases hstep

theorem Books.law (h : Books D options snapshotId w) : AuthorityLaw D snapshotId w where
  firstWins := h.firstWins
  neverAgain key hkey hsealed root hroot := by
    obtain ⟨root', hroot', hempty, -⟩ := h.ended key hsealed
    rw [hkey, hroot] at hroot'
    cases hroot'
    exact hempty

variable (options) in
/-- In every run whose clears are careful the first authority wins. -/
theorem first_authority_wins (hD : D.Lawful) (hempty : D.parse "" = none) (t : RecoveryTables) (now : ℤ)
    {moves : List RecoveryMove} (hcareful : Steps.Along (step D options) (Careful D snapshotId) (.idle t now) moves) :
    Steps.Throughout (step D options) (AuthorityLaw D snapshotId) (.idle t now) moves := by
  have hbooks := Steps.throughout_of_along (P := Books D options snapshotId) (books_idle snapshotId t now) hcareful
    fun _ _ _ hbooks hcare hstep => hbooks.step hD hempty hcare hstep
  exact hbooks.mono fun _ => Books.law

/-! ### A replay, and a sweep that is late -/

def morningEpoch (text : String) : Option ℤ :=
  if text = "2026-01-01T10:00:00.000Z" ∨ text = "2026-01-01T10:00:00Z" then some tenOClock
  else if text = "2026-01-01T09:00:00.000Z" then some (tenOClock - 3600000)
  else if text = "2026-01-01T08:00:00.000Z" then some (tenOClock - 7200000)
  else none

/-- Dates of one morning. -/
def morning : Dates where
  parse := morningEpoch
  toISOString n :=
    if n = tenOClock then some "2026-01-01T10:00:00.000Z"
    else if n = tenOClock - 3600000 then some "2026-01-01T09:00:00.000Z"
    else if n = tenOClock - 7200000 then some "2026-01-01T08:00:00.000Z"
    else none
  datetime _ := true
  timestamptz := morningEpoch

theorem morning_lawful : morning.Lawful := by
  intro n text h
  simp only [morning] at h ⊢
  split_ifs at h with hten hnine height
  · cases h
    rw [hten]
    decide
  · cases h
    rw [hnine]
    decide
  · cases h
    rw [height]
    decide

def wholeDay : DistroKidProducerOptions := ⟨true, some 86400000, 60000⟩

def sixOClock : ℤ := tenOClock - 14400000

/-- A submission with a deadline at eight, under a ciphertext of its own. -/
def resubmitted : CatalogIndexJob :=
  { indexJob "ada" "2026-01-01T10:00:00.000Z" with
    steelSessionId := some "v1.resealed"
    deadlineAt := some "2026-01-01T08:00:00.000Z" }

/-- Two calls that start the snapshot; the second one comes between the statements of the first. -/
def replayMoves : List RecoveryMove :=
  [.start (indexJob "ada" "2026-01-01T10:00:00.000Z"), .start resubmitted, .go 0 .goesOn, .go 0 .goesOn, .go 1 .goesOn,
    .go 0 .goesOn, .go 1 .goesOn, .tick (sixOClock + 1), .go 1 .goesOn, .go 1 .goesOn, .go 1 .goesOn, .go 0 .goesOn,
    .go 0 .goesOn]

theorem first_authority_wins_replay :
    (Steps.run (step morning wholeDay) (.idle noTables sixOClock) replayMoves).map (·.log) =
        some [.enqueued (indexJob "ada" "2026-01-01T10:00:00.000Z") (sixOClock + 1),
          .enqueued (indexJob "ada" "2026-01-01T10:00:00.000Z") (sixOClock + 1),
          .prepared (indexJob "ada" "2026-01-01T10:00:00.000Z"), .prepared (indexJob "ada" "2026-01-01T10:00:00.000Z")] ∧
      Steps.Throughout (step morning wholeDay) (AuthorityLaw morning "snapshot") (.idle noTables sixOClock)
        replayMoves := by
  refine ⟨by decide, first_authority_wins wholeDay morning_lawful (by decide) noTables sixOClock ?_⟩
  simp [replayMoves, Steps.Along, Careful]

/-- A first call stores its envelope and is refused for the spelling of its expiry; a sweep reads
the envelope, and then it is cleared. -/
def lateSweep : List RecoveryMove :=
  [.start (indexJob "ada" "2026-01-01T10:00:00Z"), .go 0 .goesOn, .go 0 .goesOn, .go 0 .goesOn, .sweep none,
    .go 1 .goesOn, .go 1 .goesOn, .go 1 .goesOn, .go 1 .goesOn, .clear (indexJob "ada" "2026-01-01T10:00:00Z"),
    .start resubmitted, .go 2 .goesOn, .go 2 .goesOn, .go 2 .goesOn, .go 1 .goesOn]

/-- The sweep enqueues the job it has read, with a deadline later than the one that is stored now. -/
theorem late_sweep_outlives :
    ¬Steps.Throughout (step morning wholeDay) (AuthorityLaw morning "snapshot") (.idle noTables sixOClock) lateSweep := by
  intro h
  have hlog : (Steps.run (step morning wholeDay) (.idle noTables sixOClock) lateSweep).map (·.log) =
      some [.enqueued (indexJob "ada" "2026-01-01T10:00:00.000Z") sixOClock, .prepared resubmitted,
        .cleared (indexJob "ada" "2026-01-01T10:00:00Z") true, .listed 100 [indexJob "ada" "2026-01-01T10:00:00.000Z"]] := by
    decide +kernel
  obtain ⟨w, hrun, hw⟩ := Option.map_eq_some_iff.1 hlog
  have hwins := (h.last hrun).firstWins
  rw [hw] at hwins
  obtain ⟨hsame, -⟩ := hwins.2 (by decide) resubmitted List.mem_cons_self (by decide) (by decide)
  exact absurd hsame (by decide)

end CatalogSentinel.Distrokid.Authority
