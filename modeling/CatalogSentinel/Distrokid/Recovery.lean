import CatalogSentinel.Checkpoint.Sanitize

/-!
The durable recovery envelope of a snapshot: what is left in PostgreSQL of an index job when its
queue entry is lost. The job is flattened into columns of the checkpoint's root row and is built
again from them. The first envelope stays until it is cleared, and a snapshot with a tombstone
gets no envelope any more.
-/

namespace CatalogSentinel.Distrokid

open CatalogSentinel.Data CatalogSentinel.Checkpoint

def DISTROKID_JOB_SCHEMA_VERSION : ℕ := 2

/-- Dates as the language, the job schema and the database read them: `Date.parse`,
`toISOString`, `z.string().datetime({ offset: true })`, and a `timestamptz` column with three
decimals as it is read back. -/
structure Dates where
  parse : String → Option ℤ
  toISOString : ℤ → Option String
  datetime : String → Bool
  timestamptz : String → Option ℤ

/-- A date that is written out is parsed as the same date. -/
def Dates.Lawful (D : Dates) : Prop := ∀ n t, D.toISOString n = some t → D.parse t = some n

variable (D : Dates)

/-! ### Validation -/

inductive RecoveryError
  | schema | wrongDistributor | noConsent | notEncrypted | noExpiry | noReserve | wrongVersion | expired
  | invalidTimestamp | database | alreadyTerminal | principalMismatch
  deriving DecidableEq, Repr

/-- What the package itself says; the schema and the database say why they refuse. -/
def RecoveryError.message : RecoveryError → Option String
  | schema => none
  | wrongDistributor => some "durable DistroKid recovery envelope has the wrong distributor"
  | noConsent => some "durable DistroKid recovery envelope requires a durable consent binding"
  | notEncrypted =>
    some "durable DistroKid recovery requires an application-envelope-encrypted Steel handle"
  | noExpiry => some "durable DistroKid recovery requires the actual session expiry and immutable deadline"
  | noReserve => some "durable DistroKid recovery deadline does not preserve the Steel cleanup reserve"
  | wrongVersion => some "durable DistroKid recovery schema version is unsupported"
  | expired => some "cannot create durable recovery authority for an expired Steel session"
  | invalidTimestamp => some "invalid durable DistroKid recovery timestamp"
  | database => none
  | alreadyTerminal => some "durable DistroKid snapshot is already terminal"
  | principalMismatch =>
    some "durable DistroKid recovery envelope does not match its immutable tenant/principal binding"

/-- `catalogIndexJobSchema` -/
def catalogIndexJobSchema (job : CatalogIndexJob) : Bool :=
  job.tenantId ≠ "" && job.connectionId ≠ "" && job.snapshotId ≠ "" && job.distributor ≠ "" &&
    job.consentId.all (· ≠ "") && job.artistWorkspaceId.all (· ≠ "") && job.steelSessionId.all (· ≠ "") &&
    job.sessionExpiresAt.all D.datetime && job.deadlineAt.all D.datetime && job.schemaVersion.all (0 < ·) &&
    job.artists ≠ [] && job.artists.all (· ≠ "")

/-- `/^v[12]\./.test(handle)` -/
def isEncrypted (handle : String) : Bool :=
  match handle.toList with
  | 'v' :: version :: '.' :: _ => version = '1' || version = '2'
  | _ => false

/-- The deadline leaves the cleanup reserve. -/
def keepsReserve (sessionExpiresAt deadlineAt : String) : Bool :=
  match D.parse sessionExpiresAt, D.parse deadlineAt with
  | some expiry, some deadline => deadline ≤ expiry - DISTROKID_SESSION_CLEANUP_GRACE_MS
  | _, _ => false

def validatedRecoveryJob (raw : CatalogIndexJob) (nowMs : Option ℤ) : Except RecoveryError CatalogIndexJob :=
  if !catalogIndexJobSchema D raw then .error .schema
  else if raw.distributor ≠ "distrokid" then .error .wrongDistributor
  else if raw.consentId = none then .error .noConsent
  else if !raw.steelSessionId.any (fun handle => isEncrypted handle && utf16Length handle ≤ 16384) then
    .error .notEncrypted
  else match raw.sessionExpiresAt, raw.deadlineAt with
    | some sessionExpiresAt, some deadlineAt =>
      if !keepsReserve D sessionExpiresAt deadlineAt then .error .noReserve
      else if raw.schemaVersion.getD 0 ≠ DISTROKID_JOB_SCHEMA_VERSION then .error .wrongVersion
      else if nowMs.any (fun now => (D.parse sessionExpiresAt).any (· ≤ now)) then .error .expired
      else .ok raw
    | _, _ => .error .noExpiry

/-! ### Rows -/

/-- The recovery columns of a checkpoint's root row. -/
structure RecoveryColumns where
  artists : Option (List String)
  consentId : Option String
  steelSessionIdEncrypted : Option String
  sessionExpiresAt : Option ℤ
  deadlineAt : Option ℤ
  schemaVersion : Option ℕ
  deriving DecidableEq, Repr

def RecoveryColumns.empty : RecoveryColumns := ⟨none, none, none, none, none, none⟩

structure CheckpointRoot where
  userId : String
  connectionId : String
  snapshotId : String
  distributor : String
  recovery : RecoveryColumns
  deriving DecidableEq, Repr

def CheckpointRoot.key (root : CheckpointRoot) : String × String × String :=
  (root.userId, root.connectionId, root.snapshotId)

def dateIso (value : Option ℤ) : Except RecoveryError String :=
  match D.toISOString (value.getD 0) with
  | some text => .ok text
  | none => .error .invalidTimestamp

/-- Per-user isolation collapsed the workspace binding into the owning subject. -/
def fromRow (row : CheckpointRoot) : Except RecoveryError CatalogIndexJob := do
  let sessionExpiresAt ← dateIso D row.recovery.sessionExpiresAt
  let deadlineAt ← dateIso D row.recovery.deadlineAt
  match row.recovery.artists, row.recovery.consentId, row.recovery.steelSessionIdEncrypted with
  | some artists, some consentId, some steelSessionId =>
    validatedRecoveryJob D
      { tenantId := row.userId
        connectionId := row.connectionId
        snapshotId := row.snapshotId
        distributor := row.distributor
        artists := artists
        consentId := some consentId
        artistWorkspaceId := some row.userId
        steelSessionId := some steelSessionId
        sessionExpiresAt := some sessionExpiresAt
        deadlineAt := some deadlineAt
        schemaVersion := some (row.recovery.schemaVersion.getD 0) } none
  | _, _, _ => .error .schema

def sameImmutablePrincipal (existing proposed : CatalogIndexJob) : Bool :=
  existing.tenantId = proposed.tenantId && existing.connectionId = proposed.connectionId &&
    existing.snapshotId = proposed.snapshotId && existing.distributor = proposed.distributor &&
    existing.artists = proposed.artists && existing.consentId = proposed.consentId &&
    existing.sessionExpiresAt = proposed.sessionExpiresAt

/-! ### Columns -/

/-- `COALESCE(checkpoint.c, EXCLUDED.c)` of every column -/
def RecoveryColumns.coalesce (checkpoint excluded : RecoveryColumns) : RecoveryColumns where
  artists := checkpoint.artists.or excluded.artists
  consentId := checkpoint.consentId.or excluded.consentId
  steelSessionIdEncrypted := checkpoint.steelSessionIdEncrypted.or excluded.steelSessionIdEncrypted
  sessionExpiresAt := checkpoint.sessionExpiresAt.or excluded.sessionExpiresAt
  deadlineAt := checkpoint.deadlineAt.or excluded.deadlineAt
  schemaVersion := checkpoint.schemaVersion.or excluded.schemaVersion

/-- The constraint `recovery_all_or_none_check`. -/
def RecoveryColumns.allowed : RecoveryColumns → Bool
  | ⟨none, none, none, none, none, none⟩ => true
  | ⟨some artists, some consentId, some handle, some expiry, some deadline, some version⟩ =>
    artists ≠ [] && artists.all (· ≠ "") && consentId ≠ "" && isEncrypted handle && handle.utf8ByteSize ≤ 16384 &&
      deadline ≤ expiry - 60000 && 0 < version
  | _ => false

theorem allowed_empty : RecoveryColumns.empty.allowed = true := rfl

theorem allowed_cases {c : RecoveryColumns} (h : c.allowed = true) :
    c = .empty ∨ ∃ artists consentId handle expiry deadline version,
      c = ⟨some artists, some consentId, some handle, some expiry, some deadline, some version⟩ := by
  unfold RecoveryColumns.allowed at h
  split at h
  · exact .inl rfl
  · exact .inr ⟨_, _, _, _, _, _, rfl⟩
  · cases h

theorem coalesce_empty (c : RecoveryColumns) : RecoveryColumns.empty.coalesce c = c := rfl

theorem coalesce_of_isSome {c : RecoveryColumns} (h : c.allowed = true)
    (hsome : c.steelSessionIdEncrypted.isSome) (other : RecoveryColumns) : c.coalesce other = c := by
  obtain rfl | ⟨artists, consentId, handle, expiry, deadline, version, rfl⟩ := allowed_cases h
  · cases hsome
  · rfl

theorem allowed_coalesce {c c' : RecoveryColumns} (h : c.allowed = true) (h' : c'.allowed = true) :
    (c.coalesce c').allowed = true := by
  obtain rfl | ⟨artists, consentId, handle, expiry, deadline, version, rfl⟩ := allowed_cases h
  · exact h'
  · exact h

/-! ### Tables -/

instance RecoveryTables.lawfulKey : LawfulBEq (String × String × String) := inferInstance

/-- The root rows, one for a snapshot and checked, and the keys of the tombstones, which refer to
root rows. -/
structure RecoveryTables where
  roots : List CheckpointRoot
  terminals : List (String × String × String)
  unique : (roots.map CheckpointRoot.snapshotId).Nodup
  checked : ∀ root ∈ roots, root.recovery.allowed = true
  referenced : ∀ key ∈ terminals, key ∈ roots.map CheckpointRoot.key

namespace RecoveryTables

def root? (t : RecoveryTables) (snapshotId : String) : Option CheckpointRoot :=
  get? CheckpointRoot.snapshotId snapshotId t.roots

theorem checked_root? {t : RecoveryTables} {snapshotId : String} {root : CheckpointRoot}
    (h : t.root? snapshotId = some root) : root.recovery.allowed = true := t.checked root (mem_of_get? h)

def insert (t : RecoveryTables) (root : CheckpointRoot) (hnew : t.root? root.snapshotId = none)
    (hallowed : root.recovery.allowed = true) : RecoveryTables where
  roots := t.roots ++ [root]
  terminals := t.terminals
  unique := by
    rw [List.map_append, List.map_singleton, ← List.concat_eq_append, List.nodup_concat]
    exact ⟨get?_eq_none.1 hnew, t.unique⟩
  checked other h := by
    obtain h | h := List.mem_append.1 h
    · exact t.checked other h
    · rw [List.mem_singleton.1 h]
      exact hallowed
  referenced key h := by
    rw [List.map_append]
    exact List.mem_append_left _ (t.referenced key h)

/-- The row, with other recovery columns. -/
def withRecovery (snapshotId : String) (columns : RecoveryColumns) (root : CheckpointRoot) : CheckpointRoot :=
  if root.snapshotId = snapshotId then { root with recovery := columns } else root

@[simp] theorem snapshotId_withRecovery (snapshotId : String) (columns : RecoveryColumns) (root : CheckpointRoot) :
    (withRecovery snapshotId columns root).snapshotId = root.snapshotId := by
  unfold withRecovery
  split <;> rfl

@[simp] theorem key_withRecovery (snapshotId : String) (columns : RecoveryColumns) (root : CheckpointRoot) :
    (withRecovery snapshotId columns root).key = root.key := by
  unfold withRecovery
  split <;> rfl

def setRecovery (t : RecoveryTables) (snapshotId : String) (columns : RecoveryColumns)
    (hallowed : columns.allowed = true) : RecoveryTables where
  roots := t.roots.map (withRecovery snapshotId columns)
  terminals := t.terminals
  unique := by
    rw [List.map_map]
    simpa only [Function.comp_def, snapshotId_withRecovery] using t.unique
  checked other h := by
    obtain ⟨root, hroot, rfl⟩ := List.mem_map.1 h
    unfold withRecovery
    split
    · exact hallowed
    · exact t.checked root hroot
  referenced key h := by
    rw [List.map_map]
    simpa only [Function.comp_def, key_withRecovery] using t.referenced key h

theorem root?_insert {t : RecoveryTables} {root : CheckpointRoot} {hnew : t.root? root.snapshotId = none}
    {hallowed : root.recovery.allowed = true} (snapshotId : String) :
    (t.insert root hnew hallowed).root? snapshotId =
      if snapshotId = root.snapshotId then some root else t.root? snapshotId := by
  unfold root? insert get?
  rw [List.find?_append, List.find?_singleton]
  by_cases h : root.snapshotId = snapshotId
  · subst h
    rw [show t.roots.find? _ = none from hnew, if_pos (decide_eq_true rfl), if_pos rfl, Option.none_or]
  · rw [if_neg (by simpa using h), if_neg (Ne.symm h), Option.or_none]

theorem root?_setRecovery {t : RecoveryTables} {id : String} {columns : RecoveryColumns}
    {hallowed : columns.allowed = true} (snapshotId : String) :
    (t.setRecovery id columns hallowed).root? snapshotId =
      if snapshotId = id then (t.root? snapshotId).map fun root => { root with recovery := columns }
      else t.root? snapshotId := by
  unfold root? setRecovery
  rw [get?_map (snapshotId_withRecovery id columns)]
  cases hroot : get? CheckpointRoot.snapshotId snapshotId t.roots with
  | none => simp
  | some root =>
    have hid := key_of_get? hroot
    rw [Option.map_some, Option.map_some, withRecovery, hid]
    split <;> rfl

end RecoveryTables

/-! ### Statements -/

/-- A text column takes no NUL. -/
def isText (s : String) : Bool := !s.toList.contains '\x00'

/-- The row that `prepare` proposes, where its values can be cast. -/
def proposedRoot (job : CatalogIndexJob) : Option CheckpointRoot :=
  match job.sessionExpiresAt.bind D.timestamptz, job.deadlineAt.bind D.timestamptz with
  | some expiry, some deadline =>
    if [job.tenantId, job.connectionId, job.snapshotId, job.distributor].all isText && job.artists.all isText &&
        job.consentId.all isText && job.steelSessionId.all isText then
      some
        { userId := job.tenantId
          connectionId := job.connectionId
          snapshotId := job.snapshotId
          distributor := job.distributor
          recovery := ⟨some job.artists, job.consentId, job.steelSessionId, some expiry, some deadline,
            job.schemaVersion⟩ }
    else none
  | _, _ => none

def samePrincipal (root excluded : CheckpointRoot) : Bool :=
  root.userId = excluded.userId && root.connectionId = excluded.connectionId &&
    root.distributor = excluded.distributor

/-- Has the snapshot an envelope, or no tombstone yet? -/
def mayHoldEnvelope (t : RecoveryTables) (root : CheckpointRoot) : Bool :=
  root.recovery.steelSessionIdEncrypted.isSome || !t.terminals.contains root.key

/-- `INSERT … ON CONFLICT ("snapshotId") DO UPDATE … WHERE … RETURNING …`; `none` is a statement
that fails. A row that is merged is checked again, and passes as its two rows do. -/
def upsert (t : RecoveryTables) (excluded : CheckpointRoot) : Option (Option CheckpointRoot × RecoveryTables) :=
  if hallowed : excluded.recovery.allowed = true then
    match hroot : t.root? excluded.snapshotId with
    | none => some (some excluded, t.insert excluded hroot hallowed)
    | some root =>
      if samePrincipal root excluded && mayHoldEnvelope t root then
        some (some { root with recovery := root.recovery.coalesce excluded.recovery },
          t.setRecovery excluded.snapshotId (root.recovery.coalesce excluded.recovery)
            (allowed_coalesce (RecoveryTables.checked_root? hroot) hallowed))
      else some (none, t)
  else none

/-- Why the statement returned no row. -/
def refusal (t : RecoveryTables) (job : CatalogIndexJob) : RecoveryError :=
  match t.root? job.snapshotId with
  | some root =>
    if root.userId = job.tenantId && root.connectionId = job.connectionId && root.distributor = job.distributor &&
        t.terminals.contains root.key then .alreadyTerminal
    else .principalMismatch
  | none => .principalMismatch

def prepare (t : RecoveryTables) (now : ℤ) (input : CatalogIndexJob) :
    Except RecoveryError CatalogIndexJob × RecoveryTables :=
  match validatedRecoveryJob D input (some now) with
  | .error e => (.error e, t)
  | .ok job =>
    match (proposedRoot D job).bind (upsert t) with
    | none => (.error .database, t)
    | some (none, t') => (.error (refusal t' job), t')
    | some (some row, t') =>
      -- The row is written before it is compared.
      match fromRow D row with
      | .error e => (.error e, t')
      | .ok durable =>
        if sameImmutablePrincipal durable job then (.ok durable, t') else (.error .principalMismatch, t')

/-- `none` is a limit that is not finite. -/
def boundedLimit (limit : Option ℚ) : ℕ :=
  match limit with
  | none => 100
  | some limit => (max 1 (min 500 ⌊limit⌋)).toNat

/-- The rows with an envelope, the most urgent first. -/
def recoveryRows (t : RecoveryTables) : List CheckpointRoot :=
  (t.roots.filter fun root => root.recovery.steelSessionIdEncrypted.isSome).mergeSort fun a b =>
    let (a', b') := (a.recovery.deadlineAt.getD 0, b.recovery.deadlineAt.getD 0)
    decide (a' < b' ∨ (a' = b' ∧ a.snapshotId ≤ b.snapshotId))

def list (t : RecoveryTables) (limit : Option ℚ) : Except RecoveryError (List CatalogIndexJob) :=
  ((recoveryRows t).take (boundedLimit limit)).mapM (fromRow D)

def clear (t : RecoveryTables) (job : CatalogIndexJob) : Bool × RecoveryTables :=
  match t.root? job.snapshotId with
  | some root =>
    if root.userId = job.tenantId && root.connectionId = job.connectionId &&
        root.recovery.steelSessionIdEncrypted.isSome then
      (true, t.setRecovery job.snapshotId .empty allowed_empty)
    else (false, t)
  | none => (false, t)

/-! ### What is valid -/

/-- What `validatedRecoveryJob` demands. -/
structure ValidRecoveryJob (job : CatalogIndexJob) : Prop where
  schema : catalogIndexJobSchema D job = true
  distributor : job.distributor = "distrokid"
  consentId : job.consentId ≠ none
  handle : ∃ handle, job.steelSessionId = some handle ∧ isEncrypted handle = true ∧ utf16Length handle ≤ 16384
  reserve : ∃ sessionExpiresAt deadlineAt, job.sessionExpiresAt = some sessionExpiresAt ∧
    job.deadlineAt = some deadlineAt ∧ keepsReserve D sessionExpiresAt deadlineAt = true
  schemaVersion : job.schemaVersion = some DISTROKID_JOB_SCHEMA_VERSION

variable {D}

theorem validated_ok {raw job : CatalogIndexJob} {nowMs : Option ℤ}
    (h : validatedRecoveryJob D raw nowMs = .ok job) : job = raw ∧ ValidRecoveryJob D raw := by
  unfold validatedRecoveryJob at h
  by_cases hschema : catalogIndexJobSchema D raw = true
  swap
  · rw [if_pos (by simpa using hschema)] at h
    cases h
  by_cases hdistributor : raw.distributor = "distrokid"
  swap
  · rw [if_neg (by simpa using hschema), if_pos hdistributor] at h
    cases h
  rw [if_neg (by simpa using hschema), if_neg (not_not.2 hdistributor)] at h
  split at h
  · cases h
  rename_i hconsent
  split at h
  · cases h
  rename_i hhandle
  obtain ⟨handle, hsome, hvalid⟩ := (Option.any_eq_true _ _).1 (by simpa using hhandle)
  rw [Bool.and_eq_true, decide_eq_true_eq] at hvalid
  split at h
  · rename_i sessionExpiresAt deadlineAt hsession hdeadline
    split_ifs at h with hreserve hversion hexpired
    have hversion : raw.schemaVersion = some DISTROKID_JOB_SCHEMA_VERSION := by
      cases hv : raw.schemaVersion with
      | none => exact absurd (by rw [hv]; decide) hversion
      | some v =>
        rw [hv] at hversion
        exact congrArg some (not_not.1 hversion)
    cases h
    exact ⟨rfl, hschema, hdistributor, hconsent, ⟨handle, hsome, hvalid⟩,
      ⟨sessionExpiresAt, deadlineAt, hsession, hdeadline, by simpa using hreserve⟩, hversion⟩
  · cases h

theorem validated_of_valid {job : CatalogIndexJob} (h : ValidRecoveryJob D job) :
    validatedRecoveryJob D job none = .ok job := by
  obtain ⟨handle, hsome, hencrypted, hlength⟩ := h.handle
  obtain ⟨sessionExpiresAt, deadlineAt, hsession, hdeadline, hreserve⟩ := h.reserve
  have hhandle : job.steelSessionId.any (fun handle => isEncrypted handle && utf16Length handle ≤ 16384) = true := by
    rw [hsome, Option.any_some, hencrypted, decide_eq_true hlength]
    rfl
  unfold validatedRecoveryJob
  rw [if_neg (by simp [h.schema]), if_neg (not_not.2 h.distributor), if_neg h.consentId, if_neg (by simp [hhandle]),
    hsession, hdeadline]
  dsimp only
  rw [if_neg (by simp [hreserve]), h.schemaVersion, if_neg (by simp), if_neg (by simp)]

/-! ### What a statement does -/

/-- The row of a snapshot after its columns were merged. -/
def CheckpointRoot.merge (root excluded : CheckpointRoot) : CheckpointRoot :=
  { root with recovery := root.recovery.coalesce excluded.recovery }

/-- An upsert inserts the row, merges it into the row that is there, or is refused by it. -/
theorem upsert_cases {t t' : RecoveryTables} {excluded : CheckpointRoot} {row : Option CheckpointRoot}
    (h : upsert t excluded = some (row, t')) :
    excluded.recovery.allowed = true ∧ t'.terminals = t.terminals ∧
      ((t.root? excluded.snapshotId = none ∧ row = some excluded ∧
          ∀ s, t'.root? s = if s = excluded.snapshotId then some excluded else t.root? s) ∨
        ∃ root, t.root? excluded.snapshotId = some root ∧
          ((samePrincipal root excluded = true ∧ mayHoldEnvelope t root = true ∧ row = some (root.merge excluded) ∧
              ∀ s, t'.root? s = if s = excluded.snapshotId then some (root.merge excluded) else t.root? s) ∨
            ((samePrincipal root excluded && mayHoldEnvelope t root) = false ∧ row = none ∧ t' = t))) := by
  unfold upsert at h
  split at h
  swap
  · cases h
  rename_i hallowed
  refine ⟨hallowed, ?_⟩
  split at h
  · rename_i hroot
    cases h
    exact ⟨rfl, .inl ⟨hroot, rfl, fun s => RecoveryTables.root?_insert s⟩⟩
  · rename_i root hroot
    split at h
    · rename_i hwhere
      rw [Bool.and_eq_true] at hwhere
      cases h
      refine ⟨rfl, .inr ⟨root, hroot, .inl ⟨hwhere.1, hwhere.2, rfl, fun s => ?_⟩⟩⟩
      rw [RecoveryTables.root?_setRecovery]
      split
      · rename_i hs
        rw [hs, hroot]
        rfl
      · rfl
    · rename_i hwhere
      cases h
      exact ⟨rfl, .inr ⟨root, hroot, .inr ⟨by simpa using hwhere, rfl, rfl⟩⟩⟩

/-- A preparation fails and changes nothing, or it has written a row, and then compares it. -/
theorem prepare_cases (t : RecoveryTables) (now : ℤ) (job : CatalogIndexJob) :
    (∃ e, prepare D t now job = (.error e, t)) ∨
      ∃ excluded row t', validatedRecoveryJob D job (some now) = .ok job ∧ proposedRoot D job = some excluded ∧
        upsert t excluded = some (some row, t') ∧
        ((∃ e, prepare D t now job = (.error e, t')) ∨
          ∃ durable, fromRow D row = .ok durable ∧ sameImmutablePrincipal durable job = true ∧
            prepare D t now job = (.ok durable, t')) := by
  unfold prepare
  cases hvalid : validatedRecoveryJob D job (some now) with
  | error e => exact .inl ⟨e, rfl⟩
  | ok valid =>
    obtain ⟨rfl, -⟩ := validated_ok hvalid
    dsimp only
    cases hbind : (proposedRoot D valid).bind (upsert t) with
    | none => exact .inl ⟨.database, rfl⟩
    | some result =>
      obtain ⟨excluded, hexcluded, hupsert⟩ := Option.bind_eq_some_iff.1 hbind
      obtain ⟨row, t'⟩ := result
      cases row with
      | none =>
        obtain ⟨-, -, ⟨-, hrow, -⟩ | ⟨root, -, ⟨-, -, hrow, -⟩ | ⟨-, -, rfl⟩⟩⟩ := upsert_cases hupsert
        · cases hrow
        · cases hrow
        · exact .inl ⟨_, rfl⟩
      | some row =>
        refine .inr ⟨excluded, row, t', rfl, hexcluded, hupsert, ?_⟩
        dsimp only
        cases hrow : fromRow D row with
        | error e => exact .inl ⟨e, rfl⟩
        | ok durable =>
          dsimp only
          cases hsame : sameImmutablePrincipal durable valid with
          | false => exact .inl ⟨.principalMismatch, rfl⟩
          | true => exact .inr ⟨durable, rfl, hsame, rfl⟩

theorem clear_cases (t : RecoveryTables) (job : CatalogIndexJob) :
    clear t job = (false, t) ∨
      ∃ root, t.root? job.snapshotId = some root ∧ root.recovery.steelSessionIdEncrypted.isSome ∧
        (clear t job).1 = true ∧ (clear t job).2.terminals = t.terminals ∧
        ∀ s, (clear t job).2.root? s =
          if s = job.snapshotId then some { root with recovery := .empty } else t.root? s := by
  unfold clear
  cases hroot : t.root? job.snapshotId with
  | none => exact .inl rfl
  | some root =>
    dsimp only
    split
    · rename_i hwhere
      rw [Bool.and_eq_true] at hwhere
      refine .inr ⟨root, rfl, hwhere.2, rfl, rfl, fun s => ?_⟩
      dsimp only
      rw [RecoveryTables.root?_setRecovery]
      split
      · rename_i hs
        rw [hs, hroot]
        rfl
      · rfl
    · exact .inl rfl

/-! ### What a row is read as -/

theorem dateIso_ok {value : Option ℤ} {text : String} :
    dateIso D value = .ok text ↔ D.toISOString (value.getD 0) = some text := by
  unfold dateIso
  cases D.toISOString (value.getD 0) <;> simp

/-- The job that a row with an envelope stands for. -/
def CheckpointRoot.job (row : CheckpointRoot) (artists : List String) (consentId handle : String) (version : ℕ)
    (sessionExpiresAt deadlineAt : String) : CatalogIndexJob :=
  { tenantId := row.userId
    connectionId := row.connectionId
    snapshotId := row.snapshotId
    distributor := row.distributor
    artists := artists
    consentId := some consentId
    artistWorkspaceId := some row.userId
    steelSessionId := some handle
    sessionExpiresAt := some sessionExpiresAt
    deadlineAt := some deadlineAt
    schemaVersion := some version }

theorem fromRow_ok {row : CheckpointRoot} {artists : List String} {consentId handle : String} {expiry deadline : ℤ}
    {version : ℕ} (hcolumns : row.recovery = ⟨some artists, some consentId, some handle, some expiry, some deadline,
      some version⟩) {job : CatalogIndexJob} :
    fromRow D row = .ok job ↔ ∃ sessionExpiresAt deadlineAt, D.toISOString expiry = some sessionExpiresAt ∧
      D.toISOString deadline = some deadlineAt ∧
      job = row.job artists consentId handle version sessionExpiresAt deadlineAt ∧ ValidRecoveryJob D job := by
  constructor
  · intro h
    unfold fromRow at h
    rw [hcolumns] at h
    cases hsession : dateIso D (some expiry) with
    | error e => rw [hsession] at h; cases h
    | ok sessionExpiresAt =>
      cases hdeadline : dateIso D (some deadline) with
      | error e => rw [hsession, hdeadline] at h; cases h
      | ok deadlineAt =>
        rw [hsession, hdeadline] at h
        obtain ⟨rfl, hvalid⟩ := validated_ok h
        exact ⟨sessionExpiresAt, deadlineAt, dateIso_ok.1 hsession, dateIso_ok.1 hdeadline, rfl, hvalid⟩
  · rintro ⟨sessionExpiresAt, deadlineAt, hsession, hdeadline, rfl, hvalid⟩
    have hsession' : dateIso D (some expiry) = .ok sessionExpiresAt := dateIso_ok.2 hsession
    have hdeadline' : dateIso D (some deadline) = .ok deadlineAt := dateIso_ok.2 hdeadline
    unfold fromRow
    rw [hcolumns, hsession', hdeadline']
    exact validated_of_valid hvalid

/-- A row without an envelope is not read. -/
theorem fromRow_empty {row : CheckpointRoot} (h : row.recovery = .empty) : ∃ e, fromRow D row = .error e := by
  unfold fromRow
  rw [h]
  cases hdate : dateIso D RecoveryColumns.empty.sessionExpiresAt with
  | error e => exact ⟨e, rfl⟩
  | ok text =>
    cases hdate' : dateIso D RecoveryColumns.empty.deadlineAt with
    | error e => exact ⟨e, rfl⟩
    | ok text' => exact ⟨.schema, rfl⟩

section Read

variable {row : CheckpointRoot} {job : CatalogIndexJob} (hallowed : row.recovery.allowed = true)
variable (h : fromRow D row = .ok job)
include hallowed h

/-- A row that is read has an envelope. -/
theorem columns_of_read : ∃ artists consentId handle expiry deadline version, row.recovery =
    ⟨some artists, some consentId, some handle, some expiry, some deadline, some version⟩ := by
  obtain hempty | hcolumns := allowed_cases hallowed
  · obtain ⟨e, he⟩ := fromRow_empty (D := D) hempty
    rw [he] at h
    cases h
  · exact hcolumns

theorem fromRow_snapshotId : job.snapshotId = row.snapshotId := by
  obtain ⟨artists, consentId, handle, expiry, deadline, version, hcolumns⟩ := columns_of_read hallowed h
  obtain ⟨sessionExpiresAt, deadlineAt, -, -, rfl, -⟩ := (fromRow_ok hcolumns).1 h
  rfl

end Read

end CatalogSentinel.Distrokid
