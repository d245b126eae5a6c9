import CatalogSentinel.Distrokid.Recovery

/-!
When a recovery envelope comes back as the job that was put into it. The session's expiry is
compared by its text after the row is written, and the workspace is not stored at all, so only a
job that spells the one as the language does, and names its own subject as the other, comes back.
-/

namespace CatalogSentinel.Distrokid

open CatalogSentinel.Data CatalogSentinel.Checkpoint

variable (D : Dates)

/-- The same job, its timestamps as instants. -/
structure SameJob (durable job : CatalogIndexJob) : Prop where
  tenantId : durable.tenantId = job.tenantId
  connectionId : durable.connectionId = job.connectionId
  snapshotId : durable.snapshotId = job.snapshotId
  distributor : durable.distributor = job.distributor
  artists : durable.artists = job.artists
  consentId : durable.consentId = job.consentId
  artistWorkspaceId : durable.artistWorkspaceId = job.artistWorkspaceId
  steelSessionId : durable.steelSessionId = job.steelSessionId
  sessionExpiresAt : durable.sessionExpiresAt.bind D.parse = job.sessionExpiresAt.bind D.parse
  deadlineAt : durable.deadlineAt.bind D.parse = job.deadlineAt.bind D.parse
  schemaVersion : durable.schemaVersion = job.schemaVersion

/-! ### Later -/

namespace RecoveryTables

/-- A checkpoint that is bound without an envelope. -/
def bind (t : RecoveryTables) (binding : SnapshotCheckpointBinding) : RecoveryTables :=
  if h : t.root? binding.snapshotId = none then
    t.insert ⟨binding.tenantId, binding.connectionId, binding.snapshotId, binding.distributor, .empty⟩ h allowed_empty
  else t

/-- A tombstone is stored for a checkpoint. -/
def claimTerminal (t : RecoveryTables) (key : String × String × String) : RecoveryTables :=
  if h : key ∈ t.roots.map CheckpointRoot.key then
    { t with
      terminals := key :: t.terminals
      referenced := fun key' hkey' => by
        obtain rfl | hkey' := List.mem_cons.1 hkey'
        · exact h
        · exact t.referenced key' hkey' }
  else t

end RecoveryTables

/-- What may happen to the tables while the snapshot's envelope is not cleared. -/
inductive KeepsEnvelope (snapshotId : String) : RecoveryTables → RecoveryTables → Prop
  | prepare (t : RecoveryTables) (now : ℤ) (job : CatalogIndexJob) :
    KeepsEnvelope snapshotId t (prepare D t now job).2
  | clear (t : RecoveryTables) (job : CatalogIndexJob) (hother : job.snapshotId ≠ snapshotId) :
    KeepsEnvelope snapshotId t (clear t job).2
  | bind (t : RecoveryTables) (binding : SnapshotCheckpointBinding) : KeepsEnvelope snapshotId t (t.bind binding)
  | claimTerminal (t : RecoveryTables) (key : String × String × String) :
    KeepsEnvelope snapshotId t (t.claimTerminal key)

abbrev Later (snapshotId : String) : RecoveryTables → RecoveryTables → Prop :=
  Relation.ReflTransGen (KeepsEnvelope D snapshotId)

variable {D}

theorem root?_bind {t : RecoveryTables} {binding : SnapshotCheckpointBinding} {snapshotId : String}
    {root : CheckpointRoot} (h : t.root? snapshotId = some root) : (t.bind binding).root? snapshotId = some root := by
  unfold RecoveryTables.bind
  split
  · rename_i hnew
    rw [RecoveryTables.root?_insert, if_neg, h]
    rintro rfl
    rw [hnew] at h
    cases h
  · exact h

/-- An upsert leaves an envelope as it is. -/
theorem root?_upsert {t t' : RecoveryTables} {excluded : CheckpointRoot} {row : Option CheckpointRoot}
    (hupsert : upsert t excluded = some (row, t')) {snapshotId : String} {root : CheckpointRoot}
    (h : t.root? snapshotId = some root) (henvelope : root.recovery.steelSessionIdEncrypted.isSome) :
    t'.root? snapshotId = some root := by
  obtain ⟨-, -, ⟨hnone, -, hroots⟩ | ⟨other, hother, ⟨-, -, -, hroots⟩ | ⟨-, -, rfl⟩⟩⟩ := upsert_cases hupsert
  · rw [hroots, if_neg, h]
    rintro rfl
    rw [hnone] at h
    cases h
  · rw [hroots]
    split
    · rename_i hs
      subst hs
      rw [hother] at h
      cases h
      rw [CheckpointRoot.merge, coalesce_of_isSome (RecoveryTables.checked_root? hother) henvelope]
    · exact h
  · exact h

/-- A preparation leaves an envelope as it is. -/
theorem root?_prepare {t : RecoveryTables} {snapshotId : String} {root : CheckpointRoot}
    (h : t.root? snapshotId = some root) (henvelope : root.recovery.steelSessionIdEncrypted.isSome) (now : ℤ)
    (job : CatalogIndexJob) : (prepare D t now job).2.root? snapshotId = some root := by
  obtain ⟨e, heq⟩ | ⟨excluded, row, t', -, -, hupsert, ⟨e, heq⟩ | ⟨durable, -, -, heq⟩⟩ := prepare_cases (D := D) t now job
  · rw [heq]
    exact h
  · rw [heq]
    exact root?_upsert hupsert h henvelope
  · rw [heq]
    exact root?_upsert hupsert h henvelope

/-- One step keeps the row of an envelope, and so does every run. -/
theorem root?_keepsEnvelope {snapshotId : String} {t t' : RecoveryTables} (hstep : KeepsEnvelope D snapshotId t t')
    {root : CheckpointRoot} (h : t.root? snapshotId = some root)
    (henvelope : root.recovery.steelSessionIdEncrypted.isSome) : t'.root? snapshotId = some root := by
  cases hstep with
  | prepare now job => exact root?_prepare h henvelope now job
  | clear job hother =>
    obtain hsame | ⟨cleared, -, -, -, -, hroots⟩ := clear_cases t job
    · rw [hsame]
      exact h
    · rw [hroots, if_neg (Ne.symm hother)]
      exact h
  | bind binding => exact root?_bind h
  | claimTerminal key =>
    unfold RecoveryTables.claimTerminal
    split <;> exact h

theorem root?_later {snapshotId : String} {t t' : RecoveryTables} (hlater : Later D snapshotId t t')
    {root : CheckpointRoot} (h : t.root? snapshotId = some root)
    (henvelope : root.recovery.steelSessionIdEncrypted.isSome) : t'.root? snapshotId = some root := by
  induction hlater with
  | refl => exact h
  | tail _ hstep ih => exact root?_keepsEnvelope hstep ih henvelope

/-! ### Lists -/

theorem mem_recoveryRows {t : RecoveryTables} {row : CheckpointRoot} :
    row ∈ recoveryRows t ↔ row ∈ t.roots ∧ row.recovery.steelSessionIdEncrypted.isSome := by
  rw [recoveryRows, List.mem_mergeSort, List.mem_filter]

theorem root?_of_mem {t : RecoveryTables} {row : CheckpointRoot} (h : row ∈ t.roots) :
    t.root? row.snapshotId = some row := get?_of_mem t.unique h

theorem exists_of_forall₂ {α β : Type} {R : α → β → Prop} {xs : List α} {ys : List β} (h : List.Forall₂ R xs ys)
    {x : α} (hx : x ∈ xs) : ∃ y ∈ ys, R x y := by
  induction h with
  | nil => cases hx
  | cons hxy _ ih =>
    obtain rfl | hx := List.mem_cons.1 hx
    · exact ⟨_, List.mem_cons_self, hxy⟩
    · obtain ⟨y, hy, hxy⟩ := ih hx
      exact ⟨y, List.mem_cons_of_mem _ hy, hxy⟩

/-- What is listed for a snapshot is read from its row. -/
theorem fromRow_of_listed {t : RecoveryTables} {limit : Option ℚ} {jobs : List CatalogIndexJob}
    (h : list D t limit = .ok jobs) {job : CatalogIndexJob} (hjob : job ∈ jobs) :
    ∃ row, t.root? job.snapshotId = some row ∧ fromRow D row = .ok job := by
  obtain ⟨row, hrow, hread⟩ := exists_of_forall₂ (mapM_ok.1 h).flip hjob
  have hmem := (mem_recoveryRows.1 (List.mem_of_mem_take hrow)).1
  rw [fromRow_snapshotId (t.checked row hmem) hread]
  exact ⟨row, root?_of_mem hmem, hread⟩

/-- An envelope within the limit is listed. -/
theorem listed_of_length_le {t : RecoveryTables} {limit : Option ℚ} {jobs : List CatalogIndexJob}
    (h : list D t limit = .ok jobs) (hlimit : (recoveryRows t).length ≤ boundedLimit limit) {row : CheckpointRoot}
    (hrow : row ∈ recoveryRows t) : ∃ job ∈ jobs, fromRow D row = .ok job := by
  rw [list, List.take_of_length_le hlimit] at h
  exact exists_of_forall₂ (mapM_ok.1 h) hrow

/-! ### The round trip -/

/-- The snapshot has no envelope and no tombstone. -/
def Fresh (t : RecoveryTables) (snapshotId : String) : Prop :=
  ∀ root, t.root? snapshotId = some root → root.recovery = .empty ∧ root.key ∉ t.terminals

variable (D)

/-- The job is prepared, and is what is prepared and what is listed from then on. -/
def RoundTrips (t : RecoveryTables) (now : ℤ) (job : CatalogIndexJob) : Prop :=
  ∃ durable, (prepare D t now job).1 = .ok durable ∧ SameJob D durable job ∧
    ∀ t', Later D job.snapshotId (prepare D t now job).2 t' → ∀ limit jobs, list D t' limit = .ok jobs →
      (∀ listed ∈ jobs, listed.snapshotId = job.snapshotId → SameJob D listed job) ∧
      ((recoveryRows t').length ≤ boundedLimit limit → ∃ listed ∈ jobs, listed.snapshotId = job.snapshotId)

/-- What the columns can hold of the job, and what they are read as again. -/
structure Restorable (t : RecoveryTables) (job : CatalogIndexJob) : Prop where
  workspace : job.artistWorkspaceId = some job.tenantId
  session : ∃ expiry sessionExpiresAt, job.sessionExpiresAt = some sessionExpiresAt ∧
    D.timestamptz sessionExpiresAt = some expiry ∧ D.toISOString expiry = some sessionExpiresAt
  deadline : ∃ deadline deadlineAt written, job.deadlineAt = some deadlineAt ∧
    D.timestamptz deadlineAt = some deadline ∧ D.parse deadlineAt = some deadline ∧
    D.toISOString deadline = some written ∧ D.datetime written = true
  texts : ([job.tenantId, job.connectionId, job.snapshotId, job.distributor].all isText && job.artists.all isText &&
    job.consentId.all isText && job.steelSessionId.all isText) = true
  octets : ∀ handle, job.steelSessionId = some handle → handle.utf8ByteSize ≤ 16384
  owner : ∀ root, t.root? job.snapshotId = some root →
    root.userId = job.tenantId ∧ root.connectionId = job.connectionId ∧ root.distributor = job.distributor

variable {D}

theorem mayHold_of_fresh {t : RecoveryTables} {root : CheckpointRoot} (h : root.key ∉ t.terminals) :
    mayHoldEnvelope t root = true := by
  unfold mayHoldEnvelope
  rw [Bool.or_eq_true]
  exact .inr (by simpa using h)

theorem merge_of_empty {root excluded : CheckpointRoot} (hempty : root.recovery = .empty)
    (hprincipal : samePrincipal root excluded = true) (hid : root.snapshotId = excluded.snapshotId) :
    root.merge excluded = excluded := by
  simp only [samePrincipal, Bool.and_eq_true, decide_eq_true_eq] at hprincipal
  unfold CheckpointRoot.merge
  rw [hempty, coalesce_empty, hprincipal.1.1, hprincipal.1.2, hprincipal.2, hid]

/-- On a fresh snapshot of the same owner an upsert stores the row that it proposes. -/
theorem upsert_fresh {t : RecoveryTables} {excluded : CheckpointRoot} (hfresh : Fresh t excluded.snapshotId)
    (hallowed : excluded.recovery.allowed = true)
    (howner : ∀ root, t.root? excluded.snapshotId = some root → samePrincipal root excluded = true) :
    ∃ t', upsert t excluded = some (some excluded, t') ∧ t'.root? excluded.snapshotId = some excluded := by
  have hresult : ∃ result, upsert t excluded = some result := by
    unfold upsert
    rw [dif_pos hallowed]
    split
    · exact ⟨_, rfl⟩
    · split <;> exact ⟨_, rfl⟩
  obtain ⟨⟨row, t'⟩, hupsert⟩ := hresult
  obtain ⟨-, -, ⟨-, rfl, hroots⟩ | ⟨root, hroot, ⟨-, -, rfl, hroots⟩ | ⟨hwhere, -, -⟩⟩⟩ := upsert_cases hupsert
  · exact ⟨t', hupsert, by rw [hroots, if_pos rfl]⟩
  · have hmerge := merge_of_empty (hfresh root hroot).1 (howner root hroot) (key_of_get? hroot)
    rw [hmerge] at hroots hupsert
    exact ⟨t', hupsert, by rw [hroots, if_pos rfl]⟩
  · rw [howner root hroot, mayHold_of_fresh (hfresh root hroot).2] at hwhere
    cases hwhere

/-- What an upsert on a fresh snapshot returns is the row that it proposed, stored for its owner. -/
theorem row_of_upsert_fresh {t t' : RecoveryTables} {excluded row : CheckpointRoot}
    (hfresh : Fresh t excluded.snapshotId) (h : upsert t excluded = some (some row, t')) :
    row = excluded ∧ excluded.recovery.allowed = true ∧ t'.root? excluded.snapshotId = some excluded ∧
      ∀ root, t.root? excluded.snapshotId = some root → samePrincipal root excluded = true := by
  obtain ⟨hallowed, -, ⟨hnone, hrow, hroots⟩ | ⟨root, hroot, ⟨hprincipal, -, hrow, hroots⟩ | ⟨-, hrow, -⟩⟩⟩ :=
    upsert_cases h
  · cases hrow
    refine ⟨rfl, hallowed, by rw [hroots, if_pos rfl], fun root hroot => ?_⟩
    rw [hnone] at hroot
    cases hroot
  · have hmerge := merge_of_empty (hfresh root hroot).1 hprincipal (key_of_get? hroot)
    rw [hmerge] at hroots hrow
    cases hrow
    refine ⟨rfl, hallowed, by rw [hroots, if_pos rfl], fun other hother => ?_⟩
    rw [hroot] at hother
    cases hother
    exact hprincipal
  · cases hrow

theorem proposedRoot_some {job : CatalogIndexJob} {excluded : CheckpointRoot}
    (h : proposedRoot D job = some excluded) :
    ∃ expiry deadline, job.sessionExpiresAt.bind D.timestamptz = some expiry ∧
      job.deadlineAt.bind D.timestamptz = some deadline ∧
      ([job.tenantId, job.connectionId, job.snapshotId, job.distributor].all isText && job.artists.all isText &&
        job.consentId.all isText && job.steelSessionId.all isText) = true ∧
      excluded = ⟨job.tenantId, job.connectionId, job.snapshotId, job.distributor,
        ⟨some job.artists, job.consentId, job.steelSessionId, some expiry, some deadline, job.schemaVersion⟩⟩ := by
  unfold proposedRoot at h
  split at h
  · rename_i expiry deadline hexpiry hdeadline
    split at h
    · rename_i htexts
      exact ⟨expiry, deadline, hexpiry, hdeadline, htexts, (Option.some.inj h).symm⟩
    · cases h
  · cases h

/-- The instants of a valid job, its deadline before its expiry. -/
theorem instants_of_valid {job : CatalogIndexJob} (h : ValidRecoveryJob D job) :
    ∃ sessionExpiresAt deadlineAt expiry deadline, job.sessionExpiresAt = some sessionExpiresAt ∧
      job.deadlineAt = some deadlineAt ∧ D.parse sessionExpiresAt = some expiry ∧
      D.parse deadlineAt = some deadline ∧ deadline ≤ expiry - DISTROKID_SESSION_CLEANUP_GRACE_MS := by
  obtain ⟨sessionExpiresAt, deadlineAt, hsession, hdeadline, hreserve⟩ := h.reserve
  unfold keepsReserve at hreserve
  split at hreserve
  · rename_i expiry deadline hexpiry hdue
    exact ⟨sessionExpiresAt, deadlineAt, expiry, deadline, hsession, hdeadline, hexpiry, hdue,
      of_decide_eq_true hreserve⟩
  · cases hreserve

/-- A valid job with other workspace and deadline texts is valid, if these are. -/
theorem valid_rewritten {job : CatalogIndexJob} (h : ValidRecoveryJob D job) {deadlineAt written : String} {deadline : ℤ}
    (hdeadline : job.deadlineAt = some deadlineAt) (hparse : D.parse deadlineAt = some deadline)
    (hwritten : D.parse written = some deadline) (hdatetime : D.datetime written = true) :
    ValidRecoveryJob D { job with artistWorkspaceId := some job.tenantId, deadlineAt := some written } where
  schema := by
    have hschema := h.schema
    simp only [catalogIndexJobSchema, Bool.and_eq_true, Option.all_some, decide_eq_true_eq] at hschema ⊢
    obtain ⟨⟨⟨⟨⟨⟨⟨⟨⟨⟨⟨htenant, hconnection⟩, hsnapshot⟩, hdistributor⟩, hconsent⟩, -⟩, hsteel⟩, hsession⟩, -⟩, hversion⟩,
      hartists⟩, hall⟩ := hschema
    exact ⟨⟨⟨⟨⟨⟨⟨⟨⟨⟨⟨htenant, hconnection⟩, hsnapshot⟩, hdistributor⟩, hconsent⟩, htenant⟩, hsteel⟩, hsession⟩, hdatetime⟩,
      hversion⟩, hartists⟩, hall⟩
  distributor := h.distributor
  consentId := h.consentId
  handle := h.handle
  reserve := by
    obtain ⟨sessionExpiresAt, deadlineAt', hsession, hdeadline', hreserve⟩ := h.reserve
    rw [hdeadline] at hdeadline'
    cases hdeadline'
    refine ⟨sessionExpiresAt, written, hsession, rfl, ?_⟩
    unfold keepsReserve at hreserve ⊢
    rw [hparse] at hreserve
    rw [hwritten]
    exact hreserve
  schemaVersion := h.schemaVersion

/-- What comes back of a job that fits the columns. -/
theorem prepare_of_restorable (hD : D.Lawful) {t : RecoveryTables} {now : ℤ} {job : CatalogIndexJob}
    (hjob : validatedRecoveryJob D job (some now) = .ok job) (hfresh : Fresh t job.snapshotId)
    (h : Restorable D t job) :
    ∃ durable t' row, prepare D t now job = (.ok durable, t') ∧ SameJob D durable job ∧
      t'.root? job.snapshotId = some row ∧ row.recovery.steelSessionIdEncrypted.isSome ∧
      fromRow D row = .ok durable := by
  have hvalid := (validated_ok hjob).2
  obtain ⟨handle, hhandle, hencrypted, -⟩ := hvalid.handle
  obtain ⟨consentId, hconsent⟩ := Option.ne_none_iff_exists'.1 hvalid.consentId
  obtain ⟨expiry, sessionExpiresAt, hsession, hexpiry, hcanonical⟩ := h.session
  obtain ⟨deadline, deadlineAt, written, hdeadline, hdue, hparse, hwritten, hdatetime⟩ := h.deadline
  have hreserve : deadline ≤ expiry - 60000 := by
    obtain ⟨s, d, e, m, hs, hd, he, hm, hle⟩ := instants_of_valid hvalid
    rw [hsession] at hs
    rw [hdeadline] at hd
    cases hs
    cases hd
    rw [hD _ _ hcanonical] at he
    rw [hparse] at hm
    cases he
    cases hm
    exact hle
  let row : CheckpointRoot := ⟨job.tenantId, job.connectionId, job.snapshotId, job.distributor,
    ⟨some job.artists, some consentId, some handle, some expiry, some deadline, some DISTROKID_JOB_SCHEMA_VERSION⟩⟩
  have hproposed : proposedRoot D job = some row := by
    unfold proposedRoot
    rw [hsession, hdeadline, Option.bind_some, Option.bind_some, hexpiry, hdue]
    dsimp only
    rw [if_pos h.texts, hconsent, hhandle, hvalid.schemaVersion]
  have hallowed : row.recovery.allowed = true := by
    have hschema := hvalid.schema
    simp only [catalogIndexJobSchema, Bool.and_eq_true, decide_eq_true_eq, hconsent, Option.all_some] at hschema
    simp only [row, RecoveryColumns.allowed, Bool.and_eq_true, decide_eq_true_eq]
    exact ⟨⟨⟨⟨⟨⟨hschema.1.2, hschema.2⟩, hschema.1.1.1.1.1.1.1.2⟩, hencrypted⟩, h.octets handle hhandle⟩, hreserve⟩,
      by decide⟩
  have howner : ∀ root, t.root? job.snapshotId = some root → samePrincipal root row = true := by
    intro root hroot
    obtain ⟨huser, hconnection, hdistributor⟩ := h.owner root hroot
    simp only [samePrincipal, Bool.and_eq_true, decide_eq_true_eq]
    exact ⟨⟨huser, hconnection⟩, hdistributor⟩
  have hfreshRow : Fresh t row.snapshotId := hfresh
  obtain ⟨t', hupsert, hroot⟩ := upsert_fresh hfreshRow hallowed howner
  let durable : CatalogIndexJob := { job with artistWorkspaceId := some job.tenantId, deadlineAt := some written }
  have hread : fromRow D row = .ok durable := by
    refine (fromRow_ok rfl).2 ⟨sessionExpiresAt, written, hcanonical, hwritten, ?_, ?_⟩
    · simp only [durable, row, CheckpointRoot.job, ← hconsent, ← hhandle, ← hsession, ← hvalid.schemaVersion]
    · exact valid_rewritten hvalid hdeadline hparse (hD _ _ hwritten) hdatetime
  have hsame : sameImmutablePrincipal durable job = true := by
    simp [sameImmutablePrincipal, durable]
  refine ⟨durable, t', row, ?_, ?_, hroot, rfl, hread⟩
  · unfold prepare
    rw [hjob]
    dsimp only
    rw [hproposed, Option.bind_some, hupsert]
    dsimp only
    rw [hread]
    dsimp only
    rw [if_pos hsame]
  · refine ⟨rfl, rfl, rfl, rfl, rfl, rfl, h.workspace.symm, rfl, rfl, ?_, rfl⟩
    rw [hdeadline, Option.bind_some, Option.bind_some, hparse, hD _ _ hwritten]

theorem roundTrips_of_restorable (hD : D.Lawful) {t : RecoveryTables} {now : ℤ} {job : CatalogIndexJob}
    (hjob : validatedRecoveryJob D job (some now) = .ok job) (hfresh : Fresh t job.snapshotId)
    (h : Restorable D t job) : RoundTrips D t now job := by
  obtain ⟨durable, t', row, hprepare, hsame, hroot, henvelope, hread⟩ := prepare_of_restorable hD hjob hfresh h
  rw [RoundTrips, hprepare]
  refine ⟨durable, rfl, hsame, fun t'' hlater limit jobs hlist => ?_⟩
  have hroot' := root?_later hlater hroot henvelope
  constructor
  · intro listed hlisted hid
    obtain ⟨row', hrow', hread'⟩ := fromRow_of_listed hlist hlisted
    rw [hid, hroot'] at hrow'
    cases hrow'
    rw [hread] at hread'
    cases hread'
    exact hsame
  · intro hlimit
    have hmem : row ∈ recoveryRows t'' := mem_recoveryRows.2 ⟨mem_of_get? hroot', henvelope⟩
    obtain ⟨listed, hlisted, hread'⟩ := listed_of_length_le hlist hlimit hmem
    rw [hread] at hread'
    cases hread'
    exact ⟨durable, hlisted, hsame.snapshotId⟩

theorem restorable_of_roundTrips (hD : D.Lawful) {t : RecoveryTables} {now : ℤ} {job : CatalogIndexJob}
    (hjob : validatedRecoveryJob D job (some now) = .ok job) (hfresh : Fresh t job.snapshotId)
    (h : RoundTrips D t now job) : Restorable D t job := by
  have hvalid := (validated_ok hjob).2
  obtain ⟨durable, hok, hsame, -⟩ := h
  obtain ⟨e, heq⟩ | ⟨excluded, row, t', -, hproposed, hupsert, ⟨e, heq⟩ | ⟨durable', hread, hprincipal, heq⟩⟩ :=
    prepare_cases (D := D) t now job
  · rw [heq] at hok
    cases hok
  · rw [heq] at hok
    cases hok
  rw [heq] at hok
  cases hok
  obtain ⟨expiry, deadline, hexpiry, hdue, htexts, rfl⟩ := proposedRoot_some hproposed
  obtain ⟨rfl, hallowed, -, howner⟩ := row_of_upsert_fresh hfresh hupsert
  obtain ⟨handle, hhandle, -, -⟩ := hvalid.handle
  obtain ⟨consentId, hconsent⟩ := Option.ne_none_iff_exists'.1 hvalid.consentId
  obtain ⟨sessionExpiresAt, deadlineAt, hsession, hdeadline, -⟩ := hvalid.reserve
  obtain ⟨isoExpiry, isoDeadline, hisoExpiry, hisoDeadline, rfl, hvalid'⟩ :=
    (fromRow_ok (show _ = _ by rw [hconsent, hhandle, hvalid.schemaVersion])).1 hread
  rw [hsession, Option.bind_some] at hexpiry
  rw [hdeadline, Option.bind_some] at hdue
  have hcanonical : isoExpiry = sessionExpiresAt := by
    simp only [sameImmutablePrincipal, Bool.and_eq_true, decide_eq_true_eq, hsession] at hprincipal
    exact Option.some.inj hprincipal.2
  have hparse : D.parse deadlineAt = some deadline := by
    have hinstant := hsame.deadlineAt
    rw [hdeadline] at hinstant
    exact hinstant.symm.trans (hD _ _ hisoDeadline)
  have hdatetime : D.datetime isoDeadline = true := by
    have hschema := hvalid'.schema
    simp only [catalogIndexJobSchema, CheckpointRoot.job, Bool.and_eq_true, Option.all_some] at hschema
    exact hschema.1.1.1.2
  exact {
    workspace := hsame.artistWorkspaceId.symm
    session := ⟨expiry, sessionExpiresAt, hsession, hexpiry, hcanonical ▸ hisoExpiry⟩
    deadline := ⟨deadline, deadlineAt, isoDeadline, hdeadline, hdue, hparse, hisoDeadline, hdatetime⟩
    texts := htexts
    octets := fun other hother => by
      rw [hhandle] at hother
      cases hother
      simp only [RecoveryColumns.allowed, hconsent, hhandle, hvalid.schemaVersion, Bool.and_eq_true,
        decide_eq_true_eq] at hallowed
      exact hallowed.1.1.2
    owner := fun root hroot => by
      have hprincipal := howner root hroot
      simp only [samePrincipal, Bool.and_eq_true, decide_eq_true_eq] at hprincipal
      exact ⟨hprincipal.1.1, hprincipal.1.2, hprincipal.2⟩ }

/-- A job comes back exactly if it names its own subject as workspace, spells its session's expiry
as the language does, and fits the columns. -/
theorem roundTrips_iff (hD : D.Lawful) {t : RecoveryTables} {now : ℤ} {job : CatalogIndexJob}
    (hjob : validatedRecoveryJob D job (some now) = .ok job) (hfresh : Fresh t job.snapshotId) :
    RoundTrips D t now job ↔ Restorable D t job :=
  ⟨restorable_of_roundTrips hD hjob hfresh, roundTrips_of_restorable hD hjob hfresh⟩

/-! ### Two spellings -/

def tenOClock : ℤ := 1767261600000

def sampleEpoch (text : String) : Option ℤ :=
  if text = "2026-01-01T10:00:00.000Z" ∨ text = "2026-01-01T10:00:00Z" ∨ text = "2026-01-01T11:00:00+01:00" then
    some tenOClock
  else if text = "2026-01-01T09:00:00.000Z" then some (tenOClock - 3600000)
  else none

/-- Dates around ten o'clock on the first of January 2026. -/
def sampleDates : Dates where
  parse := sampleEpoch
  toISOString n :=
    if n = tenOClock then some "2026-01-01T10:00:00.000Z"
    else if n = tenOClock - 3600000 then some "2026-01-01T09:00:00.000Z"
    else none
  datetime _ := true
  timestamptz := sampleEpoch

theorem sampleDates_lawful : sampleDates.Lawful := by
  intro n text h
  simp only [sampleDates] at h ⊢
  split_ifs at h with hten hnine
  · cases h
    rw [hten]
    decide
  · cases h
    rw [hnine]
    decide

def indexJob (workspace sessionExpiresAt : String) : CatalogIndexJob where
  tenantId := "ada"
  connectionId := "link"
  snapshotId := "snapshot"
  distributor := "distrokid"
  consentId := some "consent"
  artistWorkspaceId := some workspace
  steelSessionId := some "v1.sealed"
  sessionExpiresAt := some sessionExpiresAt
  deadlineAt := some "2026-01-01T09:00:00.000Z"
  schemaVersion := some 2
  artists := ["Ada"]

def noTables : RecoveryTables := ⟨[], [], List.nodup_nil, nofun, nofun⟩

theorem roundTrips_canonical : RoundTrips sampleDates noTables 0 (indexJob "ada" "2026-01-01T10:00:00.000Z") := by
  refine (roundTrips_iff sampleDates_lawful (by decide) (by intro root hroot; cases hroot)).2 ?_
  exact {
    workspace := rfl
    session := ⟨tenOClock, _, rfl, by decide, by decide⟩
    deadline := ⟨tenOClock - 3600000, _, _, rfl, by decide, by decide, rfl, rfl⟩
    texts := by decide
    octets := by
      intro handle hhandle
      cases hhandle
      decide
    owner := by
      intro root hroot
      cases hroot }

/-- The expiry without milliseconds is stored, and then refused; and a workspace of its own is
not restored. -/
theorem spelling_refused :
    validatedRecoveryJob sampleDates (indexJob "ada" "2026-01-01T10:00:00Z") (some 0) =
        .ok (indexJob "ada" "2026-01-01T10:00:00Z") ∧
      ¬RoundTrips sampleDates noTables 0 (indexJob "ada" "2026-01-01T10:00:00Z") ∧
      ¬RoundTrips sampleDates noTables 0 (indexJob "studio" "2026-01-01T10:00:00.000Z") := by
  refine ⟨by decide, ?_, ?_⟩
  · rintro ⟨durable, hok, -⟩
    have hrefused : (prepare sampleDates noTables 0 (indexJob "ada" "2026-01-01T10:00:00Z")).1 =
        .error .principalMismatch := by decide
    rw [hrefused] at hok
    cases hok
  · rintro ⟨durable, hok, hsame, -⟩
    have hprepared : (prepare sampleDates noTables 0 (indexJob "studio" "2026-01-01T10:00:00.000Z")).1 =
        .ok (indexJob "ada" "2026-01-01T10:00:00.000Z") := by decide
    rw [hprepared] at hok
    cases hok
    exact absurd hsame.artistWorkspaceId (by decide)

end CatalogSentinel.Distrokid
