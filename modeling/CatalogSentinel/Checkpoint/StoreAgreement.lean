import CatalogSentinel.Checkpoint.StoreRows

/-!
Where the two checkpoint stores agree. Each record in memory stands beside the rows of
its scope, and every accepted call keeps them together and is answered alike. The
stores part at a statement that would write a row twice, at an empty plan, and at
numbers and instants that no column takes.
-/

namespace CatalogSentinel.Checkpoint

open CatalogSentinel.Data CatalogSentinel.Distrokid

variable (D : DashboardPlatform)

/-! ### All snapshots -/

section Stores

variable {D} {m m' : InMemorySnapshotStore} {p : PostgresSnapshotCheckpointStore} {s : String}
  {b : SnapshotCheckpointBinding}

variable (D) in
/-- The stores have the same bindings, and each record stands beside its rows. -/
structure Related (m : InMemorySnapshotStore) (p : PostgresSnapshotCheckpointStore) : Prop where
  bindings : p.bindings = m.bindings
  checkpoints : p.tables.checkpoints = m.bindings
  named : ∀ s b, m.bindings s = some b → b.snapshotId = s
  stands : ∀ b, (∀ row ∈ m.bindings b.snapshotId, row = b) →
    Stands D b (m.record b.snapshotId) (p.tables.rows (scope b))

theorem related_empty : Related D .empty .empty where
  bindings := rfl
  checkpoints := rfl
  named _ _ h := by cases h
  stands _ _ :=
    { index := rfl
      releases := fun _ h => absurd h List.not_mem_nil
      outcomes := rfl
      accepted := fun _ h => absurd h List.not_mem_nil
      ids := .nil
      progress := .none
      chunks := rfl
      positions := .nil
      counts := fun _ h => absurd h List.not_mem_nil
      plans := fun _ => rfl
      texts := fun _ _ h => absurd h List.not_mem_nil
      terminal := rfl
      tombstone := fun _ h => by cases h }

theorem Related.bound (h : Related D m p) (hb : m.bindings s = some b) :
    Stands D b (m.record s) (p.tables.rows (scope b)) := by
  have hname := h.named s b hb
  subst hname
  refine h.stands b fun row hrow => ?_
  rw [hb] at hrow
  exact (Option.some.inj hrow).symm

theorem Related.binding (h : Related D m p) (hb : m.bindings s = some b) : p.binding s = .ok b := by
  unfold PostgresSnapshotCheckpointStore.binding
  rw [h.bindings, hb]

theorem Related.lock (h : Related D m p) (hb : m.bindings s = some b) : p.lock b = .ok () := by
  unfold PostgresSnapshotCheckpointStore.lock
  rw [h.checkpoints, h.named s b hb, hb, if_pos]
  simp

/-- A write to one snapshot: the records and the rows of the others stay. -/
theorem Related.write (h : Related D m p) (hb : m.bindings s = some b) {rows : RowSet}
    (hbindings : m'.bindings = m.bindings) (hothers : ∀ s' ≠ s, m'.record s' = m.record s')
    (hstands : Stands D b (m'.record s) rows) :
    Related D m' { p with tables := p.tables.edit (scope b) rows } where
  bindings := h.bindings.trans hbindings.symm
  checkpoints := h.checkpoints.trans hbindings.symm
  named s' b' hb' := h.named s' b' (hbindings ▸ hb')
  stands b' hb' := by
    rw [hbindings] at hb'
    by_cases hs : b'.snapshotId = s
    · have hsame : b = b' := hb' b (by rw [hs]; exact hb)
      subst hsame
      rw [hs]
      exact (rows_edit_self p.tables (scope b) rows).symm ▸ hstands
    · have hscope : scope b' ≠ scope b := by
        intro heq
        have hid : b'.snapshotId = b.snapshotId := congrArg (fun sc : Scope => sc.2.2) heq
        exact hs (hid.trans (h.named s b hb))
      rw [hothers _ hs]
      exact (rows_edit_of_ne p.tables rows hscope).symm ▸ h.stands b' hb'

end Stores

/-! ### Calls -/

/-- The same answer, outcome order aside, or a failure of both. -/
def SameResult : Checked StoreAnswer → Checked StoreAnswer → Prop
  | .ok (.outcomes os), .ok (.outcomes os') => os.Perm os'
  | .ok a, .ok a' => a = a'
  | .error _, .error _ => True
  | _, _ => False

/-- The snapshot is bound, and the values are ones that the sanitizers keep, within their bounds. -/
def Valid (m : InMemorySnapshotStore) : StoreCall → Prop
  | .bindSnapshot _ => True
  | .putIndex s releases => m.bindings s ≠ none ∧ releases.length ≤ MAX_RELEASES ∧
      (releases.map (·.releaseId)).Nodup ∧ ∀ r ∈ releases, sanitizeReleaseRef D r = .ok r
  | .putOutcomes s os => m.bindings s ≠ none ∧ os.length ≤ MAX_RELEASES ∧
      ∀ o ∈ os, sanitizeOutcome D.toPlatform o = .ok o
  | .putProgress progress => ∃ b, m.bindings progress.snapshotId = some b ∧
      sanitizeProgress D.toPlatform progress b = .ok progress
  | .markChunkComplete s pass i => m.bindings s ≠ none ∧ safeCount pass "chunk pass" = .ok pass ∧
      safeCount i "chunk index" = .ok i
  | .completedChunks s pass => m.bindings s ≠ none ∧ safeCount pass "chunk pass" = .ok pass
  | .putPassPlan s pass chunks => m.bindings s ≠ none ∧ safeCount pass "plan pass" = .ok pass ∧
      chunks.length ≤ MAX_RELEASES ∧ (∀ chunk ∈ chunks, chunk.length ≤ 1000) ∧ IsPlanText chunks
  | .getPassPlan s pass => m.bindings s ≠ none ∧ safeCount pass "plan pass" = .ok pass
  | .claimTerminal s t => ∃ b, m.bindings s = some b ∧ sanitizeTombstone D.toPlatform t b = .ok t
  | .getIndex s => m.bindings s ≠ none
  | .getOutcomes s => m.bindings s ≠ none
  | .getProgress s => m.bindings s ≠ none
  | .getTerminal s => m.bindings s ≠ none

/-- An `INTEGER` column takes the count. -/
def IsColumn (n : ℕ) : Prop := n ≤ 2147483647

/-- The number of a pass, as the columns take it. -/
def IsPass (pass : ℕ) : Prop := 1 ≤ pass ∧ IsColumn pass

/-- The columns take the instant. -/
def IsInstant (dep : Deployment) (text : String) : Prop :=
  ∀ epoch, D.dateParse text = some epoch → dep.takesInstant epoch = true

/-- What the tables take of a progress record. -/
def TakesProgress (dep : Deployment) (progress : SnapshotProgress) : Prop :=
  IsColumn progress.expectedReleases ∧ IsColumn progress.completedReleases ∧
    IsColumn progress.failedReleases ∧ IsColumn progress.chunkCount ∧
    (∀ c ∈ progress.completedChunks, IsColumn c) ∧
    IsInstant D dep progress.startedAt ∧ IsInstant D dep progress.updatedAt

/-- What the tables take, and a plan that is not read as absent. -/
def FitsTables (dep : Deployment) (m : InMemorySnapshotStore) : StoreCall → Prop
  | .putIndex _ releases => ∀ r ∈ releases, ∀ n ∈ r.expectedTrackCount, IsColumn n
  | .putOutcomes _ os => DistinctBatches dep.batchSize os
  | .putProgress progress => TakesProgress D dep progress
  | .markChunkComplete _ pass i => IsPass pass ∧ IsColumn i
  | .completedChunks _ pass => IsPass pass
  | .putPassPlan _ pass _ => IsPass pass
  | .getPassPlan s pass => IsPass pass ∧ m.plans (InMemorySnapshotStore.planKey s pass) ≠ some []
  | _ => True

section Checks

theorem pgCount_ok {n n' : ℕ} : pgCount n = .ok n' ↔ n' = n ∧ IsColumn n := by
  unfold pgCount IsColumn
  split
  · rename_i h
    exact ⟨fun hn => ⟨(Except.ok.inj hn).symm, h⟩, fun hn => congrArg Except.ok hn.1.symm⟩
  · rename_i h
    exact ⟨nofun, fun hn => absurd hn.2 h⟩

theorem passes_pgCount {n : ℕ} : Passes (pgCount n) ↔ IsColumn n := by
  constructor
  · rintro ⟨n', h⟩
    exact (pgCount_ok.1 h).2
  · exact fun h => ⟨n, pgCount_ok.2 ⟨rfl, h⟩⟩

theorem mapM_same {α : Type} {f : α → Checked α} {xs : List α} (h : ∀ x ∈ xs, f x = .ok x) :
    xs.mapM f = .ok xs := by
  rw [mapM_ok, List.forall₂_same]
  exact h

theorem mapM_pgCount {ns ns' : List ℕ} :
    ns.mapM pgCount = .ok ns' ↔ ns' = ns ∧ ∀ n ∈ ns, IsColumn n := by
  constructor
  · intro h
    refine ⟨mapM_checked (fun _ _ hn => (pgCount_ok.1 hn).1) h, fun n hn => ?_⟩
    have hpasses : ∀ n ∈ ns, Passes (pgCount n) := mapM_isOk.1 ⟨ns', h⟩
    exact passes_pgCount.1 (hpasses n hn)
  · rintro ⟨rfl, h⟩
    exact mapM_same fun n hn => pgCount_ok.2 ⟨rfl, h n hn⟩

theorem chunkPass_ok {pass pass' : ℕ} (hsafe : safeCount pass "chunk pass" = .ok pass) :
    PostgresSnapshotCheckpointStore.chunkPass pass = .ok pass' ↔ pass' = pass ∧ 1 ≤ pass := by
  have hpass : PostgresSnapshotCheckpointStore.chunkPass pass =
      if pass < 1 then .error (.invalid "checkpoint pass must be positive") else .ok pass := by
    unfold PostgresSnapshotCheckpointStore.chunkPass
    rw [hsafe]
    rfl
  rw [hpass]
  split
  · rename_i h
    exact ⟨nofun, fun hn => by omega⟩
  · rename_i h
    exact ⟨fun hn => ⟨(Except.ok.inj hn).symm, by omega⟩, fun hn => congrArg Except.ok hn.1.symm⟩

variable {D}

theorem pgTimestamp_ok {dep : Deployment} {text : String} {epoch : ℤ} :
    pgTimestamp D.toPlatform dep text = .ok epoch ↔
      D.dateParse text = some epoch ∧ dep.takesInstant epoch = true := by
  unfold pgTimestamp
  cases hparse : D.dateParse text with
  | none => exact ⟨nofun, fun h => nomatch h.1⟩
  | some epoch' =>
    dsimp only
    split
    · rename_i htakes
      constructor
      · intro h
        obtain rfl := Except.ok.inj h
        exact ⟨rfl, htakes⟩
      · rintro ⟨h, -⟩
        exact congrArg Except.ok (Option.some.inj h)
    · rename_i htakes
      refine ⟨nofun, fun h => ?_⟩
      rw [Option.some.inj h.1] at htakes
      exact absurd h.2 htakes

theorem pgTimestamp_checked {dep : Deployment} {text : String} {epoch epoch' : ℤ}
    (h : D.dateParse text = some epoch) :
    pgTimestamp D.toPlatform dep text = .ok epoch' ↔ epoch' = epoch ∧ IsInstant D dep text := by
  rw [pgTimestamp_ok, IsInstant, h, Option.some.injEq, eq_comm]
  refine and_congr_right fun hsame => ?_
  rw [hsame]
  exact ⟨fun htakes epoch'' hepoch => Option.some.inj hepoch ▸ htakes, fun htakes => htakes epoch rfl⟩

end Checks

/-! ### One call -/

section Agreement

variable {D} {dep : Deployment} {m : InMemorySnapshotStore} {p : PostgresSnapshotCheckpointStore}

/-- The stores answer the call alike exactly if it fits the tables, and then they go on together. -/
structure Decided (D : DashboardPlatform) (dep : Deployment) (m : InMemorySnapshotStore)
    (p : PostgresSnapshotCheckpointStore) (call : StoreCall) : Prop where
  same : SameResult (m.call call).1 (p.call D dep call).1 ↔ FitsTables D dep m call
  related : FitsTables D dep m call → Related D (m.call call).2 (p.call D dep call).2

/-- A call that every table takes. -/
theorem decided_of_same {call : StoreCall} (hfits : FitsTables D dep m call)
    (hsame : SameResult (m.call call).1 (p.call D dep call).1)
    (hrelated : Related D (m.call call).2 (p.call D dep call).2) : Decided D dep m p call :=
  ⟨iff_of_true hsame hfits, fun _ => hrelated⟩

theorem related_bindSnapshot (h : Related D m p) (b : SnapshotCheckpointBinding) :
    SameResult (m.call (.bindSnapshot b)).1 (p.call D dep (.bindSnapshot b)).1 ∧
      Related D (m.call (.bindSnapshot b)).2 (p.call D dep (.bindSnapshot b)).2 := by
  dsimp only [InMemorySnapshotStore.call, PostgresSnapshotCheckpointStore.call]
  unfold PostgresSnapshotCheckpointStore.bindSnapshot
  cases hvalid : validateBinding b with
  | error e => exact ⟨trivial, h⟩
  | ok =>
    dsimp only
    rw [h.bindings, h.checkpoints]
    by_cases hother : (m.bindings b.snapshotId).any (· ≠ b) = true
    · rw [if_pos hother, if_pos hother]
      exact ⟨trivial, h⟩
    · have hrow : (m.bindings b.snapshotId).getD b = b := by
        cases hb : m.bindings b.snapshotId with
        | none => rfl
        | some row =>
          rw [hb] at hother
          simpa using hother
      rw [if_neg hother, if_neg hother, hrow, if_neg (not_not.2 rfl)]
      refine ⟨rfl, rfl, rfl, fun s b' hb' => ?_, fun b' hb' => h.stands b' fun row hrow' => ?_⟩
      · dsimp only at hb'
        by_cases hs : s = b.snapshotId
        · rw [hs, Function.update_self] at hb'
          rw [← Option.some.inj hb', hs]
        · rw [Function.update_of_ne hs] at hb'
          exact h.named s b' hb'
      · dsimp only at hb'
        by_cases hs : b'.snapshotId = b.snapshotId
        · rw [hs, Function.update_self] at hb'
          rw [hs] at hrow'
          rw [← hb' b rfl, ← hrow, hrow']
          rfl
        · rw [Function.update_of_ne hs] at hb'
          exact hb' row hrow'

/-! A write takes effect exactly if its condition holds. -/

theorem same_commit {r : Checked CheckpointTables} {C : Prop} {tables : CheckpointTables}
    (hr : ∀ tables', r = .ok tables' ↔ C ∧ tables' = tables) :
    SameResult (.ok .done) (p.commit r).1 ↔ C := by
  unfold PostgresSnapshotCheckpointStore.commit
  cases hr' : r with
  | error e => exact iff_of_false id fun hc => by cases hr'.symm.trans ((hr tables).2 ⟨hc, rfl⟩)
  | ok tables' => exact iff_of_true rfl ((hr tables').1 hr').1

theorem commit_of {r : Checked CheckpointTables} {C : Prop} {tables : CheckpointTables}
    (hr : ∀ tables', r = .ok tables' ↔ C ∧ tables' = tables) (hc : C) :
    (p.commit r).2 = { p with tables } := by
  rw [(hr tables).2 ⟨hc, rfl⟩]
  rfl

variable {s : String} {b : SnapshotCheckpointBinding}

/-- A write to one snapshot, in memory and to its rows. -/
theorem decided_write (h : Related D m p) (hb : m.bindings s = some b) {call : StoreCall}
    {r : Checked CheckpointTables} {rows : RowSet} (hcall : p.call D dep call = p.commit r)
    (hdone : (m.call call).1 = .ok .done) (hbindings : (m.call call).2.bindings = m.bindings)
    (hput : ∀ tables, r = .ok tables ↔ FitsTables D dep m call ∧ tables = p.tables.edit (scope b) rows)
    (hothers : ∀ s' ≠ s, (m.call call).2.record s' = m.record s')
    (hstands : FitsTables D dep m call → Stands D b ((m.call call).2.record s) rows) :
    Decided D dep m p call := by
  refine ⟨?_, fun hfits => ?_⟩
  · rw [hcall, hdone]
    exact same_commit hput
  · rw [hcall, commit_of hput hfits]
    exact h.write hb hbindings hothers (hstands hfits)

variable (dep) in
theorem putIndex_ok (h : Related D m p) (hb : m.bindings s = some b)
    {releases : List ReleaseRefRecord} (hlength : releases.length ≤ MAX_RELEASES)
    (hnodup : (releases.map (·.releaseId)).Nodup) (hrefs : ∀ r ∈ releases, sanitizeReleaseRef D r = .ok r)
    (tables : CheckpointTables) : p.putIndex D dep s releases = .ok tables ↔
      (∀ r ∈ releases, ∀ n ∈ r.expectedTrackCount, IsColumn n) ∧
        tables = p.tables.edit (scope b) { p.tables.rows (scope b) with index := releases.zipIdx } := by
  have hcounts : Passes (releases.mapM fun r => r.expectedTrackCount.mapM pgCount) ↔
      ∀ r ∈ releases, ∀ n ∈ r.expectedTrackCount, IsColumn n := by
    have hall : Passes (releases.mapM fun r => r.expectedTrackCount.mapM pgCount) ↔
        ∀ r ∈ releases, Passes (r.expectedTrackCount.mapM pgCount) := mapM_isOk
    rw [hall]
    refine forall₂_congr fun r _ => ?_
    rw [passes_option]
    exact forall₂_congr fun n _ => passes_pgCount
  have hrows := numberBatches_eq dep.sized.1 (le_refl releases.length) 0
  rw [← hcounts]
  unfold PostgresSnapshotCheckpointStore.putIndex
  rw [bind_known (h.binding hb), if_neg (not_lt.2 hlength), bind_known (mapM_same hrefs),
    if_neg (not_not.2 hnodup), bind_known (h.lock hb), bind_ok, hrows, edit_index]
  constructor
  · rintro ⟨counts, hpasses, hput⟩
    exact ⟨⟨counts, hpasses⟩, (Except.ok.inj hput).symm⟩
  · rintro ⟨⟨counts, hpasses⟩, rfl⟩
    exact ⟨counts, hpasses, rfl⟩

variable (dep) in
theorem putOutcomes_ok (h : Related D m p) (hb : m.bindings s = some b)
    {os : List ReleaseExtractionOutcome} (hlength : os.length ≤ MAX_RELEASES)
    (hos : ∀ o ∈ os, sanitizeOutcome D.toPlatform o = .ok o) (tables : CheckpointTables) :
    p.putOutcomes D dep s os = .ok tables ↔ DistinctBatches dep.batchSize os ∧
      tables = p.tables.edit (scope b) { p.tables.rows (scope b) with
        outcomes := Distrokid.putOutcomes (p.tables.outcomes (scope b)) os } := by
  unfold PostgresSnapshotCheckpointStore.putOutcomes
  rw [bind_known (h.binding hb), if_neg (not_lt.2 hlength), bind_known (mapM_same hos), bind_known (h.lock hb),
    bind_ok, edit_outcomes]
  constructor
  · rintro ⟨rows, hrows, hput⟩
    refine ⟨(passes_insertBatches dep.sized.1 le_rfl).1 ⟨rows, hrows⟩, ?_⟩
    rw [← Except.ok.inj hput, insertBatches_eq dep.sized.1 le_rfl hrows]
  · rintro ⟨hdistinct, rfl⟩
    exact ⟨_, insertBatches_of_distinct dep.sized.1 hdistinct _, rfl⟩

theorem markChunkComplete_ok (h : Related D m p) (hb : m.bindings s = some b) {pass i : ℕ}
    (hpass : safeCount pass "chunk pass" = .ok pass) (hi : safeCount i "chunk index" = .ok i)
    (tables : CheckpointTables) : p.markChunkComplete s pass i = .ok tables ↔
      (IsPass pass ∧ IsColumn i) ∧
        tables = p.tables.edit (scope b) { p.tables.rows (scope b) with
          chunks := addOnce (pass, i) (p.tables.chunks (scope b)) } := by
  unfold PostgresSnapshotCheckpointStore.markChunkComplete
  rw [bind_known (h.binding hb), bind_checked fun _ => chunkPass_ok hpass, bind_known hi, bind_known (h.lock hb),
    bind_checked fun _ => pgCount_ok, bind_checked fun _ => pgCount_ok, edit_chunks]
  constructor
  · rintro ⟨hpos, hpassColumn, hiColumn, hput⟩
    exact ⟨⟨⟨hpos, hpassColumn⟩, hiColumn⟩, (Except.ok.inj hput).symm⟩
  · rintro ⟨⟨⟨hpos, hpassColumn⟩, hiColumn⟩, rfl⟩
    exact ⟨hpos, hpassColumn, hiColumn, rfl⟩

theorem sanitizeChunks_same {chunks : List (List String)} (hsizes : ∀ chunk ∈ chunks, chunk.length ≤ 1000)
    (htexts : IsPlanText chunks) : chunks.zipIdx.mapM (fun x => sanitizeChunk x.1 x.2) = .ok chunks := by
  rw [mapM_ok, List.forall₂_iff_get]
  refine ⟨List.length_zipIdx, fun i hi hi' => ?_⟩
  simp only [List.get_eq_getElem, List.getElem_zipIdx]
  have hmem : chunks[i] ∈ chunks := List.getElem_mem hi'
  unfold sanitizeChunk
  rw [if_neg (not_lt.2 (hsizes _ hmem))]
  refine mapM_same fun id hid => ?_
  obtain ⟨v, hv⟩ := passes_textValue.2 (htexts _ hmem id hid)
  rwa [textValue_ok hv] at hv

variable (dep) in
theorem putPassPlan_ok (h : Related D m p) (hb : m.bindings s = some b)
    {pass : ℕ} {chunks : List (List String)} (hpass : safeCount pass "plan pass" = .ok pass)
    (hlength : chunks.length ≤ MAX_RELEASES) (hsizes : ∀ chunk ∈ chunks, chunk.length ≤ 1000)
    (htexts : IsPlanText chunks) (tables : CheckpointTables) :
    p.putPassPlan dep s pass chunks = .ok tables ↔ IsPass pass ∧
      tables = p.tables.edit (scope b) { p.tables.rows (scope b) with
        plans := Function.update (p.tables.plans (scope b)) pass chunks.zipIdx } := by
  have hrows := numberBatches_eq dep.sized.1 (le_refl chunks.length) 0
  unfold PostgresSnapshotCheckpointStore.putPassPlan
  rw [bind_known (h.binding hb), bind_known hpass]
  by_cases hpos : 1 ≤ pass
  · rw [if_neg (by simp only [Bool.or_eq_true, decide_eq_true_eq, not_or, not_lt]; exact ⟨hpos, hlength⟩),
      bind_known (sanitizeChunks_same hsizes htexts), bind_known (h.lock hb), bind_checked fun _ => pgCount_ok,
      hrows, edit_plans]
    constructor
    · rintro ⟨hpassColumn, hput⟩
      exact ⟨⟨hpos, hpassColumn⟩, (Except.ok.inj hput).symm⟩
    · rintro ⟨⟨-, hpassColumn⟩, rfl⟩
      exact ⟨hpassColumn, rfl⟩
  · rw [if_pos (by simp only [Bool.or_eq_true, decide_eq_true_eq]; exact .inl (not_le.1 hpos))]
    exact ⟨nofun, fun hput => absurd hput.1.1 hpos⟩

/-- A progress record that is kept as it is, and its instants. -/
theorem kept_progress {progress : SnapshotProgress}
    (h : sanitizeProgress D.toPlatform progress b = .ok progress) :
    progressBinding progress = b ∧
      (∃ epoch, D.dateParse progress.startedAt = some epoch ∧ D.toISOString epoch = progress.startedAt) ∧
      ∃ epoch, D.dateParse progress.updatedAt = some epoch ∧ D.toISOString epoch = progress.updatedAt := by
  unfold sanitizeProgress at h
  split at h
  · cases h
  · rename_i hbinding
    obtain ⟨chunks, -, h⟩ := bind_ok.1 h
    obtain ⟨expected, -, h⟩ := bind_ok.1 h
    obtain ⟨completed, -, h⟩ := bind_ok.1 h
    obtain ⟨failed, -, h⟩ := bind_ok.1 h
    obtain ⟨count, -, h⟩ := bind_ok.1 h
    obtain ⟨startedAt, hstartedAt, h⟩ := bind_ok.1 h
    obtain ⟨updatedAt, hupdatedAt, h⟩ := bind_ok.1 h
    obtain ⟨started, hstarted, rfl⟩ := isoTimestamp_ok hstartedAt
    obtain ⟨updated, hupdated, rfl⟩ := isoTimestamp_ok hupdatedAt
    have hsame := Except.ok.inj h
    exact ⟨not_not.1 hbinding, ⟨started, hstarted, congrArg SnapshotProgress.startedAt hsame⟩,
      updated, hupdated, congrArg SnapshotProgress.updatedAt hsame⟩

/-- A record whose times are read is written if its counts and times fit their columns. -/
theorem progressRow_ok {progress : SnapshotProgress} {started updated : ℤ}
    (hstarted : D.dateParse progress.startedAt = some started)
    (hupdated : D.dateParse progress.updatedAt = some updated) {row : ProgressRow} :
    progressRow D dep progress = .ok row ↔ TakesProgress D dep progress ∧
      row = ⟨progress.distributor, progress.status, progress.expectedReleases, progress.completedReleases,
        progress.failedReleases, progress.chunkCount, progress.completedChunks, started, updated⟩ := by
  unfold progressRow TakesProgress
  rw [bind_checked fun _ => pgCount_ok, bind_checked fun _ => pgCount_ok, bind_checked fun _ => pgCount_ok,
    bind_checked fun _ => pgCount_ok, bind_checked fun _ => mapM_pgCount,
    bind_checked fun _ => pgTimestamp_checked hstarted, bind_checked fun _ => pgTimestamp_checked hupdated]
  constructor
  · rintro ⟨hexpected, hcompleted, hfailed, hcount, hchunks, hstart, hupdate, hrow⟩
    exact ⟨⟨hexpected, hcompleted, hfailed, hcount, hchunks, hstart, hupdate⟩, (Except.ok.inj hrow).symm⟩
  · rintro ⟨⟨hexpected, hcompleted, hfailed, hcount, hchunks, hstart, hupdate⟩, rfl⟩
    exact ⟨hexpected, hcompleted, hfailed, hcount, hchunks, hstart, hupdate, rfl⟩

variable (dep) in
theorem putProgress_ok (h : Related D m p) {progress : SnapshotProgress}
    (hb : m.bindings progress.snapshotId = some b)
    (hkept : sanitizeProgress D.toPlatform progress b = .ok progress) :
    ∃ row, RowFor D b row progress ∧ ∀ tables, p.putProgress D dep progress = .ok tables ↔
      TakesProgress D dep progress ∧
        tables = p.tables.edit (scope b) { p.tables.rows (scope b) with progress := some row } := by
  obtain ⟨-, ⟨started, hstarted, hstartedText⟩, updated, hupdated, hupdatedText⟩ := kept_progress hkept
  refine ⟨⟨progress.distributor, progress.status, progress.expectedReleases, progress.completedReleases,
    progress.failedReleases, progress.chunkCount, progress.completedChunks, started, updated⟩,
    ⟨hkept, rfl, hstartedText, hupdatedText⟩, fun tables => ?_⟩
  unfold PostgresSnapshotCheckpointStore.putProgress
  rw [bind_known (h.binding hb), bind_known hkept, bind_known (h.lock hb),
    bind_checked fun _ => (progressRow_ok hstarted hupdated).trans and_comm, edit_progress]
  exact and_congr_right fun _ => ⟨fun hput => (Except.ok.inj hput).symm, fun hput => congrArg Except.ok hput.symm⟩

theorem decided_putIndex (h : Related D m p) {releases : List ReleaseRefRecord}
    (hv : Valid D m (.putIndex s releases)) : Decided D dep m p (.putIndex s releases) := by
  obtain ⟨hbound, hlength, hnodup, hrefs⟩ := hv
  obtain ⟨b, hb⟩ := Option.ne_none_iff_exists'.1 hbound
  refine decided_write h hb rfl rfl rfl (putIndex_ok dep h hb hlength hnodup hrefs) (fun s' hs => ?_) fun _ => ?_
  · show InMemorySnapshotStore.record { m with index := Function.update m.index s releases } s' = _
    simp [InMemorySnapshotStore.record, Function.update_of_ne hs]
  · have hrecord : (m.call (.putIndex s releases)).2.record s = { m.record s with index := releases } := by
      show InMemorySnapshotStore.record { m with index := Function.update m.index s releases } _ = _
      simp [InMemorySnapshotStore.record]
    rw [hrecord]
    exact { h.bound hb with index := rfl, releases := hrefs }

theorem decided_putOutcomes (h : Related D m p)
    {os : List ReleaseExtractionOutcome} (hv : Valid D m (.putOutcomes s os)) :
    Decided D dep m p (.putOutcomes s os) := by
  obtain ⟨hbound, hlength, hos⟩ := hv
  obtain ⟨b, hb⟩ := Option.ne_none_iff_exists'.1 hbound
  have hstands := h.bound hb
  refine decided_write h hb rfl rfl rfl (putOutcomes_ok dep h hb hlength hos) (fun s' hs => ?_) fun _ => ?_
  · show InMemorySnapshotStore.record
        { m with outcomes := Function.update m.outcomes s (Distrokid.putOutcomes (m.outcomes s) os) } s' = _
    simp [InMemorySnapshotStore.record, Function.update_of_ne hs]
  · have hrecord : (m.call (.putOutcomes s os)).2.record s =
        { m.record s with outcomes := Distrokid.putOutcomes (m.record s).outcomes os } := by
      show InMemorySnapshotStore.record
        { m with outcomes := Function.update m.outcomes s (Distrokid.putOutcomes (m.outcomes s) os) } _ = _
      simp [InMemorySnapshotStore.record]
    have hsame : p.tables.outcomes (scope b) = (m.record s).outcomes := hstands.outcomes
    rw [hrecord, hsame]
    have haccepted : ∀ o ∈ Distrokid.putOutcomes (m.record s).outcomes os,
        sanitizeOutcome D.toPlatform o = .ok o := by
      intro o ho
      obtain ho | ho := mem_putAll ho
      · exact hstands.accepted o ho
      · exact hos o ho
    exact { hstands with outcomes := rfl, accepted := haccepted, ids := nodup_putAll hstands.ids }

theorem decided_putProgress (h : Related D m p) {progress : SnapshotProgress}
    (hv : Valid D m (.putProgress progress)) : Decided D dep m p (.putProgress progress) := by
  obtain ⟨b, hb, hkept⟩ := hv
  obtain ⟨row, hrow, hput⟩ := putProgress_ok dep h hb hkept
  refine decided_write h hb rfl rfl rfl hput (fun s' hs => ?_) fun _ => ?_
  · show InMemorySnapshotStore.record
        { m with progress := Function.update m.progress progress.snapshotId (some progress) } s' = _
    simp [InMemorySnapshotStore.record, Function.update_of_ne hs]
  · have hrecord : (m.call (.putProgress progress)).2.record progress.snapshotId =
        { m.record progress.snapshotId with progress := some progress } := by
      show InMemorySnapshotStore.record
        { m with progress := Function.update m.progress progress.snapshotId (some progress) } _ = _
      simp [InMemorySnapshotStore.record]
    rw [hrecord]
    exact { h.bound hb with progress := .some hrow }

theorem decided_markChunkComplete (h : Related D m p) {pass i : ℕ}
    (hv : Valid D m (.markChunkComplete s pass i)) : Decided D dep m p (.markChunkComplete s pass i) := by
  obtain ⟨hbound, hpass, hi⟩ := hv
  obtain ⟨b, hb⟩ := Option.ne_none_iff_exists'.1 hbound
  have hstands := h.bound hb
  refine decided_write h hb rfl rfl rfl (markChunkComplete_ok h hb hpass hi) (fun s' hs => ?_) fun hfits => ?_
  · show InMemorySnapshotStore.record
        { m with chunks := Function.update m.chunks s (addOnce (InMemorySnapshotStore.chunkKey pass i) (m.chunks s)) } s' = _
    simp [InMemorySnapshotStore.record, Function.update_of_ne hs]
  · have hrecord : (m.call (.markChunkComplete s pass i)).2.record s =
        { m.record s with chunks := addOnce (InMemorySnapshotStore.chunkKey pass i) (m.record s).chunks } := by
      show InMemorySnapshotStore.record
        { m with chunks := Function.update m.chunks s (addOnce (InMemorySnapshotStore.chunkKey pass i) (m.chunks s)) } _ = _
      simp [InMemorySnapshotStore.record]
    have hkeys : addOnce (InMemorySnapshotStore.chunkKey pass i) (m.record s).chunks =
        (addOnce (pass, i) (p.tables.chunks (scope b))).map fun c =>
          InMemorySnapshotStore.chunkKey c.1 c.2 := by
      have hmap := addOnce_map (fun c : ℕ × ℕ => InMemorySnapshotStore.chunkKey c.1 c.2)
        chunkKey_inj (pass, i) (p.tables.chunks (scope b))
      rw [← hmap]
      exact congrArg _ hstands.chunks
    rw [hrecord]
    refine { hstands with
      chunks := hkeys
      positions := nodup_addOnce hstands.positions
      counts := fun c hc => ?_ }
    obtain hc | rfl := mem_addOnce.1 hc
    · exact hstands.counts c hc
    · exact hfits.2

theorem decided_putPassPlan (h : Related D m p) {pass : ℕ}
    {chunks : List (List String)} (hv : Valid D m (.putPassPlan s pass chunks)) :
    Decided D dep m p (.putPassPlan s pass chunks) := by
  obtain ⟨hbound, hpass, hlength, hsizes, htexts⟩ := hv
  obtain ⟨b, hb⟩ := Option.ne_none_iff_exists'.1 hbound
  have hstands := h.bound hb
  refine decided_write h hb rfl rfl rfl (putPassPlan_ok dep h hb hpass hlength hsizes htexts) (fun s' hs => ?_) fun _ => ?_
  · have hplans : ∀ pass', InMemorySnapshotStore.planKey s' pass' ≠ InMemorySnapshotStore.planKey s pass :=
      fun pass' heq => hs (planKey_inj heq).1
    show InMemorySnapshotStore.record
      { m with plans := Function.update m.plans (InMemorySnapshotStore.planKey s pass) (some chunks) } s' = _
    simp [InMemorySnapshotStore.record, Function.update_of_ne (hplans _)]
  · have hrecord : (m.call (.putPassPlan s pass chunks)).2.record s =
        { m.record s with plans := Function.update (m.record s).plans pass (some chunks) } := by
      show InMemorySnapshotStore.record
        { m with plans := Function.update m.plans (InMemorySnapshotStore.planKey s pass) (some chunks) } s = _
      simp only [InMemorySnapshotStore.record]
      congr 1
      funext pass'
      by_cases hsame : pass' = pass
      · rw [hsame, Function.update_self, Function.update_self]
      · have hkey : InMemorySnapshotStore.planKey s pass' ≠ InMemorySnapshotStore.planKey s pass :=
          fun heq => hsame (planKey_inj heq).2
        rw [Function.update_of_ne hkey, Function.update_of_ne hsame]
    rw [hrecord]
    refine { hstands with plans := fun pass' => ?_, texts := fun pass' => ?_ }
    · dsimp only
      by_cases hsame : pass' = pass
      · rw [hsame, Function.update_self, Function.update_self, Option.getD_some]
      · rw [Function.update_of_ne hsame, Function.update_of_ne hsame]
        exact hstands.plans pass'
    · dsimp only
      by_cases hsame : pass' = pass
      · rw [hsame, Function.update_self, Option.getD_some]
        exact htexts
      · rw [Function.update_of_ne hsame]
        exact hstands.texts pass'

theorem decided_getIndex (h : Related D m p) (hv : Valid D m (.getIndex s)) :
    Decided D dep m p (.getIndex s) := by
  obtain ⟨b, hb⟩ := Option.ne_none_iff_exists'.1 hv
  have hread : p.getIndex D s = .ok (m.index s) :=
    bind_ok.2 ⟨b, h.binding hb, (h.bound hb).readIndex⟩
  refine decided_of_same trivial ?_ h
  show SameResult _ ((p.getIndex D s).map .index)
  rw [hread]
  rfl

theorem decided_getOutcomes (h : Related D m p) (hv : Valid D m (.getOutcomes s)) :
    Decided D dep m p (.getOutcomes s) := by
  obtain ⟨b, hb⟩ := Option.ne_none_iff_exists'.1 hv
  obtain ⟨os, hperm, hos⟩ := (h.bound hb).readOutcomes
  have hread : p.getOutcomes D s = .ok os := bind_ok.2 ⟨b, h.binding hb, hos⟩
  refine decided_of_same trivial ?_ h
  show SameResult _ ((p.getOutcomes D s).map .outcomes)
  rw [hread]
  exact hperm.symm

/-- The record that a row is read as. -/
theorem RowFor.read {row : ProgressRow} {progress : SnapshotProgress} (h : RowFor D b row progress) :
    sanitizeProgress D.toPlatform (row.progress D b) b = .ok progress := by
  obtain ⟨hbinding, -⟩ := kept_progress h.accepted
  have hsame : row.progress D b = progress := by
    rw [ProgressRow.progress, h.startedAt, h.updatedAt, h.counts, ← hbinding]
    rfl
  rw [hsame]
  exact h.accepted

theorem decided_getProgress (h : Related D m p) (hv : Valid D m (.getProgress s)) :
    Decided D dep m p (.getProgress s) := by
  obtain ⟨b, hb⟩ := Option.ne_none_iff_exists'.1 hv
  have hrows : Option.Rel (RowFor D b) (p.tables.progress (scope b)) (m.progress s) := (h.bound hb).progress
  have hread : p.getProgress D s = .ok (m.progress s) := by
    refine bind_ok.2 ⟨b, h.binding hb, ?_⟩
    generalize p.tables.progress (scope b) = row at hrows
    generalize m.progress s = progress at hrows
    cases hrows with
    | none => rfl
    | some hrow => exact bind_ok.2 ⟨_, hrow.read, rfl⟩
  refine decided_of_same trivial ?_ h
  show SameResult _ ((p.getProgress D s).map .progress)
  rw [hread]
  rfl

theorem decided_completedChunks (h : Related D m p) {pass : ℕ} (hv : Valid D m (.completedChunks s pass)) :
    Decided D dep m p (.completedChunks s pass) := by
  obtain ⟨hbound, hpass⟩ := hv
  obtain ⟨b, hb⟩ := Option.ne_none_iff_exists'.1 hbound
  have hread : ∀ chunks, p.completedChunks s pass = .ok chunks ↔
      IsPass pass ∧ chunks = m.completedChunks s pass := by
    intro chunks
    have hchunks := (h.bound hb).readChunks pass
    unfold PostgresSnapshotCheckpointStore.completedChunks
    rw [bind_known (h.binding hb), bind_checked fun _ => chunkPass_ok hpass, bind_checked fun _ => pgCount_ok]
    constructor
    · rintro ⟨hpos, hfits, hcall⟩
      exact ⟨⟨hpos, hfits⟩, Except.ok.inj (hcall.symm.trans hchunks)⟩
    · rintro ⟨⟨hpos, hfits⟩, rfl⟩
      exact ⟨hpos, hfits, hchunks⟩
  refine ⟨?_, fun _ => h⟩
  show SameResult _ ((p.completedChunks s pass).map .chunks) ↔ _
  cases hanswer : p.completedChunks s pass with
  | error e =>
    refine iff_of_false id fun hfits => ?_
    cases hanswer.symm.trans ((hread _).2 ⟨hfits, rfl⟩)
  | ok chunks =>
    obtain ⟨hfits, rfl⟩ := (hread chunks).1 hanswer
    exact iff_of_true rfl hfits

/-- An empty plan is answered as no plan. -/
theorem plan_answered (plan : Option (List (List String))) :
    plan = (if (plan.getD []).length > 0 then some (plan.getD []) else none) ↔ plan ≠ some [] := by
  cases plan with
  | none => simp
  | some chunks =>
    cases chunks with
    | nil => simp
    | cons chunk chunks => simp

theorem decided_getPassPlan (h : Related D m p) {pass : ℕ} (hv : Valid D m (.getPassPlan s pass)) :
    Decided D dep m p (.getPassPlan s pass) := by
  obtain ⟨hbound, hpass⟩ := hv
  obtain ⟨b, hb⟩ := Option.ne_none_iff_exists'.1 hbound
  let stored := (m.plans (InMemorySnapshotStore.planKey s pass)).getD []
  have hread : ∀ plan, p.getPassPlan s pass = .ok plan ↔
      IsPass pass ∧ plan = if stored.length > 0 then some stored else none := by
    intro plan
    unfold PostgresSnapshotCheckpointStore.getPassPlan
    rw [bind_known (h.binding hb), bind_known hpass]
    by_cases hpos : 1 ≤ pass
    · rw [if_neg (not_lt.2 hpos), bind_checked fun _ => pgCount_ok, IsPass, and_iff_right hpos]
      refine and_congr_right fun _ => (bind_known ((h.bound hb).readPlan pass)).trans ?_
      exact ⟨fun hcall => (Except.ok.inj hcall).symm, fun hcall => congrArg Except.ok hcall.symm⟩
    · rw [if_pos (not_le.1 hpos)]
      exact ⟨nofun, fun hcall => absurd hcall.1.1 hpos⟩
  refine ⟨?_, fun _ => h⟩
  show SameResult _ ((p.getPassPlan s pass).map .plan) ↔ _
  cases hanswer : p.getPassPlan s pass with
  | error e =>
    refine iff_of_false id fun hfits => ?_
    cases hanswer.symm.trans ((hread _).2 ⟨hfits.1, rfl⟩)
  | ok plan =>
    obtain ⟨hfits, rfl⟩ := (hread plan).1 hanswer
    have hplan := plan_answered (m.plans (InMemorySnapshotStore.planKey s pass))
    constructor
    · intro hsame
      exact ⟨hfits, hplan.1 (StoreAnswer.plan.inj hsame)⟩
    · intro hfits
      exact congrArg StoreAnswer.plan (hplan.2 hfits.2)

theorem getTerminal_eq (h : Related D m p) (hb : m.bindings s = some b) :
    p.getTerminal D s = .ok (m.terminals s) := by
  have hstands := h.bound hb
  have hrow : p.tables.terminals (scope b) = m.terminals s := hstands.terminal
  have hkept : ∀ t, m.terminals s = some t → sanitizeTombstone D.toPlatform t b = .ok t := hstands.tombstone
  refine bind_ok.2 ⟨b, h.binding hb, ?_⟩
  rw [hrow]
  cases ht : m.terminals s with
  | none => rfl
  | some t => exact bind_ok.2 ⟨t, hkept t ht, rfl⟩

theorem decided_getTerminal (h : Related D m p) (hv : Valid D m (.getTerminal s)) :
    Decided D dep m p (.getTerminal s) := by
  obtain ⟨b, hb⟩ := Option.ne_none_iff_exists'.1 hv
  refine decided_of_same trivial ?_ h
  show SameResult _ ((p.getTerminal D s).map .terminal)
  rw [getTerminal_eq h hb]
  rfl

/-- The first tombstone stays, and a later claim is answered with it. -/
theorem decided_claimTerminal (h : Related D m p) {t : SnapshotTerminalTombstone}
    (hv : Valid D m (.claimTerminal s t)) : Decided D dep m p (.claimTerminal s t) := by
  obtain ⟨b, hb, hkept⟩ := hv
  have hstands := h.bound hb
  have hrow : p.tables.terminals (scope b) = m.terminals s := hstands.terminal
  have hproposed : p.proposeTerminal D s t = .ok (b, t) :=
    bind_ok.2 ⟨b, h.binding hb, bind_ok.2 ⟨t, hkept, bind_ok.2 ⟨(), h.lock hb, rfl⟩⟩⟩
  cases hterminal : m.terminals s with
  | some existing =>
    have hmemory : m.call (.claimTerminal s t) = (.ok (.terminal (some existing)), m) := by
      simp only [InMemorySnapshotStore.call, hterminal]
    have hclaim : p.call D dep (.claimTerminal s t) = (.ok (.terminal (some existing)), p) := by
      simp only [PostgresSnapshotCheckpointStore.call, PostgresSnapshotCheckpointStore.claimTerminal,
        hproposed, hrow, hterminal, getTerminal_eq h hb]
      rfl
    refine decided_of_same trivial ?_ ?_
    · rw [hmemory, hclaim]
      rfl
    · rw [hmemory, hclaim]
      exact h
  | none =>
    let rows : RowSet := { p.tables.rows (scope b) with terminal := some t }
    have hmemory : m.call (.claimTerminal s t) = (.ok (.terminal (some t)),
        { m with terminals := Function.update m.terminals s (some t) }) := by
      simp only [InMemorySnapshotStore.call, hterminal]
    have hclaim : p.call D dep (.claimTerminal s t) = (.ok (.terminal (some t)),
        { p with tables := p.tables.edit (scope b) rows }) := by
      simp only [PostgresSnapshotCheckpointStore.call, PostgresSnapshotCheckpointStore.claimTerminal,
        hproposed, hrow, hterminal, hkept, rows, edit_terminals]
      rfl
    refine decided_of_same trivial ?_ ?_
    · rw [hmemory, hclaim]
      rfl
    · rw [hmemory, hclaim]
      refine h.write hb rfl (fun s' hs => ?_) ?_
      · simp [InMemorySnapshotStore.record, Function.update_of_ne hs]
      · have hrecord : InMemorySnapshotStore.record { m with
            terminals := Function.update m.terminals s (some t) } s =
            { m.record s with terminal := some t } := by
          simp [InMemorySnapshotStore.record]
        rw [hrecord]
        refine { hstands with terminal := rfl, tombstone := fun t' ht' => ?_ }
        rw [← Option.some.inj ht']
        exact hkept

variable (dep) in
/-- One call, in any related states. -/
theorem decided (h : Related D m p) {call : StoreCall} (hv : Valid D m call) :
    Decided D dep m p call := by
  cases call with
  | bindSnapshot b => exact decided_of_same trivial (related_bindSnapshot h b).1 (related_bindSnapshot h b).2
  | putIndex s releases => exact decided_putIndex h hv
  | getIndex s => exact decided_getIndex h hv
  | putOutcomes s os => exact decided_putOutcomes h hv
  | getOutcomes s => exact decided_getOutcomes h hv
  | putProgress progress => exact decided_putProgress h hv
  | getProgress s => exact decided_getProgress h hv
  | markChunkComplete s pass i => exact decided_markChunkComplete h hv
  | completedChunks s pass => exact decided_completedChunks h hv
  | putPassPlan s pass chunks => exact decided_putPassPlan h hv
  | getPassPlan s pass => exact decided_getPassPlan h hv
  | claimTerminal s t => exact decided_claimTerminal h hv
  | getTerminal s => exact decided_getTerminal h hv

end Agreement

/-! ### Every sequence of calls -/

section Sequences

variable {D} {dep : Deployment}

/-- The answers to the calls, one after the other. -/
def answers {σ : Type} (call : σ → StoreCall → Checked StoreAnswer × σ) :
    σ → List StoreCall → List (Checked StoreAnswer)
  | _, [] => []
  | st, c :: calls => (call st c).1 :: answers call (call st c).2 calls

/-- The condition holds of every call, where the in-memory store is by then. -/
def Along (C : InMemorySnapshotStore → StoreCall → Prop) : InMemorySnapshotStore → List StoreCall → Prop
  | _, [] => True
  | m, c :: calls => C m c ∧ Along C (m.call c).2 calls

theorem same_iff_along {m : InMemorySnapshotStore} {p : PostgresSnapshotCheckpointStore}
    (h : Related D m p) {calls : List StoreCall} (hv : Along (Valid D) m calls) :
    List.Forall₂ SameResult (answers InMemorySnapshotStore.call m calls)
        (answers (PostgresSnapshotCheckpointStore.call D dep) p calls) ↔
      Along (FitsTables D dep) m calls := by
  induction calls generalizing m p with
  | nil => exact iff_of_true .nil trivial
  | cons c calls ih =>
    have hcall := decided dep h hv.1
    rw [answers, answers, List.forall₂_cons, hcall.same, Along]
    exact and_congr_right fun hfits => ih (hcall.related hfits) hv.2

/-- The stores answer a sequence of calls alike exactly if every call fits the tables. -/
theorem stores_agree_iff {calls : List StoreCall} (hv : Along (Valid D) .empty calls) :
    List.Forall₂ SameResult (answers InMemorySnapshotStore.call InMemorySnapshotStore.empty calls)
        (answers (PostgresSnapshotCheckpointStore.call D dep) PostgresSnapshotCheckpointStore.empty calls) ↔
      Along (FitsTables D dep) .empty calls :=
  same_iff_along related_empty hv

end Sequences

/-! ### A plan that is kept, and two sequences that are not -/

def sampleBinding : SnapshotCheckpointBinding := ⟨"s1", "t1", "c1", "distrokid"⟩

def sampleDeployment : Deployment := ⟨100, by decide, fun _ => true⟩

/-- A bound snapshot whose plan is written and read. -/
def planCalls (plan : List (List String)) : List StoreCall :=
  [.bindSnapshot sampleBinding, .putPassPlan "s1" 1 plan, .getPassPlan "s1" 1]

/-- A bound snapshot and a batch of outcomes with one release twice. -/
def repeatedCalls : List StoreCall :=
  [.bindSnapshot sampleBinding,
    .putOutcomes "s1" (List.replicate 2 (.skipped "A1" "release skipped during extraction"))]

/-- What the in-memory store has bound. -/
def memoryBound : InMemorySnapshotStore :=
  { InMemorySnapshotStore.empty with
    bindings := Function.update InMemorySnapshotStore.empty.bindings "s1" (some sampleBinding) }

theorem bind_sampleBinding :
    (InMemorySnapshotStore.empty.call (.bindSnapshot sampleBinding)).2 = memoryBound := by
  have hvalid : validateBinding sampleBinding = .ok () := by decide +kernel
  simp only [InMemorySnapshotStore.call, hvalid]
  rfl

theorem valid_planCalls {plan : List (List String)} (hlength : plan.length ≤ MAX_RELEASES)
    (hsizes : ∀ chunk ∈ plan, chunk.length ≤ 1000) (htexts : IsPlanText plan) :
    Along (Valid sampleDashboards) .empty (planCalls plan) := by
  have hbound : memoryBound.bindings "s1" ≠ none := nofun
  refine ⟨trivial, ?_⟩
  rw [bind_sampleBinding]
  exact ⟨⟨hbound, rfl, hlength, hsizes, htexts⟩, ⟨hbound, rfl⟩, trivial⟩

theorem valid_repeatedCalls : Along (Valid sampleDashboards) .empty repeatedCalls := by
  have hbound : memoryBound.bindings "s1" ≠ none := nofun
  refine ⟨trivial, ?_⟩
  rw [bind_sampleBinding]
  refine ⟨⟨hbound, by decide, fun o ho => ?_⟩, trivial⟩
  obtain rfl := List.eq_of_mem_replicate ho
  decide +kernel

theorem stores_agree_sample :
    List.Forall₂ SameResult
      (answers InMemorySnapshotStore.call InMemorySnapshotStore.empty (planCalls [["A1"], ["A2"]]))
      (answers (PostgresSnapshotCheckpointStore.call sampleDashboards sampleDeployment)
        PostgresSnapshotCheckpointStore.empty (planCalls [["A1"], ["A2"]])) := by
  have htexts : IsPlanText [["A1"], ["A2"]] := by
    intro chunk hchunk id hid
    have hall : ([["A1"], ["A2"]].all fun chunk => chunk.all fun id => decide (Storable 512 id)) = true := by
      decide +kernel
    exact of_decide_eq_true (List.all_eq_true.1 (List.all_eq_true.1 hall chunk hchunk) id hid)
  refine (stores_agree_iff (valid_planCalls (by decide) (by decide) htexts)).2 ⟨trivial, ?_⟩
  rw [bind_sampleBinding]
  have hpass : IsPass 1 := ⟨le_rfl, show 1 ≤ 2147483647 by decide⟩
  exact ⟨hpass, ⟨hpass, by decide +kernel⟩, trivial⟩

theorem stores_part :
    Along (Valid sampleDashboards) .empty repeatedCalls ∧
    ¬ List.Forall₂ SameResult
      (answers InMemorySnapshotStore.call InMemorySnapshotStore.empty repeatedCalls)
      (answers (PostgresSnapshotCheckpointStore.call sampleDashboards sampleDeployment)
        PostgresSnapshotCheckpointStore.empty repeatedCalls) ∧
    Along (Valid sampleDashboards) .empty (planCalls []) ∧
    ¬ List.Forall₂ SameResult
      (answers InMemorySnapshotStore.call InMemorySnapshotStore.empty (planCalls []))
      (answers (PostgresSnapshotCheckpointStore.call sampleDashboards sampleDeployment)
        PostgresSnapshotCheckpointStore.empty (planCalls [])) := by
  have hmemory : answers InMemorySnapshotStore.call InMemorySnapshotStore.empty repeatedCalls =
      [.ok .done, .ok .done] := by
    decide +kernel
  have hpostgres : answers (PostgresSnapshotCheckpointStore.call sampleDashboards sampleDeployment)
      PostgresSnapshotCheckpointStore.empty repeatedCalls = [.ok .done,
        .error (.postgres "ON CONFLICT DO UPDATE command cannot affect row a second time")] := by
    decide +kernel
  have hmemory' : answers InMemorySnapshotStore.call InMemorySnapshotStore.empty (planCalls []) =
      [.ok .done, .ok .done, .ok (.plan (some []))] := by
    decide +kernel
  have hpostgres' : answers (PostgresSnapshotCheckpointStore.call sampleDashboards sampleDeployment)
      PostgresSnapshotCheckpointStore.empty (planCalls []) =
      [.ok .done, .ok .done, .ok (.plan none)] := by
    decide +kernel
  have hnil : IsPlanText [] := fun chunk hchunk => absurd hchunk List.not_mem_nil
  refine ⟨valid_repeatedCalls, ?_, valid_planCalls (by decide) (by decide) hnil, ?_⟩
  · rw [hmemory, hpostgres, List.forall₂_cons, List.forall₂_cons]
    exact fun h => h.2.1
  · rw [hmemory', hpostgres', List.forall₂_cons, List.forall₂_cons, List.forall₂_cons]
    rintro ⟨-, -, hplan, -⟩
    cases hplan

end CatalogSentinel.Checkpoint
