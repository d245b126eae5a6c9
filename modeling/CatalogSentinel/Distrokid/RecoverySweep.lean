import CatalogSentinel.Concurrent.Sweep
import CatalogSentinel.Distrokid.RecoveryRoundTrip
import CatalogSentinel.Distrokid.Rules

/-!
The sweep of the recovery envelopes over all snapshots. What fails while a snapshot is handled is
counted and the loop goes on. But the rows are decoded before the loop, all of them or none, so one
row that is not read keeps every other from being examined.
-/

namespace CatalogSentinel.Distrokid

open CatalogSentinel.Data CatalogSentinel.Concurrent CatalogSentinel.Checkpoint

abbrev Examined := CatalogIndexJob × Settlement distrokid PipelineError RecoveryStep

variable {σ : Type} (D : Dates) (env : Env) (perform : σ → (o : distrokid.Op) → Except PipelineError (distrokid.Ans o) × σ)

/-- The sweep: the envelopes are listed, then handled one after the other. A snapshot's awaits see
and change its own part of the world. -/
def sweepDurableSnapshots (t : RecoveryTables) (limit : Option ℚ) (w : String → σ) :
    Except RecoveryError (List Examined) × (String → σ) :=
  match list D t limit with
  | .error e => (.error e, w)
  | .ok jobs =>
    let swept := sweep perform (fun job : CatalogIndexJob => job.snapshotId) (recoverSnapshot env) jobs w
    (.ok swept.1, swept.2)

/-- Only what is stored of one snapshot. -/
def RecoveryTables.only (t : RecoveryTables) (snapshotId : String) : RecoveryTables where
  roots := t.roots.filter fun root => root.snapshotId = snapshotId
  terminals := t.terminals.filter fun key => key.2.2 = snapshotId
  unique := (List.filter_sublist.map _).nodup t.unique
  checked root h := t.checked root (List.mem_of_mem_filter h)
  referenced key h := by
    obtain ⟨hkey, hid⟩ := List.mem_filter.1 h
    obtain ⟨root, hroot, rfl⟩ := List.mem_map.1 (t.referenced key hkey)
    exact List.mem_map_of_mem (List.mem_filter.2 ⟨hroot, hid⟩)

/-- Every valid envelope among the first rows is examined, and comes to what it comes to when it
is swept alone. -/
def Isolates (t : RecoveryTables) (n : ℕ) (w : String → σ) : Prop :=
  ∀ row ∈ (recoveryRows t).take n, ∀ job, fromRow D row = .ok job →
    ∃ entries settled, (sweepDurableSnapshots D env perform t (some n) w).1 = .ok entries ∧
      (job, settled) ∈ entries ∧
      (sweepDurableSnapshots D env perform (t.only row.snapshotId) (some n) w).1 = .ok [(job, settled)] ∧
      (sweepDurableSnapshots D env perform t (some n) w).2 job.snapshotId =
        (sweepDurableSnapshots D env perform (t.only row.snapshotId) (some n) w).2 job.snapshotId

def Readable (row : CheckpointRoot) : Prop := ∃ job, fromRow D row = .ok job

/-- No row within the limit is read, or all that are asked for are, and the bound leaves none out. -/
def AllOrNone (t : RecoveryTables) (n : ℕ) : Prop :=
  (∀ row ∈ (recoveryRows t).take n, ¬Readable D row) ∨
    (∀ row ∈ (recoveryRows t).take (boundedLimit (some n)), Readable D row) ∧
      ∀ row ∈ ((recoveryRows t).take n).drop 500, ¬Readable D row

variable {D env perform}

theorem boundedLimit_natCast (n : ℕ) : boundedLimit (some n) = max 1 (min 500 n) := by
  simp only [boundedLimit, Int.floor_natCast]
  omega

theorem nodup_recoveryRows (t : RecoveryTables) : (recoveryRows t).Nodup :=
  (List.mergeSort_perm _ _).nodup_iff.2 (t.unique.of_map.filter _)

/-- The rows are told apart by their snapshots. -/
theorem row_eq_of_snapshotId {t : RecoveryTables} {row row' : CheckpointRoot} (h : row ∈ recoveryRows t)
    (h' : row' ∈ recoveryRows t) (hid : row.snapshotId = row'.snapshotId) : row = row' :=
  List.inj_on_of_nodup_map t.unique (mem_recoveryRows.1 h).1 (mem_recoveryRows.1 h').1 hid

theorem recoveryRows_only {t : RecoveryTables} {row : CheckpointRoot} (h : row ∈ recoveryRows t) :
    recoveryRows (t.only row.snapshotId) = [row] := by
  rw [← List.perm_singleton]
  refine (List.perm_ext_iff_of_nodup (nodup_recoveryRows _) (List.nodup_singleton row)).2 fun other => ?_
  obtain ⟨hmem, hsome⟩ := mem_recoveryRows.1 h
  rw [mem_recoveryRows, List.mem_singleton, RecoveryTables.only, List.mem_filter, decide_eq_true_eq]
  constructor
  · rintro ⟨⟨hother, hid⟩, -⟩
    exact List.inj_on_of_nodup_map t.unique hother hmem hid
  · rintro rfl
    exact ⟨⟨hmem, rfl⟩, hsome⟩

theorem map_eq_of_forall₂ {α β γ : Type} {R : α → β → Prop} {f : α → γ} {g : β → γ} {xs : List α} {ys : List β}
    (h : List.Forall₂ R xs ys) (hR : ∀ x ∈ xs, ∀ y, R x y → g y = f x) : ys.map g = xs.map f := by
  induction h with
  | nil => rfl
  | cons hxy _ ih =>
    rw [List.map_cons, List.map_cons, hR _ List.mem_cons_self _ hxy,
      ih fun x hx y hxy => hR x (List.mem_cons_of_mem _ hx) y hxy]

/-- The jobs that are listed belong to distinct snapshots. -/
theorem nodup_listed {t : RecoveryTables} {limit : Option ℚ} {jobs : List CatalogIndexJob}
    (h : list D t limit = .ok jobs) : (jobs.map fun job => job.snapshotId).Nodup := by
  have hids : (jobs.map fun job => job.snapshotId) =
      ((recoveryRows t).take (boundedLimit limit)).map CheckpointRoot.snapshotId := by
    apply map_eq_of_forall₂ (mapM_ok.1 h)
    intro row hrow job hread
    exact fromRow_snapshotId (t.checked row (mem_recoveryRows.1 (List.mem_of_mem_take hrow)).1) hread
  rw [hids]
  refine ((nodup_recoveryRows t).sublist (List.take_sublist _ _)).map_on fun row hrow row' hrow' hid => ?_
  exact row_eq_of_snapshotId (List.mem_of_mem_take hrow) (List.mem_of_mem_take hrow') hid

variable (env perform) in
/-- A listed job is examined, and comes to what its own program comes to. -/
theorem examined_listed {t : RecoveryTables} {limit : Option ℚ} {jobs : List CatalogIndexJob}
    (h : list D t limit = .ok jobs) (w : String → σ) :
    (sweepDurableSnapshots D env perform t limit w).1 =
        .ok (jobs.map fun job => (job, (exec perform (recoverSnapshot env job) (w job.snapshotId)).1)) ∧
      ∀ job ∈ jobs, (sweepDurableSnapshots D env perform t limit w).2 job.snapshotId =
        (exec perform (recoverSnapshot env job) (w job.snapshotId)).2 := by
  unfold sweepDurableSnapshots
  rw [h]
  have hnodup := nodup_listed h
  constructor
  · dsimp only
    rw [sweep_entries hnodup]
  · intro job hjob
    exact sweep_part hnodup hjob w

theorem list_of_readable {t : RecoveryTables} {limit : Option ℚ}
    (h : ∀ row ∈ (recoveryRows t).take (boundedLimit limit), Readable D row) : ∃ jobs, list D t limit = .ok jobs := by
  unfold list
  generalize (recoveryRows t).take (boundedLimit limit) = rows at h
  induction rows with
  | nil => exact ⟨[], rfl⟩
  | cons row rows ih =>
    obtain ⟨job, hjob⟩ := h row List.mem_cons_self
    obtain ⟨jobs, hjobs⟩ := ih fun row' hrow' => h row' (List.mem_cons_of_mem _ hrow')
    exact ⟨job :: jobs, mapM_ok.2 (.cons hjob (mapM_ok.1 hjobs))⟩

theorem readable_of_list {t : RecoveryTables} {limit : Option ℚ} {jobs : List CatalogIndexJob}
    (h : list D t limit = .ok jobs) : ∀ row ∈ (recoveryRows t).take (boundedLimit limit), Readable D row := by
  intro row hrow
  obtain ⟨job, -, hread⟩ := exists_of_forall₂ (mapM_ok.1 h) hrow
  exact ⟨job, hread⟩

/-- A sweep over one envelope lists it. -/
theorem list_only {t : RecoveryTables} {row : CheckpointRoot} (h : row ∈ recoveryRows t) {job : CatalogIndexJob}
    (hread : fromRow D row = .ok job) (n : ℕ) : list D (t.only row.snapshotId) (some n) = .ok [job] := by
  have hlimit : [row].length ≤ boundedLimit (some n) := by
    rw [boundedLimit_natCast]
    exact le_max_left 1 _
  rw [list, recoveryRows_only h, List.take_of_length_le hlimit]
  exact mapM_ok.2 (.cons hread .nil)

theorem isolates_of_allOrNone {t : RecoveryTables} {n : ℕ} (h : AllOrNone D t n) (w : String → σ) :
    Isolates D env perform t n w := by
  intro row hrow job hread
  obtain hnone | ⟨hall, hbeyond⟩ := h
  · exact absurd ⟨job, hread⟩ (hnone row hrow)
  have hmem := List.mem_of_mem_take hrow
  -- A row that is read is not beyond the bound.
  have hbounded : row ∈ (recoveryRows t).take (boundedLimit (some n)) := by
    rw [← List.take_append_drop 500 ((recoveryRows t).take n), List.mem_append] at hrow
    obtain hrow | hrow := hrow
    · rw [List.take_take] at hrow
      apply List.take_subset_take_left _ _ hrow
      rw [boundedLimit_natCast]
      omega
    · exact absurd ⟨job, hread⟩ (hbeyond row hrow)
  obtain ⟨jobs, hlist⟩ := list_of_readable hall
  have hjob : job ∈ jobs := by
    obtain ⟨job', hjob', hread'⟩ := exists_of_forall₂ (mapM_ok.1 hlist) hbounded
    rw [hread] at hread'
    cases hread'
    exact hjob'
  obtain ⟨hentries, hparts⟩ := examined_listed env perform hlist w
  obtain ⟨halone, hpart⟩ := examined_listed env perform (list_only hmem hread n) w
  refine ⟨_, _, hentries, List.mem_map.2 ⟨job, hjob, rfl⟩, halone, ?_⟩
  rw [hparts job hjob, hpart job List.mem_cons_self]

theorem allOrNone_of_isolates {t : RecoveryTables} {n : ℕ} {w : String → σ}
    (h : Isolates D env perform t n w) : AllOrNone D t n := by
  by_cases hnone : ∀ row ∈ (recoveryRows t).take n, ¬Readable D row
  · exact .inl hnone
  push Not at hnone
  obtain ⟨row, hrow, job, hread⟩ := hnone
  obtain ⟨entries, -, hentries, -, -, -⟩ := h row hrow job hread
  -- The sweep has returned, so the list has.
  obtain ⟨jobs, hlist⟩ : ∃ jobs, list D t (some n) = .ok jobs := by
    unfold sweepDurableSnapshots at hentries
    cases hlist : list D t (some n) with
    | error e => rw [hlist] at hentries; cases hentries
    | ok jobs => exact ⟨jobs, rfl⟩
  refine .inr ⟨readable_of_list hlist, fun row' hrow' => ?_⟩
  rintro ⟨job', hread'⟩
  have htake := List.mem_of_mem_drop hrow'
  obtain ⟨entries', settled, hentries', hmem, -, -⟩ := h row' htake job' hread'
  rw [(examined_listed env perform hlist w).1] at hentries'
  cases hentries'
  obtain ⟨job'', hjob'', heq⟩ := List.mem_map.1 hmem
  cases heq
  -- Its row is one of those listed, so it is not beyond the bound.
  obtain ⟨row'', hrow'', hread''⟩ := exists_of_forall₂ (mapM_ok.1 hlist).flip hjob''
  have hmem' := List.mem_of_mem_take htake
  have hmem'' := List.mem_of_mem_take hrow''
  have hid : row'.snapshotId = row''.snapshotId := by
    rw [← fromRow_snapshotId (t.checked _ (mem_recoveryRows.1 hmem').1) hread',
      ← fromRow_snapshotId (t.checked _ (mem_recoveryRows.1 hmem'').1) hread'']
  obtain rfl := row_eq_of_snapshotId hmem' hmem'' hid
  have hdrop : row' ∈ (recoveryRows t).drop 500 := by
    rw [List.drop_take] at hrow'
    exact List.mem_of_mem_take hrow'
  have hbound : boundedLimit (some n) ≤ 500 := by
    rw [boundedLimit_natCast]
    omega
  exact List.disjoint_take_drop (nodup_recoveryRows t) hbound hrow'' hdrop

/-- A sweep treats every snapshot as if it were alone exactly if no row that it asks for is read,
or all are and the bound of the list leaves none out. -/
theorem isolates_iff (D : Dates) (env : Env) (perform : σ → (o : distrokid.Op) → Except PipelineError (distrokid.Ans o) × σ)
    (t : RecoveryTables) (n : ℕ) (w : String → σ) : Isolates D env perform t n w ↔ AllOrNone D t n :=
  ⟨allOrNone_of_isolates, fun h => isolates_of_allOrNone h w⟩

/-! ### A row of an older schema -/

def envelopeRow (snapshotId : String) (deadlineAt : ℤ) (schemaVersion : ℕ) : CheckpointRoot where
  userId := "ada"
  connectionId := "link"
  snapshotId := snapshotId
  distributor := "distrokid"
  recovery := ⟨some ["Ada"], some "consent", some "v1.sealed", some tenOClock, some deadlineAt, some schemaVersion⟩

/-- The first snapshot's envelope was written before the schema's version was raised. -/
def mixedTables : RecoveryTables where
  roots := [envelopeRow "older" (tenOClock - 3600000) 1, envelopeRow "newer" (tenOClock - 3600000) 2]
  terminals := []
  unique := by decide
  checked := by decide
  referenced := nofun

/-- An environment in which every await fails. -/
def allFail (_ : Unit) (o : distrokid.Op) : Except PipelineError (distrokid.Ans o) × Unit := (.error .shutdown, ())

/-- The row of the newer schema is read and is within the limit, but it is not examined. -/
theorem older_blocks :
    (∃ job, fromRow sampleDates (envelopeRow "newer" (tenOClock - 3600000) 2) = .ok job) ∧
      envelopeRow "newer" (tenOClock - 3600000) 2 ∈ (recoveryRows mixedTables).take 2 ∧
      ¬Isolates sampleDates sampleEnv allFail mixedTables 2 fun _ => () := by
  have hread : fromRow sampleDates (envelopeRow "newer" (tenOClock - 3600000) 2) =
      .ok { indexJob "ada" "2026-01-01T10:00:00.000Z" with snapshotId := "newer" } := by decide
  have hunread : fromRow sampleDates (envelopeRow "older" (tenOClock - 3600000) 1) = .error .wrongVersion := by decide
  have hlength : (recoveryRows mixedTables).length ≤ 2 := by
    rw [recoveryRows, List.length_mergeSort]
    exact List.length_filter_le _ _
  have hmem : ∀ root ∈ mixedTables.roots, root ∈ (recoveryRows mixedTables).take 2 := by
    intro root hroot
    rw [List.take_of_length_le hlength, mem_recoveryRows]
    exact ⟨hroot, (by decide : ∀ root ∈ mixedTables.roots, root.recovery.steelSessionIdEncrypted.isSome) root hroot⟩
  refine ⟨⟨_, hread⟩, hmem _ (by decide), fun h => ?_⟩
  obtain ⟨entries, -, hentries, -, -, -⟩ := h _ (hmem _ (by decide)) _ hread
  unfold sweepDurableSnapshots at hentries
  cases hlist : list sampleDates mixedTables (some (2 : ℕ)) with
  | error e =>
    rw [hlist] at hentries
    cases hentries
  | ok jobs =>
    have hreadable := readable_of_list hlist (envelopeRow "older" (tenOClock - 3600000) 1)
    rw [boundedLimit_natCast] at hreadable
    obtain ⟨job, hjob⟩ := hreadable (hmem _ (by decide))
    rw [hunread] at hjob
    cases hjob

end CatalogSentinel.Distrokid
