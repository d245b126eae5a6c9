import CatalogSentinel.Checkpoint.Stores

/-!
What the checkpoint tables hold of one snapshot, beside what the store in memory holds
of it. Text keys stand for rows, numbered rows for lists, and a batch of upserts for
the batch at once, unless a statement would write a row twice; every read of the rows,
page by page, answers what the record says.
-/

namespace CatalogSentinel.Checkpoint

open CatalogSentinel.Data CatalogSentinel.Distrokid

/-! ### One snapshot -/

/-- What the in-memory store keeps of one snapshot. -/
structure MemoryRecord where
  index : List ReleaseRefRecord
  outcomes : List ReleaseExtractionOutcome
  progress : Option SnapshotProgress
  chunks : List String
  plans : ℕ → Option (List (List String))
  terminal : Option SnapshotTerminalTombstone

def InMemorySnapshotStore.record (m : InMemorySnapshotStore) (s : String) : MemoryRecord :=
  ⟨m.index s, m.outcomes s, m.progress s, m.chunks s,
    fun pass => m.plans (InMemorySnapshotStore.planKey s pass), m.terminals s⟩

/-- The rows of one scope. -/
structure RowSet where
  index : List (ReleaseRefRecord × ℕ)
  outcomes : List ReleaseExtractionOutcome
  progress : Option ProgressRow
  chunks : List (ℕ × ℕ)
  plans : ℕ → List (List String × ℕ)
  terminal : Option SnapshotTerminalTombstone

def CheckpointTables.rows (t : CheckpointTables) (sc : Scope) : RowSet :=
  ⟨t.index sc, t.outcomes sc, t.progress sc, t.chunks sc, t.plans sc, t.terminals sc⟩

/-- Other rows in one scope. -/
def CheckpointTables.edit (t : CheckpointTables) (sc : Scope) (rows : RowSet) : CheckpointTables where
  checkpoints := t.checkpoints
  index := Function.update t.index sc rows.index
  outcomes := Function.update t.outcomes sc rows.outcomes
  progress := Function.update t.progress sc rows.progress
  chunks := Function.update t.chunks sc rows.chunks
  plans := Function.update t.plans sc rows.plans
  terminals := Function.update t.terminals sc rows.terminal

theorem rows_edit_self (t : CheckpointTables) (sc : Scope) (rows : RowSet) :
    (t.edit sc rows).rows sc = rows := by
  simp [CheckpointTables.edit, CheckpointTables.rows]

theorem rows_edit_of_ne (t : CheckpointTables) {sc sc' : Scope} (rows : RowSet) (h : sc' ≠ sc) :
    (t.edit sc rows).rows sc' = t.rows sc' := by
  simp [CheckpointTables.edit, CheckpointTables.rows, Function.update_of_ne h]

/-! Where one table is written, the others stay. -/

theorem edit_index (t : CheckpointTables) (sc : Scope) (x : List (ReleaseRefRecord × ℕ)) :
    t.edit sc { t.rows sc with index := x } = { t with index := Function.update t.index sc x } := by
  simp [CheckpointTables.edit, CheckpointTables.rows]

theorem edit_outcomes (t : CheckpointTables) (sc : Scope) (x : List ReleaseExtractionOutcome) :
    t.edit sc { t.rows sc with outcomes := x } = { t with outcomes := Function.update t.outcomes sc x } := by
  simp [CheckpointTables.edit, CheckpointTables.rows]

theorem edit_progress (t : CheckpointTables) (sc : Scope) (x : Option ProgressRow) :
    t.edit sc { t.rows sc with progress := x } = { t with progress := Function.update t.progress sc x } := by
  simp [CheckpointTables.edit, CheckpointTables.rows]

theorem edit_chunks (t : CheckpointTables) (sc : Scope) (x : List (ℕ × ℕ)) :
    t.edit sc { t.rows sc with chunks := x } = { t with chunks := Function.update t.chunks sc x } := by
  simp [CheckpointTables.edit, CheckpointTables.rows]

theorem edit_plans (t : CheckpointTables) (sc : Scope) (x : ℕ → List (List String × ℕ)) :
    t.edit sc { t.rows sc with plans := x } = { t with plans := Function.update t.plans sc x } := by
  simp [CheckpointTables.edit, CheckpointTables.rows]

theorem edit_terminals (t : CheckpointTables) (sc : Scope) (x : Option SnapshotTerminalTombstone) :
    t.edit sc { t.rows sc with terminal := x } = { t with terminals := Function.update t.terminals sc x } := by
  simp [CheckpointTables.edit, CheckpointTables.rows]

variable (D : DashboardPlatform)

/-- The row that stands for a progress record. -/
structure RowFor (b : SnapshotCheckpointBinding) (row : ProgressRow) (progress : SnapshotProgress) :
    Prop where
  accepted : sanitizeProgress D.toPlatform progress b = .ok progress
  counts : row = ⟨progress.distributor, progress.status, progress.expectedReleases,
    progress.completedReleases, progress.failedReleases, progress.chunkCount,
    progress.completedChunks, row.startedAt, row.updatedAt⟩
  startedAt : D.toISOString row.startedAt = progress.startedAt
  updatedAt : D.toISOString row.updatedAt = progress.updatedAt

def IsPlanText (plan : List (List String)) : Prop :=
  ∀ chunk ∈ plan, ∀ id ∈ chunk, Storable 512 id

/-- The rows of a scope stand for the record, and every value is accepted again. -/
structure Stands (b : SnapshotCheckpointBinding) (rec : MemoryRecord) (rows : RowSet) : Prop where
  index : rows.index = rec.index.zipIdx
  releases : ∀ r ∈ rec.index, sanitizeReleaseRef D r = .ok r
  outcomes : rows.outcomes = rec.outcomes
  accepted : ∀ o ∈ rec.outcomes, sanitizeOutcome D.toPlatform o = .ok o
  ids : (rec.outcomes.map (·.outcomeReleaseId)).Nodup
  progress : Option.Rel (RowFor D b) rows.progress rec.progress
  chunks : rec.chunks = rows.chunks.map fun c => InMemorySnapshotStore.chunkKey c.1 c.2
  positions : rows.chunks.Nodup
  counts : ∀ c ∈ rows.chunks, c.2 ≤ 2147483647
  plans : ∀ pass, rows.plans pass = ((rec.plans pass).getD []).zipIdx
  texts : ∀ pass, IsPlanText ((rec.plans pass).getD [])
  terminal : rows.terminal = rec.terminal
  tombstone : ∀ t, rec.terminal = some t → sanitizeTombstone D.toPlatform t b = .ok t

/-! ### Reads -/

section Reads

/-- A loop that checks what it collects, over rows that pass as they are. -/
theorem foldlM_collect {α β : Type} {f : α → Checked β} {g : α → β} {xs : List α}
    (h : ∀ x ∈ xs, f x = .ok (g x)) (acc : List β) :
    (xs.foldlM (fun acc x => do let y ← f x; return acc ++ [y]) acc : Checked (List β)) =
      .ok (acc ++ xs.map g) := by
  induction xs generalizing acc with
  | nil => simp only [List.foldlM_nil, List.map_nil, List.append_nil]; rfl
  | cons x xs ih =>
    rw [List.foldlM_cons, h x List.mem_cons_self]
    refine (ih (fun y hy => h y (List.mem_cons_of_mem _ hy)) (acc ++ [g x])).trans ?_
    rw [List.append_assoc, List.map_cons]
    rfl

/-- Numbered rows are in order. -/
theorem pairwise_zipIdx {α : Type} (xs : List α) (k : ℕ) :
    (xs.zipIdx k).Pairwise fun r r' => (r.2 : ℤ) < (r'.2 : ℤ) := by
  induction xs generalizing k with
  | nil => exact .nil
  | cons x xs ih =>
    rw [List.zipIdx_cons]
    refine .cons (fun r hr => ?_) (ih (k + 1))
    have hle : k + 1 ≤ r.2 := List.le_snd_of_mem_zipIdx hr
    show (k : ℤ) < (r.2 : ℤ)
    omega

theorem readPages_numbered {α β ε : Type} {f : β → α × ℕ → Except ε β} (xs : List α) (acc : β) :
    readPages (fun row : α × ℕ => (row.2 : ℤ)) CHECKPOINT_PAGE_SIZE xs.zipIdx f
      (xs.zipIdx.length + 1) (-1) acc = xs.zipIdx.foldlM f acc := by
  have hpairwise := pairwise_zipIdx xs 0
  have hnodup : (xs.zipIdx.map fun row => (row.2 : ℤ)).Nodup :=
    List.pairwise_map.2 (hpairwise.imp fun hlt => hlt.ne)
  rw [readPages_eq (by decide) hnodup (fun r _ => by omega), byKey_of_pairwise hpairwise]

theorem empty_lt {s : String} (h : s ≠ "") : "" < s := by
  rw [String.lt_iff_toList_lt]
  cases hs : s.toList with
  | nil => exact absurd (String.toList_eq_nil_iff.1 hs) h
  | cons c cs => exact List.nil_lt_cons c cs

theorem readPlan_numbered {plan : List (List String)} (h : IsPlanText plan) (acc : List (List String)) :
    (plan.zipIdx acc.length).foldlM PostgresSnapshotCheckpointStore.readPlanRow acc =
      .ok (acc ++ plan) := by
  induction plan generalizing acc with
  | nil => simp only [List.zipIdx_nil, List.foldlM_nil, List.append_nil]; rfl
  | cons chunk plan ih =>
    have hids : chunk.mapM (fun id => textValue id "stored pass plan releaseId" 512) = .ok chunk := by
      rw [mapM_ok, List.forall₂_same]
      intro id hid
      obtain ⟨v, hv⟩ := passes_textValue.2 (h chunk List.mem_cons_self id hid)
      rwa [textValue_ok hv] at hv
    have hrow : PostgresSnapshotCheckpointStore.readPlanRow acc (chunk, acc.length) =
        .ok (acc ++ [chunk]) := by
      unfold PostgresSnapshotCheckpointStore.readPlanRow
      rw [if_neg (by simp)]
      exact bind_ok.2 ⟨chunk, hids, rfl⟩
    rw [List.zipIdx_cons, List.foldlM_cons, hrow]
    have hrest := ih (fun chunk hchunk => h chunk (List.mem_cons_of_mem _ hchunk)) (acc ++ [chunk])
    rw [List.length_append, List.length_singleton] at hrest
    refine hrest.trans ?_
    rw [List.append_assoc, List.singleton_append]

end Reads

/-! ### Text keys -/

section Keys

open InMemorySnapshotStore

theorem notMem_toDigits (n : ℕ) : ':' ∉ Nat.toDigits 10 n := by
  intro h
  have hdigit := Nat.isDigit_of_mem_toDigits (by decide) (by decide) h
  exact absurd hdigit (by decide)

theorem toDigits_inj {n n' : ℕ} (h : Nat.toDigits 10 n = Nat.toDigits 10 n') : n = n' := by
  have hvalue := congrArg (fun digits => Nat.ofDigitChars 10 digits 0) h
  simpa using hvalue

/-- Text is cut at its last separator in one way only. -/
theorem cut_at_last {c : Char} {a a' d d' : List Char} (hd : c ∉ d) (hd' : c ∉ d')
    (h : a ++ c :: d = a' ++ c :: d') : a = a' ∧ d = d' := by
  obtain ⟨between, ha, hrest⟩ | ⟨between, ha, hrest⟩ := List.append_eq_append_iff.1 h
  · cases between with
    | nil => exact ⟨(ha.trans (List.append_nil a)).symm, (List.cons.inj hrest).2⟩
    | cons x between =>
      rw [List.cons_append] at hrest
      rw [(List.cons.inj hrest).2] at hd
      exact absurd (List.mem_append_right between List.mem_cons_self) hd
  · cases between with
    | nil => exact ⟨ha.trans (List.append_nil a'), (List.cons.inj hrest).2.symm⟩
    | cons x between =>
      rw [List.cons_append] at hrest
      rw [(List.cons.inj hrest).2] at hd'
      exact absurd (List.mem_append_right between List.mem_cons_self) hd'

theorem toList_chunkKey (pass i : ℕ) :
    (chunkKey pass i).toList = Nat.toDigits 10 pass ++ ':' :: Nat.toDigits 10 i := by
  have hcolon : (toString ":").toList = [':'] := rfl
  simp [chunkKey, Nat.toList_repr, hcolon]

theorem toList_planKey (s : String) (pass : ℕ) :
    (planKey s pass).toList = s.toList ++ ':' :: Nat.toDigits 10 pass := by
  have hname : toString s = s := rfl
  have hcolon : (toString ":").toList = [':'] := rfl
  simp [planKey, Nat.toList_repr, hname, hcolon]

theorem planKey_inj {s s' : String} {pass pass' : ℕ} (h : planKey s pass = planKey s' pass') :
    s = s' ∧ pass = pass' := by
  have hlist := congrArg String.toList h
  rw [toList_planKey, toList_planKey] at hlist
  obtain ⟨hs, hpass⟩ := cut_at_last (notMem_toDigits pass) (notMem_toDigits pass') hlist
  exact ⟨String.toList_inj.1 hs, toDigits_inj hpass⟩

theorem chunkKey_inj {c c' : ℕ × ℕ} : chunkKey c.1 c.2 = chunkKey c'.1 c'.2 ↔ c = c' := by
  refine ⟨fun h => ?_, fun h => by rw [h]⟩
  have hlist := congrArg String.toList h
  rw [toList_chunkKey, toList_chunkKey] at hlist
  obtain ⟨hpass, hi⟩ := cut_at_last (notMem_toDigits c.2) (notMem_toDigits c'.2) hlist
  exact Prod.ext (toDigits_inj hpass) (toDigits_inj hi)

/-- `m.startsWith(…)` and `m.slice(…)`: the keys of a pass, and their chunk indexes. -/
theorem after?_chunkKey (pass : ℕ) (c : ℕ × ℕ) :
    (after? s!"{pass}:" (chunkKey c.1 c.2)).map digitsValue =
      if c.1 = pass then some c.2 else none := by
  have hstart : (s!"{pass}:" : String).toList = Nat.toDigits 10 pass ++ [':'] := by
    have hcolon : (toString ":").toList = [':'] := rfl
    simp [Nat.toList_repr, hcolon]
  unfold after?
  rw [hstart, toList_chunkKey]
  by_cases hpass : c.1 = pass
  · have hkey : Nat.toDigits 10 c.1 ++ ':' :: Nat.toDigits 10 c.2 =
        (Nat.toDigits 10 pass ++ [':']) ++ Nat.toDigits 10 c.2 := by
      rw [hpass, List.append_assoc, List.singleton_append]
    have hprefix : (Nat.toDigits 10 pass ++ [':']).isPrefixOf
        (Nat.toDigits 10 pass ++ [':'] ++ Nat.toDigits 10 c.2) = true :=
      List.isPrefixOf_iff_prefix.2 (List.prefix_append _ _)
    rw [hkey, if_pos hprefix, if_pos hpass, List.drop_left, Option.map_some]
    show some (Nat.ofDigitChars 10 (Nat.toDigits 10 c.2) 0) = some c.2
    rw [Nat.ofDigitChars_ten_toDigits]
  · rw [if_neg hpass, if_neg, Option.map_none]
    intro hprefix
    obtain ⟨rest, hrest⟩ := List.isPrefixOf_iff_prefix.1 hprefix
    rw [List.append_assoc, List.singleton_append] at hrest
    have hdigits := (List.append_cons_inj_of_notMem (notMem_toDigits c.1) (notMem_toDigits c.2)).1 hrest.symm
    exact hpass (toDigits_inj hdigits.1)

end Keys

/-! ### The insert batches -/

/-- No insert batch has a release twice. -/
def DistinctBatches (batchSize : ℕ) (os : List ReleaseExtractionOutcome) : Prop :=
  ∀ k, (((os.drop (k * batchSize)).take batchSize).map (·.outcomeReleaseId)).Nodup

section Batches

variable {n : ℕ} {os : List ReleaseExtractionOutcome}

theorem distinctBatches_nil : DistinctBatches n [] := by
  intro k
  rw [List.drop_nil, List.take_nil]
  exact .nil

theorem distinctBatches_iff : DistinctBatches n os ↔
    ((os.take n).map (·.outcomeReleaseId)).Nodup ∧ DistinctBatches n (os.drop n) := by
  have hdrop : ∀ k, os.drop ((k + 1) * n) = (os.drop n).drop (k * n) := by
    intro k
    rw [List.drop_drop]
    congr 1
    ring
  constructor
  · intro h
    refine ⟨by simpa using h 0, fun k => ?_⟩
    have hk := h (k + 1)
    rwa [hdrop] at hk
  · rintro ⟨hfirst, hrest⟩ k
    cases k with
    | zero => simpa using hfirst
    | succ k =>
      rw [hdrop]
      exact hrest k

theorem passes_insertBatches (hn : 0 < n) {fuel : ℕ} {rows : List ReleaseExtractionOutcome}
    (hfuel : os.length ≤ fuel) : Passes (insertBatches n rows fuel os) ↔ DistinctBatches n os := by
  induction fuel generalizing rows os with
  | zero =>
    obtain rfl := List.length_eq_zero_iff.1 (Nat.le_zero.1 hfuel)
    exact iff_of_true (passes_ok rows) distinctBatches_nil
  | succ fuel ih =>
    cases os with
    | nil => exact iff_of_true (passes_ok rows) distinctBatches_nil
    | cons o os =>
      have hrest : ((o :: os).drop n).length ≤ fuel := by
        rw [List.length_drop]
        omega
      rw [distinctBatches_iff, insertBatches]
      · split
        · rename_i hnodup
          rw [ih hrest]
          exact ⟨fun h => ⟨hnodup, h⟩, fun h => h.2⟩
        · rename_i hnodup
          exact iff_of_false (not_passes_error _) fun h => hnodup h.1
      · simp

/-- Where no batch has a release twice, the batches write what one write would. -/
theorem insertBatches_of_distinct (hn : 0 < n) (h : DistinctBatches n os)
    (rows : List ReleaseExtractionOutcome) :
    insertBatches n rows os.length os = .ok (Distrokid.putOutcomes rows os) := by
  have hpasses : Passes (insertBatches n rows os.length os) := (passes_insertBatches hn le_rfl).2 h
  obtain ⟨rows', hrows⟩ := hpasses
  rwa [insertBatches_eq hn le_rfl hrows] at hrows

end Batches

/-! ### What the reads answer -/

section Answers

variable {D} {b : SnapshotCheckpointBinding} {rec : MemoryRecord} {rows : RowSet}

theorem ne_empty_of_sanitizeOutcome {o o' : ReleaseExtractionOutcome}
    (h : sanitizeOutcome D.toPlatform o = .ok o') : o.outcomeReleaseId ≠ "" := by
  have hid : Storable 512 o.outcomeReleaseId := by
    cases o with
    | failed releaseId reason detail elapsedMs fingerprint =>
      obtain ⟨id, hid, -⟩ := bind_ok.1 h
      exact passes_textValue.1 ⟨id, hid⟩
    | skipped releaseId reason =>
      obtain ⟨id, hid, -⟩ := bind_ok.1 h
      exact passes_textValue.1 ⟨id, hid⟩
    | completed release source elapsedMs fingerprint =>
      obtain ⟨r, -, hr, -⟩ := sanitizeOutcome_completed h
      obtain ⟨id, hid, -⟩ := bind_ok.1 hr
      exact passes_textValue.1 ⟨id, hid⟩
  intro hempty
  rw [hempty] at hid
  exact absurd hid.text (by decide)

theorem Stands.readIndex (h : Stands D b rec rows) :
    readPages (fun row : ReleaseRefRecord × ℕ => (row.2 : ℤ)) CHECKPOINT_PAGE_SIZE rows.index
      (fun result raw => do
        let release ← sanitizeReleaseRef D raw.1
        return result ++ [release]) (rows.index.length + 1) (-1) [] = .ok rec.index := by
  have hrows : ∀ row ∈ rec.index.zipIdx, sanitizeReleaseRef D row.1 = .ok row.1 :=
    fun row hrow => h.releases row.1 (List.fst_mem_of_mem_zipIdx hrow)
  rw [h.index, readPages_numbered, foldlM_collect hrows, List.nil_append, List.zipIdx_map_fst]

theorem Stands.readOutcomes (h : Stands D b rec rows) :
    ∃ os, os.Perm rec.outcomes ∧
      readPages (·.outcomeReleaseId) CHECKPOINT_PAGE_SIZE rows.outcomes
        (fun outcomes raw => do
          let outcome ← sanitizeOutcome D.toPlatform raw
          return outcomes ++ [outcome]) (rows.outcomes.length + 1) "" [] = .ok os := by
  have hperm : (byKey (·.outcomeReleaseId) rec.outcomes).Perm rec.outcomes := perm_byKey _
  refine ⟨byKey (·.outcomeReleaseId) rec.outcomes, hperm, ?_⟩
  have hafter : ∀ o ∈ rec.outcomes, "" < o.outcomeReleaseId :=
    fun o ho => empty_lt (ne_empty_of_sanitizeOutcome (h.accepted o ho))
  rw [h.outcomes, readPages_eq (by decide) h.ids hafter,
    foldlM_collect (g := id) fun o ho => h.accepted o (hperm.mem_iff.1 ho), List.nil_append, List.map_id]

theorem Stands.readPlan (h : Stands D b rec rows) (pass : ℕ) :
    readPages (fun row : List String × ℕ => (row.2 : ℤ)) CHECKPOINT_PAGE_SIZE (rows.plans pass)
      PostgresSnapshotCheckpointStore.readPlanRow ((rows.plans pass).length + 1) (-1) [] =
        .ok ((rec.plans pass).getD []) := by
  rw [h.plans pass, readPages_numbered]
  exact readPlan_numbered (h.texts pass) []

/-- The chunks of a pass, in order: no two rows of a pass share an index. -/
theorem Stands.readChunks (h : Stands D b rec rows) (pass : ℕ) :
    readPages (fun row : ℕ × ℕ => (row.2 : ℤ)) CHECKPOINT_PAGE_SIZE
      (rows.chunks.filter fun row => row.1 = pass)
      (fun chunks row => do
        let chunk ← safeCount row.2 "stored chunk index"
        return chunks ++ [chunk]) ((rows.chunks.filter fun row => row.1 = pass).length + 1) (-1) [] =
      .ok ((rec.chunks.filterMap fun key =>
        (InMemorySnapshotStore.after? s!"{pass}:" key).map InMemorySnapshotStore.digitsValue).insertionSort
          (· ≤ ·)) := by
  have hkeys : (rec.chunks.filterMap fun key =>
      (InMemorySnapshotStore.after? s!"{pass}:" key).map InMemorySnapshotStore.digitsValue) =
        (rows.chunks.filter fun row => row.1 = pass).map (·.2) := by
    rw [h.chunks, List.filterMap_map, ← List.filterMap_eq_map', List.filterMap_filter]
    refine List.filterMap_congr fun c _ => (after?_chunkKey pass c).trans ?_
    simp only [decide_eq_true_eq]
  have hcounts : ∀ row ∈ rows.chunks.filter (fun row => row.1 = pass), row.2 ≤ 2147483647 :=
    fun row hrow => h.counts row (List.mem_filter.1 hrow).1
  have hmember : ∀ row ∈ rows.chunks.filter (fun row => row.1 = pass), row.1 = pass :=
    fun row hrow => by simpa using (List.mem_filter.1 hrow).2
  have hnodup := h.positions.filter fun row => row.1 = pass
  rw [hkeys]
  generalize rows.chunks.filter (fun row => row.1 = pass) = chunks at hcounts hmember hnodup ⊢
  have hindexes : (chunks.map fun row => (row.2 : ℤ)).Nodup := by
    refine hnodup.map_on fun c hc c' hc' heq => ?_
    exact Prod.ext ((hmember c hc).trans (hmember c' hc').symm) (Int.ofNat.inj heq)
  have hperm : (byKey (fun row : ℕ × ℕ => (row.2 : ℤ)) chunks).Perm chunks := perm_byKey _
  have hsafe : ∀ row ∈ byKey (fun row : ℕ × ℕ => (row.2 : ℤ)) chunks,
      safeCount row.2 "stored chunk index" = .ok row.2 := by
    intro row hrow
    have hle := hcounts row (hperm.mem_iff.1 hrow)
    unfold safeCount
    rw [if_neg (by omega)]
  rw [readPages_eq (by decide) hindexes (fun row _ => by omega), foldlM_collect hsafe, List.nil_append]
  congr 1
  have hstrict : (byKey (fun row : ℕ × ℕ => (row.2 : ℤ)) chunks).Pairwise fun a b =>
      (a.2 : ℤ) < b.2 := pairwise_byKey hindexes
  have hsorted : ((byKey (fun row : ℕ × ℕ => (row.2 : ℤ)) chunks).map (·.2)).Pairwise (· ≤ ·) :=
    List.pairwise_map.2 (hstrict.imp fun hlt => by omega)
  have hsame : ((byKey (fun row : ℕ × ℕ => (row.2 : ℤ)) chunks).map (·.2)).Perm
      ((chunks.map (·.2)).insertionSort (· ≤ ·)) :=
    (hperm.map _).trans (List.perm_insertionSort _ _).symm
  exact hsame.eq_of_pairwise (fun _ _ _ _ hle hge => le_antisymm hle hge) hsorted
    (List.pairwise_insertionSort _ _)

end Answers

end CatalogSentinel.Checkpoint
