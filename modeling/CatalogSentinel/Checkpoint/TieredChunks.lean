import Mathlib.Data.List.Perm.Subperm
import CatalogSentinel.Checkpoint.Ensures

/-!
Completed chunks in both tiers. The rows are read page by page while others insert: what was there
is not missed. Redis is told of durable chunks only, so a set in it of as many chunks as were
counted misses no more than were marked meanwhile.
-/

namespace CatalogSentinel.Checkpoint.Commands

open CatalogSentinel.Data CatalogSentinel.Concurrent CatalogSentinel.Distrokid

variable {D : DashboardPlatform} {dep : Deployment} {pages : ℕ} {t : Request} {α β : Type}
  {F : Committed → Prop} {s : String} {pass : ℕ} {floor : List ℕ}

/-! ### Completed chunks -/

/-- A list of completed chunks that misses none of the floor. -/
structure Complete (s : String) (pass : ℕ) (floor : List ℕ) (cs : List ℕ) (rows : Committed) : Prop where
  sorted : cs.Pairwise (· < ·)
  durable : ∀ i ∈ cs, i ∈ passChunks (rows s) pass
  floor : ∀ i ∈ floor, i ∈ cs

/-- The same of what was read up to a chunk. -/
structure UpTo (s : String) (pass : ℕ) (floor : List ℕ) (after : ℤ) (cs : List ℕ) (rows : Committed) : Prop where
  sorted : cs.Pairwise (· < ·)
  durable : ∀ i ∈ cs, i ∈ passChunks (rows s) pass
  bounded : ∀ i ∈ cs, (i : ℤ) ≤ after
  floor : ∀ i ∈ floor, (i : ℤ) ≤ after → i ∈ cs

/-- A page of the chunks after the last one that was read. -/
structure Page (s : String) (pass : ℕ) (floor : List ℕ) (after : ℤ) (cs : List ℕ) (rows : Committed) : Prop where
  sorted : cs.Pairwise (· < ·)
  durable : ∀ i ∈ cs, i ∈ passChunks (rows s) pass
  later : ∀ i ∈ cs, after < (i : ℤ)
  upTo : ∀ i ∈ floor, after < (i : ℤ) → ∀ last, cs.getLast? = some last → i ≤ last → i ∈ cs
  short : ∀ i ∈ floor, after < (i : ℤ) → cs.length < CHECKPOINT_PAGE_SIZE → i ∈ cs

instance (cs : List ℕ) : Persists (Complete s pass floor cs) :=
  ⟨fun _ _ h hc => ⟨hc.sorted, fun i hi => ((h s).passChunks pass).subset (hc.durable i hi), hc.floor⟩⟩

instance (after : ℤ) (cs : List ℕ) : Persists (UpTo s pass floor after cs) :=
  ⟨fun _ _ h hc =>
    ⟨hc.sorted, fun i hi => ((h s).passChunks pass).subset (hc.durable i hi), hc.bounded, hc.floor⟩⟩

instance (after : ℤ) (cs : List ℕ) : Persists (Page s pass floor after cs) :=
  ⟨fun _ _ h hc =>
    ⟨hc.sorted, fun i hi => ((h s).passChunks pass).subset (hc.durable i hi), hc.later, hc.upTo, hc.short⟩⟩

theorem ensures_selectChunks {b : SnapshotCheckpointBinding} (after : ℤ) :
    Ensures D dep pages t (fun rows => Bound s b rows ∧ ∀ i ∈ floor, i ∈ passChunks (rows s) pass)
      (sql (.selectChunks b pass after) : Store (List ℕ)) (Page s pass floor after) := by
  refine ensures_sql trivial ?_
  intro d d' cs asked hd hF hrun
  simp only [SqlOp.perform] at hrun
  split at hrun
  · cases hrun
  · rename_i passColumn hcolumn
    cases hrun
    obtain ⟨rfl, -⟩ := pgCount_ok.1 hcolumn
    rw [hF.1.rowOf]
    have hnodup : (passChunks (d.rows s) passColumn).Nodup := nodup_passChunks (hd.rows s) passColumn
    have hkeys : ((passChunks (d.rows s) passColumn).map fun row => ((id row : ℕ) : ℤ)).Nodup :=
      hnodup.map fun i j h => by simpa using h
    refine ⟨?_, fun i hi => (mem_page hi).1, fun i hi => (mem_page hi).2, ?_, ?_⟩
    · exact (pairwise_page hkeys after).imp fun h => by simpa using h
    · intro i hi hafter last hlast hle
      exact mem_page_of_le hkeys (hF.2 i hi) hafter hlast (by simpa using hle)
    · intro i hi hafter hshort
      exact mem_page_of_short (hF.2 i hi) hafter hshort

theorem safeCount_same {name : String} {n n' : ℕ} (h : safeCount n name = .ok n') : n' = n := by
  unfold safeCount at h
  split at h
  · cases h
  · exact (Except.ok.inj h).symm

theorem foldlM_safeCount {name : String} {cs acc acc' : List ℕ}
    (h : (cs.foldlM (fun chunks row => do let chunk ← safeCount row name; return chunks ++ [chunk]) acc :
      Checked (List ℕ)) = .ok acc') : acc' = acc ++ cs := by
  induction cs generalizing acc with
  | nil =>
    cases h
    simp
  | cons i cs ih =>
    rw [List.foldlM_cons] at h
    obtain ⟨next, hnext, h⟩ := bind_ok.1 h
    obtain ⟨chunk, hchunk, hnext⟩ := bind_ok.1 hnext
    cases hnext
    have hsame : chunk = i := safeCount_same hchunk
    rw [ih h, hsame]
    simp

theorem UpTo.page {after : ℤ} {cs page : List ℕ} {rows : Committed} {last : ℕ}
    (h : UpTo s pass floor after cs rows) (hpage : Page s pass floor after page rows)
    (hlast : page.getLast? = some last) : UpTo s pass floor last (cs ++ page) rows := by
  have hle : ∀ i ∈ page, i ≤ last := by
    obtain ⟨front, hfront⟩ := List.getLast?_eq_some_iff.1 hlast
    have hsorted := hpage.sorted
    rw [hfront] at hsorted
    intro i hi
    rw [hfront] at hi
    rcases List.mem_append.1 hi with hi | hi
    · exact ((List.pairwise_append.1 hsorted).2.2 i hi last (by simp)).le
    · exact (List.mem_singleton.1 hi).le
  have hafter : after < (last : ℤ) := hpage.later last (List.mem_of_getLast? hlast)
  refine ⟨?_, ?_, ?_, ?_⟩
  · refine List.pairwise_append.2 ⟨h.sorted, hpage.sorted, fun i hi j hj => ?_⟩
    have hi' := h.bounded i hi
    have hj' := hpage.later j hj
    omega
  · intro i hi
    exact (List.mem_append.1 hi).elim (h.durable i) (hpage.durable i)
  · intro i hi
    rcases List.mem_append.1 hi with hi | hi
    · have hi' := h.bounded i hi
      omega
    · exact_mod_cast hle i hi
  · intro i hi hbound
    rcases le_or_gt (i : ℤ) after with hbefore | hlater
    · exact List.mem_append_left _ (h.floor i hi hbefore)
    · exact List.mem_append_right _ (hpage.upTo i hi hlater last hlast (by exact_mod_cast hbound))

theorem UpTo.complete {after : ℤ} {cs page : List ℕ} {rows : Committed}
    (h : UpTo s pass floor after cs rows) (hpage : Page s pass floor after page rows)
    (hshort : page.length < CHECKPOINT_PAGE_SIZE) : Complete s pass floor (cs ++ page) rows := by
  refine ⟨?_, ?_, ?_⟩
  · refine List.pairwise_append.2 ⟨h.sorted, hpage.sorted, fun i hi j hj => ?_⟩
    have hi' := h.bounded i hi
    have hj' := hpage.later j hj
    omega
  · intro i hi
    exact (List.mem_append.1 hi).elim (h.durable i) (hpage.durable i)
  · intro i hi
    rcases le_or_gt (i : ℤ) after with hbefore | hlater
    · exact List.mem_append_left _ (h.floor i hi hbefore)
    · exact List.mem_append_right _ (hpage.short i hi hlater hshort)

/-- A table that only grows is read page by page as if at once: what was there is not missed. -/
theorem ensures_readChunks {b : SnapshotCheckpointBinding} (fuel : ℕ) (after : ℤ)
    (acc : List ℕ) : Ensures D dep pages t
      (fun rows => (Bound s b rows ∧ ∀ i ∈ floor, i ∈ passChunks (rows s) pass) ∧
        UpTo s pass floor after acc rows)
      (Postgres.readPages (fun after => sql (.selectChunks b pass after)) (fun row : ℕ => (row : ℤ))
        (fun chunks row => do
          let chunk ← safeCount row "stored chunk index"
          return chunks ++ [chunk]) fuel after acc)
      (Complete s pass floor) := by
  induction fuel generalizing after acc with
  | zero => exact ensures_stall
  | succ fuel ih =>
    refine Ensures.bind ((ensures_selectChunks after).pre fun _ h => h.1) fun page => ?_
    refine ensures_check fun acc' hfold => ?_
    obtain rfl := foldlM_safeCount hfold
    dsimp only
    cases hlast : page.getLast? with
    | none =>
      have hnil : page = [] := List.getLast?_eq_none_iff.1 hlast
      exact ensures_ret fun rows h => h.2.2.complete h.1 (by simp [hnil, CHECKPOINT_PAGE_SIZE])
    | some last =>
      dsimp only
      split
      · rename_i hshort
        exact ensures_ret fun rows h => h.2.2.complete h.1 hshort
      · exact (ih last _).pre fun rows h => ⟨h.2.1, h.2.2.page h.1 hlast⟩

theorem chunkPass_same {pass' : ℕ} (h : PostgresSnapshotCheckpointStore.chunkPass pass = .ok pass') :
    pass' = pass := by
  obtain ⟨safePass, hsafe, h⟩ := bind_ok.1 h
  split at h
  · cases h
  · cases h
    exact safeCount_same hsafe

theorem ensures_durableChunks :
    Ensures D dep pages t (fun rows => ∀ i ∈ floor, i ∈ passChunks (rows s) pass)
      (Postgres.completedChunks pages s pass) (Complete s pass floor) := by
  refine (ensures_durableBinding s).bind fun b => ensures_check fun safePass hpass => ?_
  obtain rfl := chunkPass_same hpass
  have hread : Ensures D dep pages t _ _ (Complete s safePass floor) :=
    ensures_readChunks (b := b) pages (-1) []
  refine hread.pre fun rows h => ⟨h, List.Pairwise.nil, by simp, by simp, fun i _ hi => ?_⟩
  omega

/-- A number of chunks that is not more than those that are complete. -/
def AtMost (s : String) (pass n : ℕ) (rows : Committed) : Prop := n ≤ (passChunks (rows s) pass).length

instance (n : ℕ) : Persists (AtMost s pass n) :=
  ⟨fun _ _ h hn => hn.trans ((h s).passChunks pass).length_le⟩

theorem ensures_completedChunkCount (least : ℕ) :
    Ensures D dep pages t (AtMost s pass least) (Postgres.completedChunkCount s pass)
      fun n rows => least ≤ n ∧ AtMost s pass n rows := by
  refine (ensures_durableBinding s).bind fun b => ensures_check fun safePass hpass => ?_
  obtain rfl := chunkPass_same hpass
  refine ensures_sql trivial ?_
  intro d d' n asked hd hF hrun
  simp only [SqlOp.perform] at hrun
  split at hrun
  · cases hrun
  · rename_i passColumn hcolumn
    cases hrun
    obtain ⟨rfl, -⟩ := pgCount_ok.1 hcolumn
    rw [hF.1.rowOf]
    exact ⟨hF.2, le_refl _⟩

theorem ensures_durableMark [Persists F] (s : String) (pass i : ℕ) :
    Ensures D dep pages t F (Postgres.markChunkComplete s pass i)
      fun _ rows => i ∈ passChunks (rows s) pass := by
  refine (ensures_durableBinding s).bind fun b =>
    ensures_check fun safePass hpass => ensures_check fun safeChunk hchunk => ?_
  obtain rfl := chunkPass_same hpass
  obtain rfl := safeCount_same hchunk
  refine ensures_of_known (b.snapshotId = s) (fun rows h => h.1.1) fun hb => ?_
  refine ensures_transaction (φ := fun _ r => (safePass, safeChunk) ∈ r.chunks) ?_
    fun _ rows r hr hmem => by rw [hr]; exact mem_passChunks.2 hmem
  refine Contract.Triple.bind (triple_lock (F := fun rows => Bound s b rows ∧ F rows) fun _ h => h.1) fun _ => ?_
  refine Contract.Triple.bind (Q := fun _ => Locked t s fun r => (safePass, safeChunk) ∈ r.chunks)
    (triple_execute (fun _ _ _ _ _ _ => trivial) fun r a r' _ hrun => ?_) fun inserted => ?_
  · obtain ⟨passColumn, hpassColumn, hrun⟩ := bind_ok.1 hrun
    obtain ⟨chunkColumn, hchunkColumn, hrun⟩ := bind_ok.1 hrun
    obtain ⟨rfl, -⟩ := pgCount_ok.1 hpassColumn
    obtain ⟨rfl, -⟩ := pgCount_ok.1 hchunkColumn
    cases hrun
    exact mem_addOnce.2 (.inr rfl)
  · cases inserted with
    | true => exact triple_bumpVersion hb fun _ _ h => h
    | false => exact Contract.triple_ret stable_locked fun _ _ h => h

/-! ### Redis -/

theorem ensures_hotMark (s : String) (pass i : ℕ) :
    Ensures D dep pages t (fun rows => i ∈ passChunks (rows s) pass) (Hot.markChunkComplete s pass i)
      fun _ _ => True := by
  refine Ensures.bind (G := fun _ _ => True) (ensures_redis (fun _ _ hc hi => hc.sadd hi)
    fun _ _ _ _ _ _ => trivial) fun _ => ?_
  exact ensures_of_plain (plain_redis trivial)

theorem ensures_markChunks (s : String) (pass : ℕ) (cs : List ℕ) :
    Ensures D dep pages t (fun rows => ∀ i ∈ cs, i ∈ passChunks (rows s) pass) (Hot.markChunks s pass cs)
      fun _ _ => True := by
  induction cs with
  | nil => exact ensures_ret fun _ _ => trivial
  | cons i cs ih =>
    refine Ensures.bind ((ensures_hotMark s pass i).pre fun rows h => h i List.mem_cons_self) fun _ => ?_
    exact ih.pre fun rows h j hj => h.2 j (List.mem_cons_of_mem i hj)

theorem ensures_replaceChunks (s : String) (pass : ℕ) (cs : List ℕ) :
    Ensures D dep pages t (fun rows => ∀ i ∈ cs, i ∈ passChunks (rows s) pass)
      (Hot.replaceCompletedChunks s pass cs) fun _ _ => True :=
  .bind (ensures_of_plain (plain_redis trivial)) fun _ =>
    (ensures_markChunks s pass cs).pre fun _ h => h.2

/-! ### The calls on chunks -/

theorem ensures_markChunkComplete [Persists F] (s : String) (pass i : ℕ) :
    Ensures D dep pages t F (markChunkComplete pages s pass i)
      fun _ rows => i ∈ passChunks (rows s) pass := by
  refine (ensures_binding s).bind fun b => (ensures_durableMark s pass i).bind fun _ => ?_
  refine ((ensures_completedChunkCount 0).pre fun _ _ => Nat.zero_le _).bind fun version => ?_
  have hread : (cacheRead (Hot.getVersion s (.chunks pass)) none).Calls Op.Plain :=
    calls_cacheRead (plain_redis trivial)
  refine (ensures_of_plain hread).bind fun hotVersion => ?_
  refine (Ensures.cacheWrite ?_).post fun _ rows h _ => h.2.2.1
  have hput : ∀ F : Committed → Prop,
      Ensures D dep pages t F (Hot.putVersion s (.chunks pass) version) fun _ _ => True :=
    fun F => ensures_of_plain (plain_redis trivial)
  by_cases hincremental : isIncremental hotVersion version
  · simp only [hincremental, if_true]
    exact ((ensures_hotMark s pass i).pre fun rows h => h.2.2.1).bind fun _ => hput _
  · simp only [hincremental]
    refine Ensures.bind (ensures_durableChunks.pre (F := fun rows => ∀ i ∈ [], i ∈ passChunks (rows s) pass)
      fun _ _ => by simp) fun cs => ?_
    exact ((ensures_replaceChunks s pass cs).pre fun rows h => h.1.durable).bind fun _ => hput _

/-- A list of completed chunks, of at least as many as there were. -/
structure Enough (s : String) (pass least : ℕ) (cs : List ℕ) (rows : Committed) : Prop where
  sorted : cs.Pairwise (· < ·)
  durable : ∀ i ∈ cs, i ∈ passChunks (rows s) pass
  least : least ≤ cs.length

instance (least : ℕ) (cs : List ℕ) : Persists (Enough s pass least cs) :=
  ⟨fun _ _ h hc => ⟨hc.sorted, fun i hi => ((h s).passChunks pass).subset (hc.durable i hi), hc.least⟩⟩

theorem ensures_hotChunks [Persists F] : Ensures D dep pages t F (Hot.completedChunks s pass)
    fun cached rows => cached.Pairwise (· < ·) ∧ ∀ i ∈ cached, i ∈ passChunks (rows s) pass := by
  have hread : Ensures D dep pages t F (redis (.smembers s pass) : Store (List ℕ))
      fun members rows => members.Nodup ∧ ∀ i ∈ members, i ∈ passChunks (rows s) pass :=
    ensures_redis (fun _ _ hc _ => hc) fun _ _ _ _ hc _ => hc.setOf s pass
  refine hread.bind fun (members : List ℕ) => ensures_ret fun rows h => ?_
  obtain ⟨⟨hnodup, hdurable⟩, -⟩ := h
  have hperm := List.perm_insertionSort (· ≤ ·) members
  refine ⟨?_, fun i hi => hdurable i (hperm.mem_iff.1 hi)⟩
  have hsorted : (members.insertionSort (· ≤ ·)).Pairwise (· ≤ ·) := List.pairwise_insertionSort _ members
  exact hsorted.imp₂ (fun _ _ hle hne => lt_of_le_of_ne hle hne) (hperm.nodup_iff.2 hnodup)

/-- A set in Redis that has as many chunks as were counted. -/
theorem ensures_cachedChunks [Persists F] {least count : ℕ} (hleast : least ≤ count) :
    Ensures D dep pages t F (cachedChunks s pass count)
      fun found rows => ∀ cs, found = some cs → Enough s pass least cs rows := by
  have hversion : Ensures D dep pages t F (Hot.getVersion s (.chunks pass)) fun _ _ => True :=
    ensures_of_plain (plain_redis trivial)
  refine hversion.bind fun hotVersion => ?_
  split
  · refine ensures_hotChunks.bind fun cached => ensures_ret fun rows h cs hcs => ?_
    split at hcs
    · rename_i hlength
      obtain rfl := Option.some.inj hcs
      exact ⟨h.1.1, h.1.2, hleast.trans hlength.ge⟩
    · cases hcs
  · exact ensures_ret fun rows _ cs hcs => by cases hcs

theorem ensures_completedChunks (began : Committed)
    (hbegan : ∀ pass, (passChunks (began s) pass).Nodup) :
    Ensures D dep pages t (fun rows => ∀ s, Ahead (began s) (rows s)) (completedChunks pages s pass)
      (Enough s pass (passChunks (began s) pass).length) := by
  refine (ensures_binding s).bind fun b => ?_
  refine ((ensures_completedChunkCount (passChunks (began s) pass).length).pre
    fun rows h => ((h.2 s).passChunks pass).length_le).bind fun count => ?_
  refine ensures_of_known _ (fun _ h => h.1.1) fun hle => ?_
  refine ((ensures_cachedChunks hle).cacheRead fun _ _ cs hcs => by cases hcs).bind fun found => ?_
  cases found with
  | some cached => exact ensures_ret fun rows h => h.1 cached rfl
  | none =>
    refine Ensures.bind (ensures_durableChunks.pre fun rows h i hi =>
      ((h.2.2.2 s).passChunks pass).subset hi) fun cs => ?_
    refine Ensures.bind (Ensures.cacheWrite ?_) fun _ => ensures_ret fun rows h => ?_
    · refine ((ensures_replaceChunks s pass cs).pre fun rows h => h.1.durable).bind fun _ => ?_
      exact ensures_of_plain (plain_redis trivial)
    · obtain ⟨-, hcs, -⟩ := h
      have hsub : passChunks (began s) pass ⊆ cs := hcs.floor
      exact ⟨hcs.sorted, hcs.durable, ((hbegan pass).subperm hsub).length_le⟩

end CatalogSentinel.Checkpoint.Commands
