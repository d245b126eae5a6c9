import CatalogSentinel.Search.Resume

/-!
Crashes and retries of the deep scan. What a scan makes of a record has a closed form,
which folds one store after the other. It comes out the same from every record that
the scan stores while a chunk is still to come, so it does not matter where the
attempts before were cut off.
-/

namespace CatalogSentinel.Search.DeepScan

/-! ### What a scan comes to -/

structure Outcome where
  done : List String
  failed : List (String × String)
  result : CatalogResult
  counters : List (String × ℕ)

section Outcome

variable (A : Resolver) (released : List ReleasedTrack)

/-- The result once a store is verified; it stays if every track is taken over. -/
def Outcome.verified (o : Outcome) (name : String) : CatalogResult :=
  if (List.range released.length).all fun i => (taken o.result.tracks o.counters name i).isSome then
    o.result
  else chunkResult name (full A released name) (A.warnings name) o.result

def settle (o : Outcome) (name : String) : Outcome :=
  match A.prepare name with
  | .error e => { o with failed := o.failed ++ [(name, e)] }
  | .ok _ =>
    { o with
      done := if name ∈ o.done then o.done else o.done ++ [name]
      result := o.verified A released name
      counters := setVerified o.counters name released.length }

variable {A released}

theorem settle_error {o : Outcome} {name e : String} (h : A.prepare name = .error e) :
    settle A released o name = { o with failed := o.failed ++ [(name, e)] } := by
  rw [settle, h]

theorem settle_ok {o : Outcome} {name : String} (h : A.prepare name = .ok ()) :
    settle A released o name =
      { o with
        done := if name ∈ o.done then o.done else o.done ++ [name]
        result := o.verified A released name
        counters := setVerified o.counters name released.length } := by
  rw [settle, h]

/-- Stores that fail once more only add to the failures. -/
theorem foldl_settle_failed {failed : List (String × String)}
    (h : ∀ f ∈ failed, A.prepare f.1 = .error f.2) (o : Outcome) :
    (failed.map Prod.fst).foldl (settle A released) o = { o with failed := o.failed ++ failed } := by
  induction failed generalizing o with
  | nil => simp
  | cons f failed ih =>
    rw [List.map_cons, List.foldl_cons, settle_error (h f List.mem_cons_self),
      ih fun g hg => h g (List.mem_cons_of_mem f hg)]
    simp

/-- A chunk that was stored before the store is verified makes no difference. -/
theorem settle_chunk {o : Outcome} {name : String} {p : PerTrack} {k : ℕ}
    (hprepare : A.prepare name = .ok ()) (hp : Below p (full A released name))
    (hcovered : ∀ i < k, (p i).isSome)
    (hopen : ∃ i < released.length, (taken o.result.tracks o.counters name i).isNone) :
    settle A released
      { o with
        result := chunkResult name p (A.warnings name) o.result
        counters := setVerified o.counters name k } name = settle A released o name := by
  have hresult : Outcome.verified A released
      { o with
        result := chunkResult name p (A.warnings name) o.result
        counters := setVerified o.counters name k } name = o.verified A released name := by
    have hnot : ¬ ((List.range released.length).all fun i =>
        (taken o.result.tracks o.counters name i).isSome) = true := by
      obtain ⟨i, hi, hnone⟩ := hopen
      intro hall
      have := List.all_eq_true.1 hall i (List.mem_range.2 hi)
      rw [Option.isNone_iff_eq_none] at hnone
      simp [hnone] at this
    simp only [Outcome.verified, if_neg hnot]
    split
    · rename_i hall
      have hfull : p = full A released name := by
        refine eq_full hp fun i hi => hcovered i ?_
        have hi' := lt_of_isSome_taken (List.all_eq_true.1 hall i (List.mem_range.2 hi))
        rw [count_setVerified, if_pos rfl] at hi'
        exact hi'
      rw [hfull]
    · exact chunkResult_grow hp name (A.warnings name) o.result
  rw [settle_ok hprepare, settle_ok hprepare, hresult, setVerified_setVerified]

/-- What is taken over for another store stays. -/
theorem taken_settle {o : Outcome} {name store : String} (h : store ≠ name) :
    taken (settle A released o name).result.tracks (settle A released o name).counters store =
      taken o.result.tracks o.counters store := by
  cases hp : A.prepare name with
  | error e => rw [settle_error hp]
  | ok u =>
    rw [settle_ok hp, taken_setVerified h]
    simp only [Outcome.verified]
    split
    · rfl
    · exact taken_mergeTracks h o.result.tracks o.counters (full A released name)

theorem settle_verified {o : Outcome} {name : String}
    (h : Verified A released o.result.tracks o.counters) (hne : released ≠ []) :
    Verified A released (settle A released o name).result.tracks
      (settle A released o name).counters := by
  cases hp : A.prepare name with
  | error e => rw [settle_error hp]; exact h
  | ok u =>
    rw [settle_ok hp]
    simp only [Outcome.verified]
    split
    · rename_i hall
      exact h.all hne fun i hi => List.all_eq_true.1 hall i (List.mem_range.2 hi)
    · refine h.chunk (Below.refl _) (le_refl _) fun i hi => ?_
      exact isSome_full hi

end Outcome

/-! ### Closed form -/

section Ending

variable (A : Resolver) (cfg : Config)

def opening (b : Scan) : Outcome := ⟨priorDone b.deepScan, [], b.result, verified b.deepScan⟩

def outcome (b : Scan) : Outcome :=
  (platformNames cfg.targets b.deepScan).foldl (settle A (releasedOf b)) (opening b)

/-- The record that a scan of all the tracks leaves. -/
def ending (b : Scan) : Scan :=
  { b with
    result := (outcome A cfg b).result
    deepScan := some
      { status := if (outcome A cfg b).failed ≠ [] then .error else .done
        platformsPending := (outcome A cfg b).failed.map Prod.fst
        platformsDone := (outcome A cfg b).done
        tracksScanned := some (releasedOf b).length
        platformTracksVerified := some (outcome A cfg b).counters
        error := if (outcome A cfg b).failed ≠ [] then
          some (failedMessage (outcome A cfg b).failed.length) else none } }

/-- The scan state counts only cells of the resolver, none unless the scan resumes, and
no store to scan is done. -/
structure Sound (b : Scan) : Prop where
  counted : Verified A (releasedOf b) b.result.tracks (verified b.deepScan)
  resumed : resumable b.deepScan = true ∨ verified b.deepScan = []
  undone : ∀ name ∈ platformNames cfg.targets b.deepScan, name ∉ priorDone b.deepScan

end Ending

/-! ### Records that resume a scan -/

theorem filter_mem_filter {l : List String} (p : String → Bool) :
    (l.filter fun x => x ∈ l.filter p) = l.filter p := by
  refine List.filter_congr fun x hx => ?_
  rw [Bool.eq_iff_iff, decide_eq_true_eq, List.mem_filter]
  exact and_iff_right hx

/-- The stores that are pending are the ones that a retry scans. -/
theorem platformNames_resumed {targets names pending : List String}
    {deepScan : Option DeepScanState} {state : DeepScanState} {p : String → Bool}
    (hnames : names = platformNames targets deepScan) (hpending : pending = names.filter p)
    (hstate : state.platformsPending = pending) (hne : pending ≠ [])
    (hstatus : state.status ∈ [.queued, .running, .error]) :
    platformNames targets (some state) = pending := by
  have hresumable : resumable (some state) = true := by
    rw [resumable, hstate]
    exact decide_eq_true ⟨hstatus, hne⟩
  rw [platformNames, hresumable, if_pos rfl, Option.map_some, Option.getD_some, hstate]
  simp only [if_pos hne]
  rw [hpending, hnames, platformNames, List.filter_filter]
  exact filter_mem_filter _

section Resumes

variable (A : Resolver) (cfg : Config) (origin : Scan)

/-- A scan of the record ends as one of the original record does. -/
structure Resumes (b : Scan) : Prop where
  sound : Sound A cfg b
  names : platformNames cfg.targets b.deepScan ≠ []
  list : releasedOf b = releasedOf origin
  ends : ending A cfg b = ending A cfg origin

variable {A cfg origin}

theorem resumes_of {b : Scan} {o : Outcome} {rest : List String} {state : DeepScanState}
    (hstate : b.deepScan = some state) (hstatus : state.status ∈ [.queued, .running, .error])
    (hpending : state.platformsPending = o.failed.map Prod.fst ++ rest)
    (hdone : state.platformsDone = o.done)
    (hcounters : state.platformTracksVerified.getD [] = o.counters) (hresult : b.result = o.result)
    (hnames : o.failed.map Prod.fst ++ rest =
      (platformNames cfg.targets origin.deepScan).filter (· ∉ o.done))
    (hne : o.failed.map Prod.fst ++ rest ≠ [])
    (hfailed : ∀ f ∈ o.failed, A.prepare f.1 = .error f.2)
    (hcounted : Verified A (releasedOf origin) o.result.tracks o.counters)
    (hartist : b.artist = origin.artist) (hreleased : b.released = origin.released)
    (hreleasedOf : releasedOf b = releasedOf origin)
    (hahead : rest.foldl (settle A (releasedOf origin)) o = outcome A cfg origin) :
    Resumes A cfg origin b := by
  have hplatforms : platformNames cfg.targets b.deepScan = o.failed.map Prod.fst ++ rest := by
    rw [hstate]
    exact platformNames_resumed rfl hnames hpending hne hstatus
  have hverified : verified b.deepScan = o.counters := by
    rw [hstate]
    exact hcounters
  have hprior : priorDone b.deepScan = o.done := by
    rw [hstate]
    exact hdone
  have hopening : opening b = { o with failed := [] } := by
    rw [opening, hverified, hprior, hresult]
  have houtcome : outcome A cfg b = outcome A cfg origin := by
    rw [outcome, hplatforms, hopening, hreleasedOf, List.foldl_append, foldl_settle_failed hfailed,
      List.nil_append]
    exact hahead
  refine ⟨⟨?_, ?_, ?_⟩, ?_, hreleasedOf, ?_⟩
  · rw [hreleasedOf, hverified, hresult]
    exact hcounted
  · refine .inl ?_
    rw [hstate, resumable, hpending]
    exact decide_eq_true ⟨hstatus, hne⟩
  · rw [hplatforms, hprior, hnames]
    intro name hname
    simpa using (List.mem_filter.1 hname).2
  · rw [hplatforms]
    exact hne
  · unfold ending
    rw [houtcome, hreleasedOf, hartist, hreleased]

end Resumes

/-! ### Between the stores -/

section Stage

variable (A : Resolver) (cfg : Config) (origin b : Scan) (o : Outcome) (rest : List String)

/-- The scan of the original record is about to turn to the rest of the stores. -/
structure Stage : Prop where
  artist : b.artist = origin.artist
  released : b.released = origin.released
  list : releasedOf b = releasedOf origin
  state : ∃ counters, b.deepScan = some
    { status := .running
      platformsPending := o.failed.map Prod.fst ++ rest
      platformsDone := o.done
      tracksScanned := some (releasedOf origin).length
      platformTracksVerified := counters } ∧ counters.getD [] = o.counters ∧
    (rest = [] → counters = some o.counters)
  result : b.result = o.result
  pending : o.failed.map Prod.fst ++ rest =
    (platformNames cfg.targets origin.deepScan).filter (· ∉ o.done)
  failed : ∀ f ∈ o.failed, A.prepare f.1 = .error f.2
  counted : Verified A (releasedOf origin) o.result.tracks o.counters
  ahead : rest.foldl (settle A (releasedOf origin)) o = outcome A cfg origin
  takes : ∀ name ∈ rest, persisted origin name = taken o.result.tracks o.counters name

variable {A cfg origin b o rest}

theorem Stage.counters_eq (h : Stage A cfg origin b o rest) : verified b.deepScan = o.counters := by
  obtain ⟨counters, hstate, hcounters, -⟩ := h.state
  rw [hstate]
  exact hcounters

theorem Stage.resumes (h : Stage A cfg origin b o rest) (hne : rest ≠ []) :
    Resumes A cfg origin b := by
  obtain ⟨counters, hstate, hcounters, -⟩ := h.state
  exact resumes_of hstate (by simp) rfl rfl hcounters h.result h.pending (by simp [hne]) h.failed
    h.counted h.artist h.released h.list h.ahead

theorem Stage.checked (h : Stage A cfg origin b o rest) :
    Verified A (releasedOf b) b.result.tracks (verified b.deepScan) := by
  rw [h.list, h.result, h.counters_eq]
  exact h.counted

/-- The first state of a scan of all the tracks. -/
theorem stage_running (h : Sound A cfg origin) (hne : platformNames cfg.targets origin.deepScan ≠ []) :
    Stage A cfg origin ((Mutation.running (platformNames cfg.targets origin.deepScan)
      (priorDone origin.deepScan) (releasedOf origin).length).apply origin) (opening origin)
      (platformNames cfg.targets origin.deepScan) where
  artist := rfl
  released := rfl
  list := rfl
  state := ⟨origin.deepScan.bind DeepScanState.platformTracksVerified, rfl, rfl,
    fun hnil => absurd hnil hne⟩
  result := rfl
  pending := by
    refine (List.filter_eq_self.2 fun name hname => ?_).symm
    exact decide_eq_true (h.undone name hname)
  failed := fun f hf => by cases hf
  counted := h.counted
  ahead := rfl
  takes := fun name _ => persisted_eq_taken h.resumed name

end Stage

/-! ### Between the chunks -/

def Mutation.isChunk : Mutation → Bool
  | .chunk _ _ _ _ => true
  | _ => false

section Fares

variable (A : Resolver) (cfg : Config) (origin : Scan)

/-- What holds of a record that the scan of the original one has stored, with these
mutations still to come. -/
structure Fares (b : Scan) (later : List Mutation) : Prop where
  counted : Verified A (releasedOf b) b.result.tracks (verified b.deepScan)
  crashed : later.any Mutation.isChunk → Resumes A cfg origin b
  ended : later = [] → b = ending A cfg origin ∧
    ((outcome A cfg origin).failed ≠ [] → Resumes A cfg origin b)

/-- It holds of every record that these mutations store, one after the other. -/
def Along (b : Scan) (ms : List Mutation) : Prop :=
  ∀ pre later, ms = pre ++ later → Fares A cfg origin (pre.foldl Mutation.apply b) later

variable {A cfg origin} {b : Scan} {ms : List Mutation}

theorem along_nil (h : Fares A cfg origin b []) : Along A cfg origin b [] := by
  intro pre later hms
  obtain ⟨rfl, rfl⟩ := List.nil_eq_append_iff.1 hms
  exact h

theorem along_cons {m : Mutation} (h : Fares A cfg origin b (m :: ms))
    (hms : Along A cfg origin (m.apply b) ms) : Along A cfg origin b (m :: ms) := by
  intro pre later hcons
  cases pre with
  | nil =>
    obtain rfl : m :: ms = later := hcons
    exact h
  | cons m' pre =>
    obtain ⟨rfl, rfl⟩ := List.cons.inj hcons
    exact hms pre later rfl

theorem Resumes.fares (h : Resumes A cfg origin b) (hne : ms ≠ []) : Fares A cfg origin b ms :=
  ⟨h.sound.counted, fun _ => h, fun hnil => absurd hnil hne⟩

end Fares

section Chunks

variable (A : Resolver) (base b : Scan) (released : List ReleasedTrack) (name : String)
  (p : PerTrack)

/-- How far the record has come since the scan turned to the store: it is still as it
was then, or it has one chunk more, which says all that the ones before it said. -/
inductive Partway : Prop
  | entered (record : b = base) (verdicts : p = taken base.result.tracks (verified base.deepScan) name)
  | stored (k : ℕ) (record : b = (Mutation.chunk name p (A.warnings name) k).apply base)
      (le : k ≤ released.length) (covered : ∀ i < k, (p i).isSome)
      (untaken : ∃ i < released.length,
        (taken base.result.tracks (verified base.deepScan) name i).isNone)

variable {A base b released name p}

theorem apply_chunk_chunk {q : PerTrack} (h : Below p q) (warnings : List String) (k k' : ℕ)
    (r : Scan) : (Mutation.chunk name q warnings k').apply
      ((Mutation.chunk name p warnings k).apply r) = (Mutation.chunk name q warnings k').apply r := by
  have hresult := chunkResult_grow h name warnings r.result
  obtain ⟨artist, rel, result, deepScan⟩ := r
  cases deepScan with
  | none => exact congrArg (fun x => (⟨artist, rel, x, none⟩ : Scan)) hresult
  | some state =>
    have hcounters : setVerified (setVerified (verified (some state)) name k) name k' =
        setVerified (verified (some state)) name k' := setVerified_setVerified _ _ _ _
    exact congrArg₂ (fun x c => (⟨artist, rel, x,
      some { state with platformTracksVerified := some c }⟩ : Scan)) hresult hcounters

theorem below_cover {chunk : List ℕ} (h : Below p (full A released name)) :
    Below p (cover A released name chunk p) := by
  intro i v hv
  unfold cover
  split
  · exact h i v hv
  · exact hv

theorem cover_below {chunk : List ℕ} (h : Below p (full A released name)) :
    Below (cover A released name chunk p) (full A released name) := by
  intro i v hv
  unfold cover at hv
  split at hv
  · exact hv
  · exact h i v hv

theorem isSome_cover {chunk : List ℕ} {i : ℕ} (hi : i < released.length)
    (h : (p i).isSome ∨ i ∈ chunk) : (cover A released name chunk p i).isSome := by
  unfold cover
  split
  · exact isSome_full hi
  · rename_i hmem
    exact h.resolve_right hmem

/-- One more chunk. -/
theorem Partway.chunk {before after : List (List ℕ)} {chunk : List ℕ} {size : ℕ}
    (h : Partway A base b released name p) (hp : Below p (full A released name))
    (hplan : planChunks released.length size = before ++ chunk :: after)
    (hcovered : ∀ i ∈ before.flatten, (p i).isSome)
    (hopen : ¬ (chunk.all fun i => (p i).isSome) = true) :
    Partway A base ((Mutation.chunk name (cover A released name chunk p) (A.warnings name)
      (chunk.foldr max 0 + 1)).apply b) released name (cover A released name chunk p) := by
  have hmem : ∀ i ∈ chunk, i < released.length := fun i hi =>
    by
    have hchunk : chunk ∈ planChunks released.length size := by
      rw [hplan]
      simp
    exact lt_of_mem_planChunks hchunk hi
  obtain ⟨j, hj, hnone⟩ : ∃ j ∈ chunk, ¬ (p j).isSome = true := by
    simpa [List.all_eq_true] using hopen
  have hne : chunk ≠ [] := List.ne_nil_of_mem hj
  have hle : chunk.foldr max 0 + 1 ≤ released.length := hmem _ (foldr_max_mem hne)
  have hall : ∀ i < chunk.foldr max 0 + 1, (cover A released name chunk p i).isSome := by
    intro i hi
    have hreached := mem_of_lt_planChunks hplan hne hi
    rw [List.flatten_append, List.mem_append] at hreached
    refine isSome_cover (by omega) (hreached.imp (hcovered i) fun h => ?_)
    simpa using h
  cases h with
  | entered hb hverdicts =>
    rw [hb]
    refine .stored _ rfl hle hall ⟨j, hmem j hj, ?_⟩
    rw [← hverdicts]
    simpa using hnone
  | stored k hb hk hcov huntaken =>
    rw [hb, apply_chunk_chunk (below_cover hp)]
    exact .stored _ rfl hle hall huntaken

end Chunks

section Store

variable {A : Resolver} {cfg : Config} {origin base b : Scan} {o : Outcome} {name : String}
  {rest : List String} {p : PerTrack}

theorem Partway.resumes (h : Partway A base b (releasedOf origin) name p)
    (hbase : Stage A cfg origin base o (name :: rest)) (hprepare : A.prepare name = .ok ())
    (hp : Below p (full A (releasedOf origin) name)) : Resumes A cfg origin b := by
  cases h with
  | entered hb _ =>
    rw [hb]
    exact hbase.resumes (List.cons_ne_nil _ _)
  | stored k hb hk hcovered huntaken =>
    obtain ⟨counters, hstate, hcounters, -⟩ := hbase.state
    have hverified : verified base.deepScan = o.counters := hbase.counters_eq
    have hchunk : b.deepScan = some
        { status := .running
          platformsPending := o.failed.map Prod.fst ++ name :: rest
          platformsDone := o.done
          tracksScanned := some (releasedOf origin).length
          platformTracksVerified := some (setVerified o.counters name k) } := by
      rw [hb, ← hverified]
      simp only [Mutation.apply, hstate, Option.map_some]
    have hresult : b.result = chunkResult name p (A.warnings name) o.result := by
      rw [hb, ← hbase.result]
      rfl
    rw [hbase.result, hverified] at huntaken
    have hahead : (name :: rest).foldl (settle A (releasedOf origin))
        { o with
          result := chunkResult name p (A.warnings name) o.result
          counters := setVerified o.counters name k } = outcome A cfg origin := by
      rw [List.foldl_cons, settle_chunk hprepare hp hcovered huntaken]
      exact hbase.ahead
    refine resumes_of (o := ⟨o.done, o.failed, chunkResult name p (A.warnings name) o.result,
      setVerified o.counters name k⟩) hchunk (by simp) rfl rfl rfl hresult hbase.pending (by simp)
      hbase.failed (hbase.counted.chunk hp hk hcovered) ?_ ?_ ?_ hahead
    · rw [hb, apply_artist, hbase.artist]
    · rw [hb, apply_released, hbase.released]
    · rw [hb, apply_releasedOf, hbase.list]

/-- Along the chunks of a store. -/
theorem along_chunks {chunks before : List (List ℕ)} {size : ℕ} {tail : List Mutation}
    (hbase : Stage A cfg origin base o (name :: rest)) (hprepare : A.prepare name = .ok ())
    (hplan : planChunks (releasedOf origin).length size = before ++ chunks)
    (hpart : Partway A base b (releasedOf origin) name p)
    (hp : Below p (full A (releasedOf origin) name)) (hcovered : ∀ i ∈ before.flatten, (p i).isSome)
    (hend : ∀ b', Partway A base b' (releasedOf origin) name
      (full A (releasedOf origin) name) → Along A cfg origin b' tail) :
    Along A cfg origin b ((chunkMutations A (releasedOf origin) name chunks p).1 ++ tail) := by
  induction chunks generalizing b p before with
  | nil =>
    refine hend b ?_
    rw [← eq_full hp fun i hi => hcovered i ?_]
    · exact hpart
    · rw [List.append_nil] at hplan
      rw [← hplan, planChunks_flatten]
      exact List.mem_range.2 hi
  | cons chunk chunks ih =>
    have hplan' : planChunks (releasedOf origin).length size = (before ++ [chunk]) ++ chunks := by
      rw [hplan, List.append_assoc, List.singleton_append]
    have hflatten : (before ++ [chunk]).flatten = before.flatten ++ chunk := by simp
    rw [chunkMutations]
    split
    · rename_i hall
      refine ih hplan' hpart hp fun i hi => ?_
      rw [hflatten, List.mem_append] at hi
      exact hi.elim (hcovered i) (List.all_eq_true.1 hall i)
    · rename_i hopen
      have hnext := hpart.chunk hp hplan hcovered hopen
      refine along_cons ((hpart.resumes hbase hprepare hp).fares (List.cons_ne_nil _ _)) ?_
      refine ih hplan' hnext (cover_below hp) fun i hi => ?_
      have hlt : i < (releasedOf origin).length := by
        have hi' : i ∈ (planChunks (releasedOf origin).length size).flatten := by
          rw [hplan', List.flatten_append]
          exact List.mem_append_left _ hi
        rwa [planChunks_flatten, List.mem_range] at hi'
      rw [hflatten, List.mem_append] at hi
      exact isSome_cover hlt (hi.imp_left (hcovered i))

end Store

/-! ### From store to store -/

section Stores

variable {A : Resolver} {cfg : Config} {origin base b : Scan} {o : Outcome} {name : String}
  {rest : List String}

theorem Stage.notMem_done (h : Stage A cfg origin b o (name :: rest)) : name ∉ o.done := by
  have hmem : name ∈ o.failed.map Prod.fst ++ name :: rest := by simp
  rw [h.pending, List.mem_filter] at hmem
  exact of_decide_eq_true hmem.2

theorem Stage.nodup (h : Stage A cfg origin b o rest) (hnodup : cfg.targets.Nodup) :
    (o.failed.map Prod.fst ++ rest).Nodup := by
  rw [h.pending]
  exact (hnodup.filter _).filter _

/-- The record after the next store is settled. -/
theorem Stage.settled (h : Stage A cfg origin base o (name :: rest)) (hnodup : cfg.targets.Nodup)
    (hne : releasedOf origin ≠ []) (hartist : b.artist = base.artist)
    (hreleased : b.released = base.released) (hreleasedOf : releasedOf b = releasedOf base)
    (hstate : b.deepScan = some
      { status := .running
        platformsPending := (settle A (releasedOf origin) o name).failed.map Prod.fst ++ rest
        platformsDone := (settle A (releasedOf origin) o name).done
        tracksScanned := some (releasedOf origin).length
        platformTracksVerified := some (settle A (releasedOf origin) o name).counters })
    (hresult : b.result = (settle A (releasedOf origin) o name).result)
    (hpending : (settle A (releasedOf origin) o name).failed.map Prod.fst ++ rest =
      (platformNames cfg.targets origin.deepScan).filter
        (· ∉ (settle A (releasedOf origin) o name).done))
    (hfailed : ∀ f ∈ (settle A (releasedOf origin) o name).failed, A.prepare f.1 = .error f.2) :
    Stage A cfg origin b (settle A (releasedOf origin) o name) rest where
  artist := hartist.trans h.artist
  released := hreleased.trans h.released
  list := hreleasedOf.trans h.list
  state := ⟨_, hstate, rfl, fun _ => rfl⟩
  result := hresult
  pending := hpending
  failed := hfailed
  counted := settle_verified h.counted hne
  ahead := h.ahead
  takes := by
    intro store hstore
    have hne' : store ≠ name := by
      have hrest := (List.nodup_append.1 (h.nodup hnodup)).2.1
      rintro rfl
      exact (List.nodup_cons.1 hrest).1 hstore
    rw [taken_settle hne']
    exact h.takes store (List.mem_cons_of_mem name hstore)

theorem Stage.fails {e : String} (h : Stage A cfg origin b o (name :: rest))
    (hnodup : cfg.targets.Nodup) (hne : releasedOf origin ≠ []) (hprepare : A.prepare name = .error e) :
    Stage A cfg origin ((Mutation.platform name (platformNames cfg.targets origin.deepScan) o.done
      (releasedOf origin).length (releasedOf origin).length).apply b)
      (settle A (releasedOf origin) o name) rest := by
  have hpending : (o.failed ++ [(name, e)]).map Prod.fst ++ rest =
      (platformNames cfg.targets origin.deepScan).filter (· ∉ o.done) := by
    rw [← h.pending]
    simp
  have hsettle : settle A (releasedOf origin) o name =
      { o with failed := o.failed ++ [(name, e)] } := settle_error hprepare
  have herror : b.deepScan.bind DeepScanState.error = none := by
    obtain ⟨counters, hstate, -⟩ := h.state
    rw [hstate]
    rfl
  refine h.settled hnodup hne rfl rfl (apply_releasedOf _ _) ?_ ?_ ?_ ?_
  · rw [hsettle]
    simp only [Mutation.apply, herror, h.counters_eq, if_neg h.notMem_done, hpending]
  · rw [hsettle]
    exact h.result
  · rw [hsettle]
    exact hpending
  · rw [hsettle]
    intro f hf
    rcases List.mem_append.1 hf with hf | hf
    · exact h.failed f hf
    · rw [List.mem_singleton.1 hf]
      exact hprepare

theorem Stage.verifies (h : Stage A cfg origin base o (name :: rest)) (hnodup : cfg.targets.Nodup)
    (hne : releasedOf origin ≠ []) (hprepare : A.prepare name = .ok ())
    (hpart : Partway A base b (releasedOf origin) name (full A (releasedOf origin) name)) :
    Stage A cfg origin ((Mutation.platform name (platformNames cfg.targets origin.deepScan)
      (o.done ++ [name]) (releasedOf origin).length (releasedOf origin).length).apply b)
      (settle A (releasedOf origin) o name) rest := by
  obtain ⟨counters, hstate, -, -⟩ := h.state
  have hpending : o.failed.map Prod.fst ++ rest =
      (platformNames cfg.targets origin.deepScan).filter (· ∉ o.done ++ [name]) := by
    have hnames := h.nodup hnodup
    rw [List.nodup_append, List.nodup_cons] at hnames
    have hfilter : (o.failed.map Prod.fst ++ name :: rest).filter (· ≠ name) =
        o.failed.map Prod.fst ++ rest := by
      have hfailed : (o.failed.map Prod.fst).filter (· ≠ name) = o.failed.map Prod.fst :=
        List.filter_eq_self.2 fun store hs => decide_eq_true (hnames.2.2 store hs name (by simp))
      have hrest : rest.filter (· ≠ name) = rest := List.filter_eq_self.2 fun store hs =>
        decide_eq_true fun heq => hnames.2.1.1 (heq ▸ hs)
      rw [List.filter_append, List.filter_cons_of_neg (by simp), hfailed, hrest]
    rw [← hfilter, h.pending, List.filter_filter]
    refine List.filter_congr fun store _ => ?_
    simp [and_comm]
  have hsettle : settle A (releasedOf origin) o name =
      { o with
        done := o.done ++ [name]
        result := o.verified A (releasedOf origin) name
        counters := setVerified o.counters name (releasedOf origin).length } := by
    rw [settle_ok hprepare, if_neg h.notMem_done]
  have hresult : b.result = o.verified A (releasedOf origin) name := by
    unfold Outcome.verified
    cases hpart with
    | entered hb hverdicts =>
      rw [h.result, h.counters_eq] at hverdicts
      rw [if_pos, hb, h.result]
      refine List.all_eq_true.2 fun i hi => ?_
      rw [← hverdicts]
      exact isSome_full (List.mem_range.1 hi)
    | stored k hb _ _ huntaken =>
      rw [h.result, h.counters_eq] at huntaken
      obtain ⟨i, hi, hnone⟩ := huntaken
      rw [if_neg, hb, ← h.result]
      · rfl
      · intro hall
        have hsome := List.all_eq_true.1 hall i (List.mem_range.2 hi)
        rw [Option.isNone_iff_eq_none] at hnone
        simp [hnone] at hsome
  have hcounters : setVerified (verified b.deepScan) name (releasedOf origin).length =
      setVerified o.counters name (releasedOf origin).length := by
    cases hpart with
    | entered hb _ => rw [hb, h.counters_eq]
    | stored k hb _ _ _ =>
      have hb' : verified b.deepScan = setVerified (verified base.deepScan) name k := by
        rw [hb]
        simp only [Mutation.apply, hstate]
        rfl
      rw [hb', h.counters_eq, setVerified_setVerified]
  have herror : b.deepScan.bind DeepScanState.error = none := by
    cases hpart with
    | entered hb _ =>
      rw [hb, hstate]
      rfl
    | stored k hb _ _ _ =>
      rw [hb]
      simp only [Mutation.apply, hstate]
      rfl
  have hkept : b.artist = base.artist ∧ b.released = base.released ∧
      releasedOf b = releasedOf base := by
    cases hpart with
    | entered hb _ =>
      rw [hb]
      exact ⟨rfl, rfl, rfl⟩
    | stored k hb _ _ _ =>
      rw [hb]
      exact ⟨rfl, rfl, apply_releasedOf _ _⟩
  refine h.settled hnodup hne hkept.1 hkept.2.1 ((apply_releasedOf _ _).trans hkept.2.2) ?_ ?_ ?_ ?_
  · rw [hsettle]
    simp only [Mutation.apply, herror, hcounters, List.mem_append, List.mem_singleton, or_true,
      if_true, hpending]
  · rw [hsettle]
    exact hresult
  · rw [hsettle]
    exact hpending
  · rw [hsettle]
    exact h.failed

theorem settlePlatform_eq (released : List ReleasedTrack) (o : Outcome) (name : String) :
    settlePlatform name o.done o.failed (A.prepare name) =
      ((settle A released o name).done, (settle A released o name).failed) := by
  unfold settle
  cases A.prepare name <;> rfl

theorem platformMutations_settled (chunks : List (List ℕ)) (names : List String)
    (tracksScanned : ℕ) (rest : List String) (o : Outcome) :
    (platformMutations A origin chunks names tracksScanned rest o.done o.failed).2 =
      ((rest.foldl (settle A (releasedOf origin)) o).done,
        (rest.foldl (settle A (releasedOf origin)) o).failed) := by
  induction rest generalizing o with
  | nil => rfl
  | cons name rest ih =>
    rw [platformMutations, settlePlatform_eq (releasedOf origin), List.foldl_cons]
    exact ih _

/-- The last update of a scan leaves its closed form. -/
theorem Stage.last (h : Stage A cfg origin b o []) :
    (lastMutation (o.done, o.failed) (releasedOf origin).length).apply b = ending A cfg origin := by
  obtain ⟨counters, hstate, -, hsaved⟩ := h.state
  have ho : o = outcome A cfg origin := h.ahead
  have hbind : b.deepScan.bind DeepScanState.platformTracksVerified = some o.counters := by
    rw [hstate, ← hsaved rfl]
    rfl
  unfold lastMutation ending
  rw [← ho]
  by_cases hfailed : o.failed = []
  · simp only [hfailed, ne_eq, not_true_eq_false, if_false, Mutation.apply, hbind, h.artist,
      h.released, h.result, List.map_nil]
  · simp only [hfailed, ne_eq, not_false_eq_true, if_true, Mutation.apply, hbind, h.artist,
      h.released, h.result]

/-- Stores that failed are scanned again, and fail again. -/
theorem Stage.retries (h : Stage A cfg origin b o []) (hfailed : o.failed ≠ []) :
    Resumes A cfg origin (ending A cfg origin) := by
  have ho : o = outcome A cfg origin := h.ahead
  have hpending := h.pending
  have hlast := h.last
  refine resumes_of rfl ?_ ?_ ?_ ?_ ?_ hpending (by simpa using hfailed) h.failed h.counted rfl rfl ?_
    h.ahead
  · simp only [← ho, if_pos hfailed]
    decide
  · simp only [← ho, List.append_nil]
  · simp only [← ho]
  · simp only [← ho, Option.getD_some]
  · simp only [ending, ← ho]
  · rw [← hlast, apply_releasedOf, h.list]

theorem isChunk_lastMutation (settled : List String × List (String × String)) (tracksScanned : ℕ) :
    (lastMutation settled tracksScanned).isChunk = false := by
  unfold lastMutation
  split <;> rfl

theorem along_platforms (hnodup : cfg.targets.Nodup) (hne : releasedOf origin ≠ [])
    (h : Stage A cfg origin b o rest) :
    let platforms := platformMutations A origin (planChunks (releasedOf origin).length cfg.chunkSize)
      (platformNames cfg.targets origin.deepScan) (releasedOf origin).length rest o.done o.failed
    Along A cfg origin b
      (platforms.1 ++ [lastMutation platforms.2 (releasedOf origin).length]) := by
  induction rest generalizing b o with
  | nil =>
    have ho : o = outcome A cfg origin := h.ahead
    have hfares : Fares A cfg origin b
        [lastMutation (o.done, o.failed) (releasedOf origin).length] := by
      refine ⟨h.checked, fun hany => ?_, fun hnil => absurd hnil (List.cons_ne_nil _ _)⟩
      simp [isChunk_lastMutation] at hany
    refine along_cons hfares (along_nil ?_)
    show Fares A cfg origin ((lastMutation (o.done, o.failed) (releasedOf origin).length).apply b) []
    rw [h.last]
    refine ⟨?_, fun hany => absurd hany (by simp), fun _ => ⟨rfl, fun hfailed => ?_⟩⟩
    · have hlist : releasedOf (ending A cfg origin) = releasedOf origin := by
        rw [← h.last, apply_releasedOf, h.list]
      rw [hlist]
      show Verified A (releasedOf origin) (outcome A cfg origin).result.tracks
        (outcome A cfg origin).counters
      rw [← ho]
      exact h.counted
    · rw [← ho] at hfailed
      exact h.retries hfailed
  | cons name rest ih =>
    simp only [platformMutations, settlePlatform_eq (releasedOf origin), List.append_assoc,
      List.cons_append]
    cases hprepare : A.prepare name with
    | error e =>
      have hnext := h.fails hnodup hne hprepare
      have hdone : (settle A (releasedOf origin) o name).done = o.done := by
        rw [settle_error hprepare]
      rw [scannedMutations, hprepare]
      rw [← hdone] at hnext
      exact along_cons ((h.resumes (List.cons_ne_nil _ _)).fares (List.cons_ne_nil _ _)) (ih hnext)
    | ok u =>
      rw [scannedMutations, hprepare]
      have hstart : Partway A b b (releasedOf origin) name (persisted origin name) :=
        .entered rfl (by rw [h.result, h.counters_eq]; exact h.takes name List.mem_cons_self)
      have hbelow : Below (persisted origin name) (full A (releasedOf origin) name) := by
        rw [h.takes name List.mem_cons_self]
        exact taken_below h.counted name
      have hdone : (settle A (releasedOf origin) o name).done = o.done ++ [name] := by
        rw [settle_ok hprepare, if_neg h.notMem_done]
      have hnone : ∀ i ∈ ([] : List (List ℕ)).flatten, (persisted origin name i).isSome := by simp
      refine along_chunks h hprepare (List.nil_append _).symm hstart hbelow hnone fun b' hpart => ?_
      have hnext := h.verifies hnodup hne hprepare hpart
      rw [← hdone] at hnext
      exact along_cons ((hpart.resumes h hprepare (Below.refl _)).fares (List.cons_ne_nil _ _))
        (ih hnext)

end Stores

/-! ### Scans of a record -/

section Closed

variable (A : Resolver) (cfg : Config)

/-- What the record holds after a scan that nothing interrupts. -/
def closed (b : Scan) : Scan := (scanMutations A cfg b).1.foldl Mutation.apply b

variable {A cfg} {b : Scan}

theorem Sound.resumes (h : Sound A cfg b) (hne : platformNames cfg.targets b.deepScan ≠ []) :
    Resumes A cfg b b := ⟨h, hne, rfl, rfl⟩

theorem along_scan (h : Sound A cfg b) (hnodup : cfg.targets.Nodup)
    (hne : platformNames cfg.targets b.deepScan ≠ []) (hreleased : releasedOf b ≠ [])
    (hcapacity : (releasedOf b).length ≤ cfg.maxTracks) :
    Along A cfg b b (scanMutations A cfg b).1 := by
  have hpos : 0 < (releasedOf b).length := List.length_pos_iff.2 hreleased
  have hmin : min (releasedOf b).length cfg.maxTracks = (releasedOf b).length := by omega
  have hscan : ¬ (platformNames cfg.targets b.deepScan = [] ∨ (releasedOf b).length = 0) := by
    rintro (h | h)
    · exact hne h
    · omega
  unfold scanMutations
  simp only [hmin, if_neg hscan, Nat.sub_self, gt_iff_lt, Nat.lt_irrefl, if_false]
  exact along_cons ((h.resumes hne).fares (List.cons_ne_nil _ _))
    (along_platforms hnodup hreleased (stage_running h hne))

theorem closed_eq_ending (h : Sound A cfg b) (hnodup : cfg.targets.Nodup)
    (hne : platformNames cfg.targets b.deepScan ≠ []) (hreleased : releasedOf b ≠ [])
    (hcapacity : (releasedOf b).length ≤ cfg.maxTracks) : closed A cfg b = ending A cfg b :=
  ((along_scan h hnodup hne hreleased hcapacity _ [] (List.append_nil _).symm).ended rfl).1

variable (A cfg) in
/-- What a retry may build on: a record from which the scan comes to the same. -/
structure Retries (b b' : Scan) : Prop where
  sound : Sound A cfg b'
  closed : closed A cfg b' = closed A cfg b

theorem filter_capacityMark (warnings : List String) (message : String) :
    ((warnings.filter fun warning => !warning.startsWith capacityMark) ++
      [capacityMark ++ " " ++ message]).filter (fun warning => !warning.startsWith capacityMark) =
      warnings.filter fun warning => !warning.startsWith capacityMark := by
  have hmark : (capacityMark ++ " " ++ message).startsWith capacityMark = true := by
    rw [String.append_assoc]
    exact startsWith_append _ _
  simp [List.filter_append, List.filter_filter, hmark]

/-- A scan over capacity fails in the same way again. -/
theorem retries_overCapacity (h : Sound A cfg b)
    (hscan : ¬ (platformNames cfg.targets b.deepScan = [] ∨
      min (releasedOf b).length cfg.maxTracks = 0))
    (hcapacity : (releasedOf b).length - min (releasedOf b).length cfg.maxTracks > 0) :
    Retries A cfg b ((Mutation.overCapacity (platformNames cfg.targets b.deepScan)
      (priorDone b.deepScan) (capacityMessage (releasedOf b).length cfg.maxTracks)).apply b) := by
  have hone : ∀ r : Scan, releasedOf r = releasedOf b →
      platformNames cfg.targets r.deepScan = platformNames cfg.targets b.deepScan →
      priorDone r.deepScan = priorDone b.deepScan →
      closed A cfg r = (Mutation.overCapacity (platformNames cfg.targets b.deepScan)
        (priorDone b.deepScan) (capacityMessage (releasedOf b).length cfg.maxTracks)).apply r := by
    intro r hreleased hnames hdone
    unfold closed scanMutations
    simp only [hreleased, hnames, hdone, if_neg hscan, if_pos hcapacity]
    rfl
  have hnames : platformNames cfg.targets ((Mutation.overCapacity
      (platformNames cfg.targets b.deepScan) (priorDone b.deepScan)
      (capacityMessage (releasedOf b).length cfg.maxTracks)).apply b).deepScan =
        platformNames cfg.targets b.deepScan :=
    platformNames_resumed (p := fun _ => true) rfl (List.filter_eq_self.2 fun _ _ => rfl).symm rfl
      (fun hnil => hscan (.inl hnil)) (by simp)
  refine ⟨⟨h.counted, ?_, ?_⟩, ?_⟩
  · refine .inl (decide_eq_true ⟨?_, fun hnil => hscan (.inl hnil)⟩)
    simp
  · rw [hnames]
    exact h.undone
  · rw [hone b rfl rfl rfl]
    refine (hone _ ?_ hnames rfl).trans ?_
    · rfl
    simp only [Mutation.apply, filter_capacityMark]
    rfl

theorem eq_singleton_append {α : Type} {a : α} {pre later : List α} (h : [a] = pre ++ later) :
    pre = [] ∧ later = [a] ∨ pre = [a] ∧ later = [] := by
  cases pre with
  | nil => exact .inl ⟨rfl, h.symm⟩
  | cons x xs =>
    obtain ⟨rfl, hrest⟩ := List.cons.inj h
    obtain ⟨rfl, rfl⟩ := List.nil_eq_append_iff.1 hrest
    exact .inr ⟨rfl, rfl⟩

/-- At every point of a scan, the counters are true; where a chunk is still to come, and
where the scan has failed, a retry may build on the record. -/
theorem scan_step (h : Sound A cfg b) (hnodup : cfg.targets.Nodup) {pre later : List Mutation}
    (hms : (scanMutations A cfg b).1 = pre ++ later) :
    Verified A (releasedOf b) (pre.foldl Mutation.apply b).result.tracks
      (verified (pre.foldl Mutation.apply b).deepScan) ∧
    ((later.any Mutation.isChunk ∨ later = [] ∧ ∃ e, (scanMutations A cfg b).2 = .error e) →
      Retries A cfg b (pre.foldl Mutation.apply b)) := by
  by_cases hscan : platformNames cfg.targets b.deepScan = [] ∨
      min (releasedOf b).length cfg.maxTracks = 0
  · have hnothing : scanMutations A cfg b = ([.nothingToScan (priorDone b.deepScan)
        (min (releasedOf b).length cfg.maxTracks)], .ok ()) := by
      unfold scanMutations
      simp only [if_pos hscan]
    rw [hnothing] at hms ⊢
    rcases eq_singleton_append hms with ⟨rfl, rfl⟩ | ⟨rfl, rfl⟩
    · exact ⟨h.counted, by simp [Mutation.isChunk]⟩
    · exact ⟨h.counted, by simp⟩
  by_cases hcapacity : (releasedOf b).length - min (releasedOf b).length cfg.maxTracks > 0
  · have hover : scanMutations A cfg b = ([.overCapacity (platformNames cfg.targets b.deepScan)
        (priorDone b.deepScan) (capacityMessage (releasedOf b).length cfg.maxTracks)],
        .error (capacityMessage (releasedOf b).length cfg.maxTracks)) := by
      unfold scanMutations
      simp only [if_neg hscan, if_pos hcapacity]
    rw [hover] at hms ⊢
    rcases eq_singleton_append hms with ⟨rfl, rfl⟩ | ⟨rfl, rfl⟩
    · exact ⟨h.counted, by simp [Mutation.isChunk]⟩
    · exact ⟨h.counted, fun _ => retries_overCapacity h hscan hcapacity⟩
  · have hne : platformNames cfg.targets b.deepScan ≠ [] := fun hnil => hscan (.inl hnil)
    have hreleased : releasedOf b ≠ [] := by
      intro hnil
      exact hscan (.inr (by simp [hnil]))
    have hle : (releasedOf b).length ≤ cfg.maxTracks := by omega
    have hfares := along_scan h hnodup hne hreleased hle pre later hms
    have hlist : releasedOf (pre.foldl Mutation.apply b) = releasedOf b := releasedOf_foldl pre b
    have hretries : Resumes A cfg b (pre.foldl Mutation.apply b) →
        Retries A cfg b (pre.foldl Mutation.apply b) := by
      intro hr
      refine ⟨hr.sound, ?_⟩
      rw [closed_eq_ending hr.sound hnodup hr.names (hlist ▸ hreleased) (hlist ▸ hle), hr.ends,
        closed_eq_ending h hnodup hne hreleased hle]
    refine ⟨hlist ▸ hfares.counted, ?_⟩
    rintro (hany | ⟨rfl, e, herror⟩)
    · exact hretries (hfares.crashed hany)
    · obtain ⟨hb, hfailed⟩ := hfares.ended rfl
      refine hretries (hfailed fun hnone => ?_)
      have hdone : (scanMutations A cfg b).2 = .ok () := by
        unfold scanMutations
        simp only [if_neg hscan, if_neg hcapacity]
        have hsettled : (platformMutations A b
            (planChunks (min (releasedOf b).length cfg.maxTracks) cfg.chunkSize)
            (platformNames cfg.targets b.deepScan) (min (releasedOf b).length cfg.maxTracks)
            (platformNames cfg.targets b.deepScan) (priorDone b.deepScan) []).2 =
              ((outcome A cfg b).done, (outcome A cfg b).failed) :=
          platformMutations_settled _ _ _ _ (opening b)
        rw [hsettled, hnone]
        rfl
      rw [hdone] at herror
      cases herror

end Closed

end CatalogSentinel.Search.DeepScan
