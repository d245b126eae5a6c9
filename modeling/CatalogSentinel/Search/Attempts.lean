import CatalogSentinel.Concurrent.Trace
import CatalogSentinel.Search.DeepScan

/-!
One attempt of the deep scan under a resolver that answers the same question always
the same way: which mutations it stores, in order, and how it ends.
-/

namespace CatalogSentinel.Search.DeepScan

open Concurrent

/-- The resolver of one search. A catalogue that cannot be prepared fails the store; a
track gets one verdict per store, and every report repeats the catalogue's warnings. -/
structure Resolver where
  prepare : String → Except String Unit
  warnings : String → List String
  verify : String → ReleasedTrack → PerTrackVerdict

/-- How the awaits of an attempt are answered. -/
def answers (A : Resolver) (record : SearchRecord Scan) : (o : Op) → Except String (signature.Ans o)
  | .get => .ok (some record)
  | .prepareStorePresence _ _ store => A.prepare store
  | .scanStorePresence _ tracks store =>
    .ok ⟨tracks.map fun track => [⟨store, A.verify store track⟩], A.warnings store⟩
  | .update _ => .ok ()

def Op.mutation? : Op → Option Mutation
  | .update m => some m
  | _ => none

section Does

variable (A : Resolver) (record : SearchRecord Scan) {α β : Type}

/-- The program stores these mutations and ends so. -/
def Does (p : Run α) (ms : List Mutation) (r : Except String α) : Prop :=
  ∃ os, Prog.Traces (answers A record) p os r ∧ os.filterMap Op.mutation? = ms

variable {A record}

theorem does_ret (a : α) : Does A record (Prog.ret a : Run α) [] (.ok a) :=
  ⟨[], Prog.traces_ret a, rfl⟩

theorem does_raise (e : String) : Does A record (Prog.raise e : Run α) [] (.error e) :=
  ⟨[], Prog.traces_raise e, rfl⟩

theorem does_get : Does A record get [] (.ok (some record)) :=
  ⟨[.get], Prog.traces_call (S := signature) Op.get, rfl⟩

theorem does_prepare (artist : String) (released : List ReleasedTrack) (store : String) :
    Does A record (prepareStorePresence artist released store) [] (A.prepare store) :=
  ⟨[.prepareStorePresence artist released store], Prog.traces_call (S := signature) _, rfl⟩

theorem does_scan (artist : String) (tracks : List ReleasedTrack) (store : String) :
    Does A record (scanStorePresence artist tracks store) []
      (.ok ⟨tracks.map fun track => [⟨store, A.verify store track⟩], A.warnings store⟩) :=
  ⟨[.scanStorePresence artist tracks store], Prog.traces_call (S := signature) _, rfl⟩

theorem does_update (m : Mutation) : Does A record (update m) [m] (.ok ()) :=
  ⟨[.update m], Prog.traces_call (S := signature) _, rfl⟩

variable {p : Run α} {f : α → Run β} {ms ms' : List Mutation}

theorem Does.bind {a : α} {r : Except String β} (hp : Does A record p ms (.ok a))
    (hf : Does A record (f a) ms' r) : Does A record (p >>= f) (ms ++ ms') r := by
  obtain ⟨os, hos, rfl⟩ := hp
  obtain ⟨os', hos', rfl⟩ := hf
  exact ⟨os ++ os', hos.bind hos', List.filterMap_append⟩

theorem Does.andThen {a : α} {q : Run β} {r : Except String β} (hp : Does A record p ms (.ok a))
    (hq : Does A record q ms' r) : Does A record (p >>= fun _ => q) (ms ++ ms') r :=
  hp.bind hq

theorem Does.bind_error {e : String} (hp : Does A record p ms (.error e)) :
    Does A record (p >>= f) ms (.error e) := by
  obtain ⟨os, hos, rfl⟩ := hp
  exact ⟨os, hos.bind_error, rfl⟩

theorem Does.attempt {r : Except String α} (hp : Does A record p ms r) :
    Does A record p.attempt ms (.ok r) := by
  obtain ⟨os, hos, rfl⟩ := hp
  exact ⟨os, hos.attempt, rfl⟩

end Does

/-! ### Chunks -/

section Chunks

variable (A : Resolver) (released : List ReleasedTrack) (name : String)

/-- The verdicts on all of the released tracks. -/
def full : PerTrack := fun i => (released[i]?).map (A.verify name)

def cover (chunk : List ℕ) (perTrack : PerTrack) : PerTrack := fun i =>
  if i ∈ chunk then full A released name i else perTrack i

/-- What the loop over the chunks stores, and the verdicts that it ends with. -/
def chunkMutations : List (List ℕ) → PerTrack → List Mutation × PerTrack
  | [], perTrack => ([], perTrack)
  | chunk :: chunks, perTrack =>
    if chunk.all fun i => (perTrack i).isSome then chunkMutations chunks perTrack
    else
      let perTrack := cover A released name chunk perTrack
      let rest := chunkMutations chunks perTrack
      (.chunk name perTrack (A.warnings name) (chunk.foldr max 0 + 1) :: rest.1, rest.2)

variable {A released name}

theorem filterMap_getElem_length {chunk : List ℕ} (h : ∀ i ∈ chunk, i < released.length) :
    (chunk.filterMap fun i => released[i]?).length = chunk.length := by
  induction chunk with
  | nil => rfl
  | cons i chunk ih =>
    have hi : i < released.length := h i List.mem_cons_self
    rw [List.filterMap_cons_some (List.getElem?_eq_getElem hi), List.length_cons, List.length_cons,
      ih fun j hj => h j (List.mem_cons_of_mem i hj)]

/-- The answers to a chunk land under its indices. -/
theorem assign_eq_cover {chunk : List ℕ} (h : ∀ i ∈ chunk, i < released.length)
    (warnings : List String) (perTrack : PerTrack) :
    assign name chunk ⟨(chunk.filterMap fun i => released[i]?).map fun track =>
      [⟨name, A.verify name track⟩], warnings⟩ perTrack = cover A released name chunk perTrack := by
  unfold assign
  induction chunk generalizing perTrack with
  | nil =>
    funext i
    simp [cover]
  | cons j chunk ih =>
    have hj : j < released.length := h j List.mem_cons_self
    have hrest : ∀ i ∈ chunk, i < released.length := fun i hi => h i (List.mem_cons_of_mem j hi)
    rw [List.filterMap_cons_some (List.getElem?_eq_getElem hj), List.map_cons, List.zip_cons_cons,
      List.foldl_cons, ih hrest]
    funext i
    have hpick : pick name [⟨name, A.verify name released[j]⟩] = full A released name j := by
      simp [pick, full, List.getElem?_eq_getElem hj]
    simp only [cover, List.mem_cons, hpick]
    by_cases hi : i ∈ chunk
    · simp [hi]
    · by_cases hij : i = j
      · subst hij
        simp [hi]
      · simp [hi, hij]

theorem does_scanChunks {record : SearchRecord Scan} {rec : Scan} {chunks : List (List ℕ)}
    (h : ∀ chunk ∈ chunks, ∀ i ∈ chunk, i < (releasedOf rec).length) (perTrack : PerTrack) :
    Does A record (scanChunks rec name chunks perTrack)
      (chunkMutations A (releasedOf rec) name chunks perTrack).1
      (.ok (chunkMutations A (releasedOf rec) name chunks perTrack).2) := by
  induction chunks generalizing perTrack with
  | nil => exact does_ret perTrack
  | cons chunk chunks ih =>
    have hchunk := h chunk List.mem_cons_self
    have hrest : ∀ chunk ∈ chunks, ∀ i ∈ chunk, i < (releasedOf rec).length :=
      fun c hc => h c (List.mem_cons_of_mem chunk hc)
    rw [scanChunks, chunkMutations]
    split
    · exact ih hrest perTrack
    · have hupdate := (does_update (A := A) (.chunk name
          (cover A (releasedOf rec) name chunk perTrack) (A.warnings name)
          (chunk.foldr max 0 + 1))).andThen (ih hrest (cover A (releasedOf rec) name chunk perTrack))
      refine (does_scan rec.artist _ name).bind ?_
      rw [if_neg (by simp [filterMap_getElem_length hchunk]), assign_eq_cover hchunk]
      exact hupdate

/-- The loop leaves no track of its chunks without a verdict. -/
theorem isSome_chunkMutations {chunks : List (List ℕ)} {perTrack : PerTrack} {i : ℕ}
    (hi : i < released.length) (h : (perTrack i).isSome ∨ i ∈ chunks.flatten) :
    ((chunkMutations A released name chunks perTrack).2 i).isSome := by
  induction chunks generalizing perTrack with
  | nil => simpa [chunkMutations] using h
  | cons chunk chunks ih =>
    rw [List.flatten_cons, List.mem_append] at h
    have hfull : (full A released name i).isSome := by
      simp [full, List.getElem?_eq_getElem hi]
    rw [chunkMutations]
    split
    · rename_i hall
      refine ih ?_
      rcases h with h | h | h
      · exact .inl h
      · exact .inl (List.all_eq_true.1 hall i h)
      · exact .inr h
    · refine ih ?_
      rcases h with h | h | h
      · refine .inl ?_
        unfold cover
        split <;> assumption
      · exact .inl (by rw [cover, if_pos h]; exact hfull)
      · exact .inr h

end Chunks

/-! ### Stores -/

section Platforms

variable (A : Resolver) (rec : Scan) (chunks : List (List ℕ)) (names : List String)
  (tracksScanned : ℕ)

def scannedMutations (name : String) : List Mutation :=
  match A.prepare name with
  | .ok _ => (chunkMutations A (releasedOf rec) name chunks (persisted rec name)).1
  | .error _ => []

def platformMutations : List String → List String → List (String × String) →
    List Mutation × List String × List (String × String)
  | [], done, failed => ([], done, failed)
  | name :: rest, done, failed =>
    let settled := settlePlatform name done failed (A.prepare name)
    let later := platformMutations rest settled.1 settled.2
    (scannedMutations A rec chunks name ++
      .platform name names settled.1 tracksScanned (releasedOf rec).length :: later.1, later.2)

variable {A rec chunks names tracksScanned} {record : SearchRecord Scan}

theorem does_scanPlatform (h : ∀ chunk ∈ chunks, ∀ i ∈ chunk, i < (releasedOf rec).length)
    (name : String) :
    Does A record (scanPlatform rec chunks name) (scannedMutations A rec chunks name)
      (A.prepare name) := by
  unfold scanPlatform scannedMutations
  have hprepare : Does A record (prepareStorePresence rec.artist (releasedOf rec) name) []
      (A.prepare name) := does_prepare _ _ _
  cases hp : A.prepare name with
  | error e =>
    rw [hp] at hprepare
    exact hprepare.bind_error
  | ok u =>
    rw [hp] at hprepare
    have hall : (chunks.flatten.any fun i => ((chunkMutations A (releasedOf rec) name chunks
        (persisted rec name)).2 i).isNone) = false := by
      refine List.any_eq_false.2 fun i hi => ?_
      obtain ⟨chunk, hc, hic⟩ := List.mem_flatten.1 hi
      have hsome : ((chunkMutations A (releasedOf rec) name chunks (persisted rec name)).2
          i).isSome := isSome_chunkMutations (h chunk hc i hic) (.inr hi)
      simpa using Option.isSome_iff_ne_none.1 hsome
    have hscan : Does A record (scanChunks rec name chunks (persisted rec name) >>= fun perTrack =>
        if (chunks.flatten.any fun i => (perTrack i).isNone) = true then
          throw "platform resolver returned an incomplete track set" else pure ())
        ((chunkMutations A (releasedOf rec) name chunks (persisted rec name)).1 ++ []) (.ok ()) := by
      refine (does_scanChunks h (persisted rec name)).bind ?_
      rw [if_neg (by simp [hall])]
      exact does_ret ()
    rw [List.append_nil] at hscan
    exact hprepare.andThen hscan

theorem does_scanPlatforms (h : ∀ chunk ∈ chunks, ∀ i ∈ chunk, i < (releasedOf rec).length)
    (rest done : List String) (failed : List (String × String)) :
    Does A record (scanPlatforms rec chunks names tracksScanned rest done failed)
      (platformMutations A rec chunks names tracksScanned rest done failed).1
      (.ok (platformMutations A rec chunks names tracksScanned rest done failed).2) := by
  induction rest generalizing done failed with
  | nil => exact does_ret (done, failed)
  | cons name rest ih =>
    rw [scanPlatforms, platformMutations]
    refine (does_scanPlatform h name).attempt.bind ?_
    exact (does_update _).bind (ih _ _)

end Platforms

/-! ### The plan -/

theorem flatten_slices (l : List ℕ) (size k : ℕ) :
    ((List.range k).map fun j => (l.drop (j * size)).take size).flatten = l.take (k * size) := by
  induction k with
  | zero => simp
  | succ k ih =>
    rw [List.range_succ, List.map_append, List.flatten_append, ih, Nat.succ_mul, List.take_add]
    simp

theorem planChunks_flatten (count chunkSize : ℕ) :
    (planChunks count chunkSize).flatten = List.range count := by
  have hsize : 0 < max 1 chunkSize := by omega
  rw [planChunks, flatten_slices, List.take_of_length_le]
  rw [List.length_range]
  have hdiv := Nat.div_add_mod (count + max 1 chunkSize - 1) (max 1 chunkSize)
  have hmod := Nat.mod_lt (count + max 1 chunkSize - 1) hsize
  rw [Nat.mul_comm] at hdiv
  omega

theorem lt_of_mem_planChunks {count chunkSize : ℕ} {chunk : List ℕ}
    (h : chunk ∈ planChunks count chunkSize) {i : ℕ} (hi : i ∈ chunk) : i < count := by
  have hmem : i ∈ (planChunks count chunkSize).flatten := List.mem_flatten.2 ⟨chunk, h, hi⟩
  rwa [planChunks_flatten, List.mem_range] at hmem

theorem foldr_max_mem {chunk : List ℕ} (h : chunk ≠ []) : chunk.foldr max 0 ∈ chunk := by
  induction chunk with
  | nil => exact absurd rfl h
  | cons i chunk ih =>
    rw [List.foldr_cons]
    cases chunk with
    | nil => simp
    | cons j rest =>
      rcases le_total i ((j :: rest).foldr max 0) with hle | hle
      · rw [max_eq_right hle]
        exact List.mem_cons_of_mem i (ih (by simp))
      · rw [max_eq_left hle]
        exact List.mem_cons_self

/-- A chunk of the plan reaches as far as all the chunks up to it. -/
theorem mem_of_lt_planChunks {count chunkSize : ℕ} {before after : List (List ℕ)} {chunk : List ℕ}
    (h : planChunks count chunkSize = before ++ chunk :: after) (hne : chunk ≠ []) {i : ℕ}
    (hi : i < chunk.foldr max 0 + 1) : i ∈ (before ++ [chunk]).flatten := by
  have hrange : List.range count = (before ++ [chunk]).flatten ++ after.flatten := by
    rw [← planChunks_flatten count chunkSize, h, List.append_cons, List.flatten_append]
  have hupto : (before ++ [chunk]).flatten =
      List.range (min (before ++ [chunk]).flatten.length count) := by
    rw [← List.take_range, hrange, List.take_left]
  have hlast : chunk.foldr max 0 ∈ (before ++ [chunk]).flatten := by
    rw [List.flatten_append, List.mem_append]
    exact .inr (by simpa using foldr_max_mem hne)
  rw [hupto, List.mem_range] at hlast ⊢
  omega

/-! ### Attempts -/

section Attempt

variable (A : Resolver) (cfg : Config) (expectedTenantId : Option String)

def lastMutation (settled : List String × List (String × String)) (tracksScanned : ℕ) : Mutation :=
  if settled.2 ≠ [] then .platformFailures settled.1 settled.2 tracksScanned
  else .complete settled.1 tracksScanned

def lastOutcome (failed : List (String × String)) : Except String Unit :=
  if failed ≠ [] then
    .error ("deep-scan platform failures: " ++ ", ".intercalate (failed.map Prod.fst))
  else .ok ()

/-- What a scan of the record stores, and its end. -/
def scanMutations (rec : Scan) : List Mutation × Except String Unit :=
  let released := (releasedOf rec).length
  let done := priorDone rec.deepScan
  let names := platformNames cfg.targets rec.deepScan
  let tracksScanned := min released cfg.maxTracks
  if names = [] ∨ tracksScanned = 0 then
    ([.nothingToScan done tracksScanned], .ok ())
  else if released - tracksScanned > 0 then
    let message := capacityMessage released cfg.maxTracks
    ([.overCapacity names done message], .error message)
  else
    let platforms := platformMutations A rec (planChunks tracksScanned cfg.chunkSize) names
      tracksScanned names done []
    (.running names done tracksScanned :: (platforms.1 ++ [lastMutation platforms.2 tracksScanned]),
      lastOutcome platforms.2.2)

/-- The mutations that an attempt stores when nothing interrupts it, and its end. -/
def attempt (record : SearchRecord Scan) : List Mutation × Except String Unit :=
  let traced := (runStorePresenceDeepScan cfg expectedTenantId).trace (answers A record)
  (traced.1.filterMap Op.mutation?, traced.2)

variable {A cfg expectedTenantId} {record : SearchRecord Scan}

theorem attempt_of_does {ms : List Mutation} {r : Except String Unit}
    (h : Does A record (runStorePresenceDeepScan cfg expectedTenantId) ms r) :
    attempt A cfg expectedTenantId record = (ms, r) := by
  obtain ⟨os, hos, rfl⟩ := h
  unfold attempt
  rw [hos]

theorem does_scanRecord (rec : Scan) :
    Does A record (scanRecord cfg rec) (scanMutations A cfg rec).1 (scanMutations A cfg rec).2 := by
  unfold scanRecord scanMutations
  simp only []
  split
  · exact does_update _
  split
  · exact (does_update _).andThen (does_raise _)
  have hchunks : ∀ chunk ∈ planChunks (min (releasedOf rec).length cfg.maxTracks) cfg.chunkSize,
      ∀ i ∈ chunk, i < (releasedOf rec).length := fun chunk hc i hi =>
    (lt_of_mem_planChunks hc hi).trans_le (min_le_left _ _)
  refine (does_update _).andThen ((does_scanPlatforms hchunks _ _ _).bind ?_)
  unfold lastMutation lastOutcome
  split
  · exact (does_update _).andThen (does_raise _)
  · exact does_update _

/-- The job's tenant does not own the record. -/
def foreign (expectedTenantId : Option String) (record : SearchRecord Scan) : Bool :=
  expectedTenantId.any fun tenant => tenant ≠ "" ∧ record.userId ≠ tenant

theorem does_run {ms : List Mutation} {r : Except String Unit}
    (h : Does A record (if foreign expectedTenantId record then
      throw "presence job tenant does not own the target search record"
      else scanRecord cfg record.body) ms r) :
    Does A record (runStorePresenceDeepScan cfg expectedTenantId) ms r := by
  rw [runStorePresenceDeepScan]
  exact does_get.bind h

theorem attempt_eq (record : SearchRecord Scan) : attempt A cfg expectedTenantId record =
    if foreign expectedTenantId record then
      ([], .error "presence job tenant does not own the target search record")
    else scanMutations A cfg record.body := by
  by_cases hforeign : foreign expectedTenantId record = true
  · rw [if_pos hforeign]
    refine attempt_of_does (does_run ?_)
    rw [if_pos hforeign]
    exact does_raise _
  · rw [if_neg hforeign]
    refine attempt_of_does (does_run ?_)
    rw [if_neg hforeign]
    exact does_scanRecord record.body

end Attempt

end CatalogSentinel.Search.DeepScan
