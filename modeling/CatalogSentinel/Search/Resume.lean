import CatalogSentinel.Search.Attempts

/-!
What a deep scan takes over from the record that an attempt before it has left. The
chunks of one store subsume each other, the counters are only as good as the cells
under them, and the cells of a store are the business of that store alone.
-/

namespace CatalogSentinel.Search.DeepScan

/-! ### Merging a store again -/

/-- The verdicts of one are among those of the other. -/
def Below (p q : PerTrack) : Prop := ∀ i v, p i = some v → q i = some v

theorem Below.refl (p : PerTrack) : Below p p := fun _ _ h => h

theorem merge_merge (t : CatalogTrack) (name : String) (v : PerTrackVerdict) :
    (t.merge name (some v)).merge name (some v) = t.merge name (some v) := by
  simp [CatalogTrack.merge, List.filter_append]

theorem mergeTracks_grow {p q : PerTrack} (h : Below p q) (name : String)
    (tracks : List CatalogTrack) :
    mergeTracks (mergeTracks tracks name p) name q = mergeTracks tracks name q := by
  refine List.ext_getElem? fun i => ?_
  simp only [mergeTracks, List.getElem?_mapIdx, Option.map_map]
  congr 1
  funext t
  cases hp : p i with
  | none => simp [CatalogTrack.merge]
  | some v => simp only [Function.comp_apply, h i v hp, merge_merge]

theorem startsWith_append (pre text : String) : (pre ++ text).startsWith pre = true := by
  rw [String.startsWith_string_iff, String.toList_append]
  exact List.prefix_append _ _

theorem withPlatformWarnings_idem (existing : List String) (platform : String)
    (warnings : List String) :
    withPlatformWarnings (withPlatformWarnings existing platform warnings) platform warnings =
      withPlatformWarnings existing platform warnings := by
  have hnew : (warnings.map ("DSP " ++ platform ++ ": " ++ ·)).filter
      (fun warning => !warning.startsWith ("DSP " ++ platform ++ ": ")) = [] := by
    refine List.filter_eq_nil_iff.2 fun warning hw => ?_
    obtain ⟨text, -, rfl⟩ := List.mem_map.1 hw
    simp [startsWith_append]
  unfold withPlatformWarnings
  simp only [List.filter_append, hnew, List.filter_filter, Bool.and_self, List.append_nil]

/-- What a chunk makes of the result. -/
def chunkResult (name : String) (perTrack : PerTrack) (warnings : List String)
    (result : CatalogResult) : CatalogResult :=
  let merged := mergePlatform result name perTrack
  { merged with warnings := withPlatformWarnings merged.warnings name warnings }

theorem chunkResult_eq_of_tracks {name : String} {p q r : PerTrack} (warnings : List String)
    {result : CatalogResult} (h : mergeTracks (mergeTracks result.tracks name p) name q =
      mergeTracks result.tracks name r) :
    chunkResult name q warnings (chunkResult name p warnings result) =
      chunkResult name r warnings result := by
  by_cases hmem : name ∈ result.stores
  · simp [chunkResult, mergePlatform, h, withPlatformWarnings_idem, hmem]
  · simp [chunkResult, mergePlatform, h, withPlatformWarnings_idem, hmem]

/-- A later chunk of the same store subsumes what an earlier one wrote. -/
theorem chunkResult_grow {p q : PerTrack} (h : Below p q) (name : String) (warnings : List String)
    (result : CatalogResult) : chunkResult name q warnings (chunkResult name p warnings result) =
      chunkResult name q warnings result :=
  chunkResult_eq_of_tracks warnings (mergeTracks_grow h name result.tracks)

/-! ### What every mutation keeps -/

theorem apply_artist (r : Scan) (m : Mutation) : (m.apply r).artist = r.artist := by
  cases m <;> rfl

theorem apply_released (r : Scan) (m : Mutation) : (m.apply r).released = r.released := by
  cases m <;> rfl

theorem mergeTracks_map_released (tracks : List CatalogTrack) (name : String) (perTrack : PerTrack)
    (artist : String) : (mergeTracks tracks name perTrack).map (fun t =>
      (⟨t.title, artist, t.isrc⟩ : ReleasedTrack)) = tracks.map fun t => ⟨t.title, artist, t.isrc⟩ := by
  refine List.ext_getElem? fun i => ?_
  simp only [mergeTracks, List.getElem?_map, List.getElem?_mapIdx, Option.map_map]
  congr 1
  funext t
  cases perTrack i <;> rfl

theorem apply_releasedOf (r : Scan) (m : Mutation) : releasedOf (m.apply r) = releasedOf r := by
  cases m with
  | chunk name perTrack warnings verifiedThrough =>
    simp only [releasedOf, Mutation.apply, mergePlatform, mergeTracks_map_released]
  | _ => rfl

theorem releasedOf_foldl (ms : List Mutation) (r : Scan) :
    releasedOf (ms.foldl Mutation.apply r) = releasedOf r := by
  induction ms generalizing r with
  | nil => rfl
  | cons m ms ih => rw [List.foldl_cons, ih, apply_releasedOf]

/-! ### Counters -/

/-- How far a store is verified. -/
def count (counters : List (String × ℕ)) (name : String) : Option ℕ :=
  (Data.get? Prod.fst name counters).map Prod.snd

theorem count_setVerified (counters : List (String × ℕ)) (name store : String) (k : ℕ) :
    count (setVerified counters name k) store =
      if name = store then some k else count counters store := by
  unfold count setVerified
  rw [Data.get?_put]
  split <;> rfl

theorem setVerified_setVerified (counters : List (String × ℕ)) (name : String) (k k' : ℕ) :
    setVerified (setVerified counters name k) name k' = setVerified counters name k' := by
  have hkey : Prod.fst (name, k') = Prod.fst (name, k) := rfl
  exact Data.put_put hkey counters

/-- The verdicts that an attempt takes over from the cells of a store. -/
def taken (tracks : List CatalogTrack) (counters : List (String × ℕ)) (name : String) : PerTrack :=
  fun i => if i < (count counters name).getD 0 then
    (cells tracks i name).head?.map PerTrackVerdict.ofCell else none

theorem persisted_eq_taken {r : Scan}
    (h : resumable r.deepScan = true ∨ verified r.deepScan = []) (name : String) :
    persisted r name = taken r.result.tracks (verified r.deepScan) name := by
  have hlength : verifiedPrefix r.deepScan name = (count (verified r.deepScan) name).getD 0 := by
    unfold verifiedPrefix
    split
    · rfl
    · rename_i hr
      rw [h.resolve_left hr]
      rfl
  funext i
  rw [persisted, taken, hlength]
  congr 1
  unfold cells
  cases r.result.tracks[i]? with
  | none => rfl
  | some t => rw [Option.bind_some, List.head?_filter]

theorem lt_of_isSome_taken {tracks : List CatalogTrack} {counters : List (String × ℕ)}
    {name : String} {i : ℕ} (h : (taken tracks counters name i).isSome) :
    i < (count counters name).getD 0 := by
  unfold taken at h
  split at h
  · assumption
  · cases h

theorem taken_mergeTracks {name store : String} (h : store ≠ name) (tracks : List CatalogTrack)
    (counters : List (String × ℕ)) (p : PerTrack) :
    taken (mergeTracks tracks name p) counters store = taken tracks counters store := by
  funext i
  unfold taken
  rw [cells_mergeTracks]
  cases p i with
  | none => rfl
  | some v => simp only [h, false_and, if_false]

theorem taken_setVerified {name store : String} (h : store ≠ name) (tracks : List CatalogTrack)
    (counters : List (String × ℕ)) (k : ℕ) :
    taken tracks (setVerified counters name k) store = taken tracks counters store := by
  funext i
  rw [taken, count_setVerified, if_neg (Ne.symm h)]
  rfl

section Counters

variable (A : Resolver) (released : List ReleasedTrack)

/-- The first tracks have a cell for the store, with the resolver's verdict on them. -/
structure Resolved (tracks : List CatalogTrack) (name : String) (k : ℕ) : Prop where
  le : k ≤ released.length
  cells : ∀ i < k, i < tracks.length → ∃ track, released[i]? = some track ∧
    cells tracks i name = [(A.verify name track).entry name]

/-- Every counter counts resolved tracks. -/
def Verified (tracks : List CatalogTrack) (counters : List (String × ℕ)) : Prop :=
  ∀ name k, count counters name = some k → Resolved A released tracks name k

variable {A released} {tracks : List CatalogTrack} {counters : List (String × ℕ)} {name : String}

theorem full_eq_some {i : ℕ} {v : PerTrackVerdict} (h : full A released name i = some v) :
    ∃ track, released[i]? = some track ∧ A.verify name track = v := Option.map_eq_some_iff.1 h

theorem isSome_full {i : ℕ} (h : i < released.length) : (full A released name i).isSome := by
  simp [full, List.getElem?_eq_getElem h]

theorem lt_of_full {i : ℕ} {v : PerTrackVerdict} (h : full A released name i = some v) :
    i < released.length := by
  obtain ⟨track, ht, -⟩ := full_eq_some h
  exact (List.getElem?_eq_some_iff.1 ht).1

theorem eq_full {p : PerTrack} (hp : Below p (full A released name))
    (hall : ∀ i < released.length, (p i).isSome) : p = full A released name := by
  funext i
  cases hf : full A released name i with
  | none =>
    cases hi : p i with
    | none => rfl
    | some v => exact absurd (hp i v hi) (by simp [hf])
  | some v =>
    obtain ⟨w, hw⟩ := Option.isSome_iff_exists.1 (hall i (lt_of_full hf))
    rw [hw, ← hp i w hw, hf]

theorem Resolved.merge {store : String} {k : ℕ} {p : PerTrack}
    (h : Resolved A released tracks store k) (hp : Below p (full A released name)) :
    Resolved A released (mergeTracks tracks name p) store k := by
  refine ⟨h.le, fun i hi hlen => ?_⟩
  rw [mergeTracks_length] at hlen
  obtain ⟨track, ht, hcells⟩ := h.cells i hi hlen
  refine ⟨track, ht, ?_⟩
  rw [cells_mergeTracks]
  cases hv : p i with
  | none => exact hcells
  | some v =>
    simp only []
    split
    · rename_i hs
      obtain ⟨rfl, -⟩ := hs
      obtain ⟨track', ht', hv'⟩ := full_eq_some (hp i v hv)
      obtain rfl : track = track' := Option.some.inj (ht.symm.trans ht')
      rw [hv']
    · exact hcells

/-- Where a chunk has all the first verdicts, the first tracks are resolved. -/
theorem resolved_merge {k : ℕ} {p : PerTrack} (hp : Below p (full A released name))
    (hk : k ≤ released.length) (hall : ∀ i < k, (p i).isSome) :
    Resolved A released (mergeTracks tracks name p) name k := by
  refine ⟨hk, fun i hi hlen => ?_⟩
  rw [mergeTracks_length] at hlen
  obtain ⟨v, hv⟩ := Option.isSome_iff_exists.1 (hall i hi)
  obtain ⟨track, ht, hverify⟩ := full_eq_some (hp i v hv)
  refine ⟨track, ht, ?_⟩
  rw [cells_mergeTracks, hv]
  simp only [true_and, if_pos hlen, hverify]

/-- A chunk may count as many tracks as it has verdicts on from the first one. -/
theorem Verified.chunk {k : ℕ} {p : PerTrack} (h : Verified A released tracks counters)
    (hp : Below p (full A released name)) (hk : k ≤ released.length)
    (hall : ∀ i < k, (p i).isSome) :
    Verified A released (mergeTracks tracks name p) (setVerified counters name k) := by
  intro store k' hcount
  rw [count_setVerified] at hcount
  split at hcount
  · rename_i hs
    cases hcount
    rw [← hs]
    exact resolved_merge hp hk hall
  · exact (h store k' hcount).merge hp

/-- The verdicts that are taken over are the resolver's. -/
theorem taken_below (h : Verified A released tracks counters) (name : String) :
    Below (taken tracks counters name) (full A released name) := by
  intro i v hv
  have hi := lt_of_isSome_taken (Option.isSome_iff_exists.2 ⟨v, hv⟩)
  cases hk : count counters name with
  | none =>
    rw [hk] at hi
    exact absurd hi (Nat.not_lt_zero i)
  | some k =>
    rw [taken, if_pos hi] at hv
    obtain ⟨c, hc, rfl⟩ := Option.map_eq_some_iff.1 hv
    obtain ⟨t, ht, -⟩ := mem_cells.1 (List.mem_of_mem_head? hc)
    have hlen : i < tracks.length := (List.getElem?_eq_some_iff.1 ht).1
    rw [hk] at hi
    obtain ⟨track, htrack, hcells⟩ := (h name k hk).cells i hi hlen
    rw [hcells, List.head?_cons] at hc
    cases hc
    rw [full, htrack]
    rfl

/-- A store all of whose tracks are taken over is counted in full. -/
theorem Verified.all (h : Verified A released tracks counters) (hne : released ≠ [])
    (hall : ∀ i < released.length, (taken tracks counters name i).isSome) :
    Verified A released tracks (setVerified counters name released.length) := by
  have hpos : 0 < released.length := List.length_pos_iff.2 hne
  have hlast := lt_of_isSome_taken (hall (released.length - 1) (by omega))
  cases hk : count counters name with
  | none =>
    rw [hk] at hlast
    exact absurd hlast (Nat.not_lt_zero _)
  | some k =>
    rw [hk, Option.getD_some] at hlast
    have hle := (h name k hk).le
    obtain rfl : k = released.length := by omega
    intro store k' hcount
    rw [count_setVerified] at hcount
    split at hcount
    · rename_i hs
      rw [← hs]
      cases hcount
      exact h name _ hk
    · exact h store k' hcount

end Counters

end CatalogSentinel.Search.DeepScan
