import CatalogSentinel.Concurrent.Workers
import CatalogSentinel.Stores.Scan

/-!
What the verdicts of a scan can be relied on for. Absence is reported against catalogues that
were read to their end alone. But a title of which nothing is left is not looked for, and an
artist of whom nothing is left agrees with nobody, themselves included.
-/

namespace CatalogSentinel.Stores

open Data

variable {letters : Letters} {quick : Bool} {expectedArtist : String} {track : ReleasedTrack}
  {store : PreparedStoreCatalog}

@[simp] theorem mk_status (status : PresenceStatus) (matchedBy : Option MatchedBy) (confidence : ℚ)
    (foundArtist url : Option String) :
    (mk expectedArtist track store status matchedBy confidence foundArtist url).status = status := rfl

/-! ### How a verdict comes about -/

/-- What has to be known before absence is reported. -/
structure ProvenAbsence (letters : Letters) (quick : Bool) (expectedArtist : String) (track : ReleasedTrack)
    (store : PreparedStoreCatalog) : Prop where
  enumerable : store.confirmOnly = false
  scopedCatalogs : scopedCatalogs letters expectedArtist track store ≠ []
  complete : ∀ catalog ∈ Stores.scopedCatalogs letters expectedArtist track store, catalog.complete = true
  isrcAnswered : quick = false → ∀ isrc lookupIsrc, normalizeIsrc letters track.isrc = some isrc →
    store.isrc = some lookupIsrc → lookupIsrc isrc ≠ none
  titleAnswered : quick = false → ∀ searchTitle, store.title = some searchTitle → store.titleSearchMode = .query →
    normalizeTitle letters track.title ≠ "" ∨ track.title ≠ "" →
    searchTitle (orElse track.primaryArtist expectedArtist) track.title ≠ none

variable (expectedArtist track store) in
theorem miss_status (catalogs : List PreparedArtistCatalog) (degraded : Bool) :
    (miss expectedArtist track store catalogs degraded).status = .notLive ∨
      (miss expectedArtist track store catalogs degraded).status = .unverifiable := by
  simp only [miss]
  split
  · exact .inr rfl
  · exact .inl rfl

theorem miss_notLive {catalogs : List PreparedArtistCatalog} {degraded : Bool}
    (h : (miss expectedArtist track store catalogs degraded).status = .notLive) :
    store.confirmOnly = false ∧ catalogs ≠ [] ∧ (∀ catalog ∈ catalogs, catalog.complete = true) ∧ degraded = false := by
  simp only [miss] at h
  split at h
  · simp at h
  · next hproven =>
    simp only [Bool.or_eq_true, Bool.not_eq_true', Bool.and_eq_false_iff, not_or, Bool.not_eq_true,
      Bool.not_eq_false, List.all_eq_true, List.isEmpty_eq_false_iff] at hproven
    obtain ⟨⟨henumerable, hcatalogs, hcomplete⟩, hdegraded⟩ := hproven
    exact ⟨henumerable, hcatalogs, hcomplete, hdegraded⟩

theorem confirmIsrc_ok {failed : Bool} (h : confirmIsrc letters expectedArtist track store = .ok failed)
    (hfailed : failed = false) (isrc : String) (lookupIsrc : String → Option IsrcLookupResult)
    (hisrc : normalizeIsrc letters track.isrc = some isrc) (hstore : store.isrc = some lookupIsrc) :
    lookupIsrc isrc ≠ none := by
  simp only [confirmIsrc, hisrc, hstore] at h
  intro hnone
  simp only [hnone, Except.ok.injEq] at h
  rw [← h] at hfailed
  cases hfailed

theorem confirmIsrc_error {verdict : StorePresence} (h : confirmIsrc letters expectedArtist track store = .error verdict) :
    verdict.status = .live ∨ (verdict.status = .wrongProfile ∧ ∃ isrc lookupIsrc lk,
      normalizeIsrc letters track.isrc = some isrc ∧ store.isrc = some lookupIsrc ∧ lookupIsrc isrc = some lk ∧
        lk.found = true ∧ sameArtist letters lk.artist (some (scopedArtist expectedArtist track)) = false) := by
  simp only [confirmIsrc] at h
  split at h
  · next isrc lookupIsrc hisrc hstore =>
    split at h
    · cases h
    · next lk hlk =>
      split at h
      · next hfound =>
        split at h
        · obtain rfl := Except.error.inj h
          exact .inl rfl
        · next hother =>
          obtain rfl := Except.error.inj h
          exact .inr ⟨rfl, isrc, lookupIsrc, lk, hisrc, hstore, hlk, hfound, by simpa using hother⟩
      · cases h
  · cases h

theorem confirmTitle_ok {failed : Bool} (h : confirmTitle letters expectedArtist track store = .ok failed)
    (hfailed : failed = false) (searchTitle : String → String → Option TitleSearchResult)
    (hstore : store.title = some searchTitle) (hmode : store.titleSearchMode = .query)
    (htitle : normalizeTitle letters track.title ≠ "" ∨ track.title ≠ "") :
    searchTitle (orElse track.primaryArtist expectedArtist) track.title ≠ none := by
  simp only [confirmTitle, hstore, if_pos (And.intro hmode htitle)] at h
  intro hnone
  simp only [hnone, Except.ok.injEq] at h
  rw [← h] at hfailed
  cases hfailed

theorem confirmTitle_error {verdict : StorePresence}
    (h : confirmTitle letters expectedArtist track store = .error verdict) : verdict.status = .live := by
  simp only [confirmTitle] at h
  split at h
  · split at h
    · split at h
      · cases h
      · split at h
        · obtain rfl := Except.error.inj h
          rfl
        · cases h
    · cases h
  · cases h

/-- A hit is live. -/
theorem presence_hit (h : isrcHit letters (scopedCatalogs letters expectedArtist track store) track ≠ none ∨
      titleHit letters (scopedCatalogs letters expectedArtist track store) track ≠ none) :
    (presence letters quick expectedArtist track store).status = .live := by
  simp only [presence]
  split
  · rfl
  · rfl
  · next hisrc htitle => exact (h.elim (fun h => h hisrc) fun h => h htitle).elim

/-- Absence is reported only where it is proven. -/
theorem presence_notLive (h : (presence letters quick expectedArtist track store).status = .notLive) :
    ProvenAbsence letters quick expectedArtist track store := by
  simp only [presence] at h
  split at h
  · simp at h
  · simp at h
  · split at h
    · next hquick =>
      obtain ⟨henumerable, hcatalogs, hcomplete, -⟩ := miss_notLive h
      exact ⟨henumerable, hcatalogs, hcomplete, fun hdeep => absurd (hquick.symm.trans hdeep) (by decide),
        fun hdeep => absurd (hquick.symm.trans hdeep) (by decide)⟩
    · split at h
      · next hverdict =>
        obtain hlive | ⟨hwrong, -⟩ := confirmIsrc_error hverdict
        · rw [hlive] at h
          cases h
        · rw [hwrong] at h
          cases h
      · next isrcFailed hisrc =>
        split at h
        · next hverdict =>
          rw [confirmTitle_error hverdict] at h
          cases h
        · next titleFailed htitle =>
          obtain ⟨henumerable, hcatalogs, hcomplete, hdegraded⟩ := miss_notLive h
          rw [Bool.or_eq_false_iff] at hdegraded
          exact ⟨henumerable, hcatalogs, hcomplete, fun _ => confirmIsrc_ok hisrc hdegraded.1,
            fun _ => confirmTitle_ok htitle hdegraded.2⟩

/-- The verdict of a wrong profile rests on a lookup that found somebody else. -/
theorem presence_wrongProfile (h : (presence letters quick expectedArtist track store).status = .wrongProfile) :
    ∃ isrc lookupIsrc lk, normalizeIsrc letters track.isrc = some isrc ∧ store.isrc = some lookupIsrc ∧
      lookupIsrc isrc = some lk ∧ lk.found = true ∧
      sameArtist letters lk.artist (some (scopedArtist expectedArtist track)) = false := by
  simp only [presence] at h
  split at h
  · simp at h
  · simp at h
  · split at h
    · rcases miss_status expectedArtist track store (scopedCatalogs letters expectedArtist track store) false
        with hmiss | hmiss <;>
      · rw [hmiss] at h
        cases h
    · split at h
      · next hverdict =>
        obtain hlive | ⟨-, hfound⟩ := confirmIsrc_error hverdict
        · rw [hlive] at h
          cases h
        · exact hfound
      · next isrcFailed _ =>
        split at h
        · next hverdict =>
          rw [confirmTitle_error hverdict] at h
          cases h
        · next titleFailed _ =>
          rcases miss_status expectedArtist track store (scopedCatalogs letters expectedArtist track store)
            (isrcFailed || titleFailed) with hmiss | hmiss <;>
          · rw [hmiss] at h
            cases h

/-! ### Tracks that a store has returned -/

/-- A catalogue that was returned for the artist of the track holds it, by its title or its ISRC. -/
def Listed (letters : Letters) (expectedArtist : String) (track : ReleasedTrack)
    (requests : List (String × Option (StoreArtistCatalog String))) : Prop :=
  ∃ requestedArtist catalog t, (requestedArtist, some catalog) ∈ requests ∧
    (requestedArtist = scopedArtist expectedArtist track ∨
      sameArtist letters (some requestedArtist) (some (scopedArtist expectedArtist track)) = true) ∧
    t ∈ catalog.tracks ∧ t.primaryArtist = scopedArtist expectedArtist track ∧
    (t.title = track.title ∨
      ∃ isrc, normalizeIsrc letters t.isrc = some isrc ∧ normalizeIsrc letters track.isrc = some isrc)

theorem Index.get_ne_none {index : Index} {key : String} {t : StoreTrack String} (h : (key, t) ∈ index) :
    index.get key ≠ none := by
  intro hnone
  rw [Index.get, Option.map_eq_none_iff, List.find?_eq_none] at hnone
  exact hnone (key, t) (List.mem_reverse.2 h) (decide_eq_true rfl)

theorem findSome?_ne_none {α β : Type} {f : α → Option β} {xs : List α} {x : α} (hx : x ∈ xs) (h : f x ≠ none) :
    xs.findSome? f ≠ none := by
  intro hnone
  exact h (List.findSome?_eq_none_iff.1 hnone x hx)

theorem mem_titleIndex {requestedArtist : String} {tracks : List (StoreTrack String)} {t : StoreTrack String}
    (ht : t ∈ tracks) (hcredited : credited letters requestedArtist t = true)
    (htitle : normalizeTitle letters t.title ≠ "") :
    (normalizeTitle letters t.title, t) ∈ titleIndex letters requestedArtist tracks :=
  List.mem_filterMap.2 ⟨t, List.mem_filter.2 ⟨ht, hcredited⟩, if_neg htitle⟩

theorem mem_isrcIndex {requestedArtist isrc : String} {tracks : List (StoreTrack String)} {t : StoreTrack String}
    (ht : t ∈ tracks) (hcredited : credited letters requestedArtist t = true)
    (hisrc : normalizeIsrc letters t.isrc = some isrc) : (isrc, t) ∈ isrcIndex letters requestedArtist tracks :=
  List.mem_filterMap.2 ⟨t, List.mem_filter.2 ⟨ht, hcredited⟩, by rw [hisrc]; rfl⟩

theorem mem_catalogs (letters : Letters) (scannable : ScannableStore)
    {requests : List (String × Option (StoreArtistCatalog String))}
    {requestedArtist : String} {catalog : Option (StoreArtistCatalog String)}
    (h : (requestedArtist, catalog) ∈ requests) :
    ∃ first, prepareArtistCatalog letters scannable first requestedArtist catalog ∈
      (prepareStore letters scannable requests).catalogs := by
  obtain ⟨i, hi, heq⟩ := List.getElem_of_mem h
  refine ⟨decide (i = 0), List.mem_mapIdx.2 ⟨i, hi, ?_⟩⟩
  rw [heq]

/-- A track that was returned for its artist is found, by its ISRC or by what is left of its title. -/
theorem hit_of_listed (scannable : ScannableStore) {requests : List (String × Option (StoreArtistCatalog String))}
    (hself : sameArtist letters (some (scopedArtist expectedArtist track)) (some (scopedArtist expectedArtist track)) = true)
    (hlisted : Listed letters expectedArtist track requests) (htitle : normalizeTitle letters track.title ≠ "") :
    let catalogs := scopedCatalogs letters expectedArtist track (prepareStore letters scannable requests)
    isrcHit letters catalogs track ≠ none ∨ titleHit letters catalogs track ≠ none := by
  obtain ⟨requestedArtist, catalog, t, hrequest, hown, ht, hcredit, hmatch⟩ := hlisted
  have hsame : sameArtist letters (some requestedArtist) (some (scopedArtist expectedArtist track)) = true := by
    rcases hown with rfl | hsame
    · exact hself
    · exact hsame
  obtain ⟨first, hmem⟩ := mem_catalogs letters scannable hrequest
  have hscoped : prepareArtistCatalog letters scannable first requestedArtist (some catalog) ∈
      scopedCatalogs letters expectedArtist track (prepareStore letters scannable requests) :=
    List.mem_filter.2 ⟨hmem, hsame⟩
  have hcredited : credited letters requestedArtist t = true := by
    rw [credited, hcredit, sameArtist_comm, hsame, Bool.or_true]
  dsimp only
  rcases hmatch with heq | ⟨isrc, hisrc, htrack⟩
  · right
    rw [titleHit, if_neg htitle]
    refine findSome?_ne_none hscoped ?_
    rw [← heq] at htitle ⊢
    exact Index.get_ne_none (mem_titleIndex ht hcredited htitle)
  · left
    rw [isrcHit, htrack, Option.bind_some]
    exact findSome?_ne_none hscoped (Index.get_ne_none (mem_isrcIndex ht hcredited hisrc))

/-- Absence that is reported is proven, and of a track that no catalogue of its artist holds. -/
def NoFalseAbsence (letters : Letters) (expectedArtist : String) (track : ReleasedTrack) : Prop :=
  ∀ (scannable : ScannableStore) (requests : List (String × Option (StoreArtistCatalog String))) (quick : Bool),
    (presence letters quick expectedArtist track (prepareStore letters scannable requests)).status = .notLive →
      ProvenAbsence letters quick expectedArtist track (prepareStore letters scannable requests) ∧
        ¬ Listed letters expectedArtist track requests

/-- A complete catalogue of one track, credited to the artist it was asked for. -/
def oneTrack (artist title : String) : StoreArtistCatalog String where
  store := "store"
  artist := some ⟨"1", artist, ""⟩
  tracks := [⟨title, artist, none, none, none, none, none⟩]
  pagination := ⟨some 1, 1, true⟩
  warnings := []

def plainStore (catalog : StoreArtistCatalog String) : ScannableStore where
  store := "store"
  listArtistCatalog := fun _ _ => some catalog
  catalogMode := .enumerable
  isrc := none
  title := none
  titleSearchMode := .query
  confirmOnly := false

/-- A track of whose title nothing is left is reported absent from the catalogue that holds it. -/
theorem presence_lostTitle (htitle : normalizeTitle letters track.title = "")
    (hself : sameArtist letters (some (scopedArtist expectedArtist track))
      (some (scopedArtist expectedArtist track)) = true) :
    let catalog := oneTrack (scopedArtist expectedArtist track) track.title
    (presence letters true expectedArtist track (prepareStore letters (plainStore catalog)
      [(scopedArtist expectedArtist track, some catalog)])).status = .notLive := by
  dsimp only
  have hcatalogs : scopedCatalogs letters expectedArtist track (prepareStore letters
      (plainStore (oneTrack (scopedArtist expectedArtist track) track.title))
        [(scopedArtist expectedArtist track, some (oneTrack (scopedArtist expectedArtist track) track.title))]) =
      [⟨scopedArtist expectedArtist track, true, [], [], []⟩] := by
    have hindex : titleIndex letters (scopedArtist expectedArtist track)
        (oneTrack (scopedArtist expectedArtist track) track.title).tracks = [] := by
      rw [titleIndex, List.filterMap_eq_nil_iff]
      intro t ht
      rw [List.mem_singleton.1 (List.mem_of_mem_filter ht)]
      exact if_pos htitle
    have hisrcs : isrcIndex letters (scopedArtist expectedArtist track)
        (oneTrack (scopedArtist expectedArtist track) track.title).tracks = [] := by
      rw [isrcIndex, List.filterMap_eq_nil_iff]
      intro t ht
      rw [List.mem_singleton.1 (List.mem_of_mem_filter ht)]
      rfl
    simp only [scopedCatalogs, prepareStore, List.mapIdx_cons, List.mapIdx_nil, prepareArtistCatalog, Option.map_some,
      Option.getD_some, hindex, hisrcs]
    simp [hself, oneTrack, plainStore, catalogWarnings]
  have hisrcHit : isrcHit letters [⟨scopedArtist expectedArtist track, true, [], [], []⟩] track = none := by
    rw [isrcHit]
    cases normalizeIsrc letters track.isrc <;> rfl
  have htitleHit : titleHit letters [⟨scopedArtist expectedArtist track, true, [], [], []⟩] track = none := by
    rw [titleHit, if_pos htitle]
  simp only [presence, hcatalogs, hisrcHit, htitleHit, if_true]
  rfl

/-- No absence is reported falsely exactly if something is left of the title or nothing of the artist. -/
theorem noFalseAbsence_track : NoFalseAbsence letters expectedArtist track ↔
    normalizeTitle letters track.title ≠ "" ∨ sameArtist letters (some (scopedArtist expectedArtist track))
      (some (scopedArtist expectedArtist track)) = false := by
  constructor
  · intro h
    by_contra hlost
    simp only [not_or, not_not, Bool.not_eq_false] at hlost
    obtain ⟨htitle, hself⟩ := hlost
    have hnotLive := presence_lostTitle htitle hself
    exact (h _ _ _ hnotLive).2 ⟨_, _, _, List.mem_cons_self, .inl rfl, List.mem_cons_self, rfl, .inl rfl⟩
  · intro h scannable requests quick hnotLive
    refine ⟨presence_notLive hnotLive, fun hlisted => ?_⟩
    cases hself : sameArtist letters (some (scopedArtist expectedArtist track))
      (some (scopedArtist expectedArtist track)) with
    | true =>
      have hhit := hit_of_listed scannable hself hlisted (h.resolve_right (by simp [hself]))
      rw [presence_hit hhit] at hnotLive
      cases hnotLive
    | false =>
      refine (presence_notLive hnotLive).scopedCatalogs (List.filter_eq_nil_iff.2 fun catalog _ => ?_)
      rw [sameArtist_of_self hself]
      decide

/-- The results are those of the tracks, however many of them are under way and in whatever order they end. -/
theorem scanTracks_eq {prepared : PreparedStorePresence} {releasedTracks : List ReleasedTrack} {trackConcurrency : ℕ}
    (hpos : 0 < trackConcurrency) {schedule : List ℕ} {s : Concurrent.Workers.Pool TrackScanResult}
    (hrun : Concurrent.Steps.run (Concurrent.Workers.step releasedTracks
      fun track _ => scanTrack letters quick expectedArtist prepared track)
        (Concurrent.Workers.start releasedTracks trackConcurrency) schedule = some s)
    (hfinished : Concurrent.Workers.Finished s) :
    s.results = (releasedTracks.map (scanTrack letters quick expectedArtist prepared)).map some := by
  rw [Concurrent.Workers.results_eq hpos hrun hfinished]
  apply List.ext_getElem?
  intro i
  rw [List.getElem?_mapIdx, List.getElem?_map, List.getElem?_map, Option.map_map]
  rfl

/-- The scan is free of false absence exactly if something is left of every title, or nothing of
its artist. Its results never depend on the order in which tracks end. -/
theorem noFalseAbsence_iff (letters : Letters) (expectedArtist : String) (releasedTracks : List ReleasedTrack) :
    ((∀ track ∈ releasedTracks, NoFalseAbsence letters expectedArtist track) ∧
      ∀ (prepared : PreparedStorePresence) (quick : Bool) (trackConcurrency : ℕ) (schedule : List ℕ)
        (s : Concurrent.Workers.Pool TrackScanResult), 0 < trackConcurrency →
        Concurrent.Steps.run (Concurrent.Workers.step releasedTracks
          fun track _ => scanTrack letters quick expectedArtist prepared track)
            (Concurrent.Workers.start releasedTracks trackConcurrency) schedule = some s →
        Concurrent.Workers.Finished s →
        s.results = (releasedTracks.map (scanTrack letters quick expectedArtist prepared)).map some) ↔
      ∀ track ∈ releasedTracks, normalizeTitle letters track.title ≠ "" ∨
        sameArtist letters (some (scopedArtist expectedArtist track))
          (some (scopedArtist expectedArtist track)) = false := by
  constructor
  · rintro ⟨h, -⟩ track htrack
    exact noFalseAbsence_track.1 (h track htrack)
  · intro h
    refine ⟨fun track htrack => noFalseAbsence_track.2 (h track htrack), ?_⟩
    intro prepared quick trackConcurrency schedule s hpos hrun hfinished
    exact scanTracks_eq hpos hrun hfinished

/-! ### A title in another script -/

/-- What Unicode says of the letters of plain English, and of those that have neither case nor marks. -/
def plainLetters : Letters where
  upper := fun s => String.ofList (s.toList.map Char.toUpper)
  fold := fun s => String.ofList (s.toList.map Char.toLower)

def night : ReleasedTrack := ⟨"夜", "Aimer", none⟩

def nightInput : PrepareStorePresenceInput where
  expectedArtist := "Aimer"
  expectedArtists := []
  releasedTracks := [night]
  stores := [plainStore (oneTrack "Aimer" "夜")]
  catalogMaxTracks := none
  catalogFetchConcurrency := none
  maxDistinctArtists := none

/-- The store has the track under its very title, and the scan reports it absent. -/
theorem night_notLive :
    ((prepareStorePresence plainLetters nightInput).bind fun prepared =>
      scanStorePresence plainLetters "Aimer" [night] ["store"] true none prepared).map
        (fun report => report.results.flatMap fun result => result.perStore.map (·.status)) = .ok [.notLive] ∧
      ¬ NoFalseAbsence plainLetters "Aimer" night := by
  refine ⟨by decide, fun h => ?_⟩
  have hleft := noFalseAbsence_track.1 h
  revert hleft
  decide

/-! ### Artists in another script -/

/-- The artist to whom a track is credited is not reported as somebody else. -/
def NoFalseWrongProfile (letters : Letters) (expectedArtist : String) (track : ReleasedTrack) : Prop :=
  trim (scopedArtist expectedArtist track) ≠ "" → ∀ (store : PreparedStoreCatalog) (quick : Bool),
    (∀ isrc lookupIsrc lk, normalizeIsrc letters track.isrc = some isrc → store.isrc = some lookupIsrc →
      lookupIsrc isrc = some lk → lk.found = true → lk.artist = some (scopedArtist expectedArtist track)) →
    (presence letters quick expectedArtist track store).status ≠ .wrongProfile

theorem trim_empty : trim "" = "" := rfl

theorem ne_empty_of_trim {s : String} (h : trim s ≠ "") : s ≠ "" := by
  rintro rfl
  exact h trim_empty

/-- A store that finds the artist of the track under its ISRC. -/
def exactStore (artist : String) : PreparedStoreCatalog where
  store := "store"
  isrc := some fun _ => some ⟨true, some artist, none, none, none⟩
  title := none
  titleSearchMode := .query
  confirmOnly := false
  catalogs := []

theorem presence_lostArtist {isrc : String} (hisrc : normalizeIsrc letters track.isrc = some isrc)
    (hself : sameArtist letters (some (scopedArtist expectedArtist track))
      (some (scopedArtist expectedArtist track)) = false) :
    (presence letters false expectedArtist track (exactStore (scopedArtist expectedArtist track))).status =
      .wrongProfile := by
  have hisrcHit : isrcHit letters [] track = none := by
    rw [isrcHit]
    cases normalizeIsrc letters track.isrc <;> rfl
  have htitleHit : titleHit letters [] track = none := by
    rw [titleHit]
    split <;> rfl
  have hcatalogs : scopedCatalogs letters expectedArtist track (exactStore (scopedArtist expectedArtist track)) = [] := rfl
  have hconfirm : confirmIsrc letters expectedArtist track (exactStore (scopedArtist expectedArtist track)) =
      .error (mk expectedArtist track (exactStore (scopedArtist expectedArtist track)) .wrongProfile (some .isrc) (9 / 10)
        (some (scopedArtist expectedArtist track)) none) := by
    rw [confirmIsrc, hisrc]
    simp [exactStore, hself]
  simp only [presence, hcatalogs, hisrcHit, htitleHit, hconfirm]
  rfl

/-- The comparison is reflexive on the names of which something is left, and no others. Exactly
where it is, or where there is no ISRC to look up, no artist is taken for somebody else. -/
theorem noFalseWrongProfile_iff (letters : Letters) (expectedArtist : String) (track : ReleasedTrack) :
    (∀ name, trim name ≠ "" →
      (sameArtist letters (some name) (some name) = true ↔ artistCredits letters name ≠ [])) ∧
    (NoFalseWrongProfile letters expectedArtist track ↔
      (trim (scopedArtist expectedArtist track) ≠ "" → normalizeIsrc letters track.isrc ≠ none →
        artistCredits letters (scopedArtist expectedArtist track) ≠ [])) := by
  have hreflexive (name : String) (hname : trim name ≠ "") :
      sameArtist letters (some name) (some name) = true ↔ artistCredits letters name ≠ [] := by
    rw [sameArtist_self]
    exact ⟨fun h => h.2, fun h => ⟨ne_empty_of_trim hname, h⟩⟩
  refine ⟨hreflexive, fun h hblank hisrc hcredits => ?_, fun h hblank store quick hexact hwrong => ?_⟩
  · obtain ⟨isrc, hisrc⟩ := Option.ne_none_iff_exists'.1 hisrc
    have hself : sameArtist letters (some (scopedArtist expectedArtist track))
        (some (scopedArtist expectedArtist track)) = false := by
      rw [← Bool.not_eq_true, hreflexive _ hblank]
      exact fun hne => hne hcredits
    refine h hblank (exactStore (scopedArtist expectedArtist track)) false ?_ (presence_lostArtist hisrc hself)
    intro isrc lookupIsrc lk _ hlookup hlk _
    obtain rfl := Option.some.inj hlookup
    obtain rfl := Option.some.inj hlk
    rfl
  · obtain ⟨isrc, lookupIsrc, lk, hisrc, hlookup, hlk, hfound, hother⟩ := presence_wrongProfile hwrong
    rw [hexact isrc lookupIsrc lk hisrc hlookup hlk hfound] at hother
    have hcredits := h hblank (by simp [hisrc])
    rw [(hreflexive _ hblank).2 hcredits] at hother
    cases hother

def pianist : ReleasedTrack := ⟨"Lemon", "米津玄師", some "JPU901800123"⟩

/-- The lookup finds the very artist of the track, and the scan reports a wrong profile. -/
theorem pianist_wrongProfile :
    sameArtist plainLetters (some "米津玄師") (some "米津玄師") = false ∧
      (presence plainLetters false "Label" pianist (exactStore "米津玄師")).status = .wrongProfile ∧
      ¬ NoFalseWrongProfile plainLetters "Label" pianist := by
  have hwrong : (presence plainLetters false "Label" pianist (exactStore "米津玄師")).status = .wrongProfile := by decide
  refine ⟨by decide, hwrong, fun h => h (by decide) _ false ?_ hwrong⟩
  intro isrc lookupIsrc lk _ hlookup hlk _
  obtain rfl := Option.some.inj hlookup
  obtain rfl := Option.some.inj hlk
  decide

end CatalogSentinel.Stores
