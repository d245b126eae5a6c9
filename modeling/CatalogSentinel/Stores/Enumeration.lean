import CatalogSentinel.Stores.Deezer
import CatalogSentinel.Stores.SoundCloud
import CatalogSentinel.Stores.Spotify
import CatalogSentinel.Stores.Tidal

/-!
The four enumerations of a catalogue against an upstream that answers what it likes. Three of
them are bounded by the limit. That of Deezer is bounded where every page of releases that
names a next one brings a release, and endless on fresh cursors without releases.
-/

namespace CatalogSentinel.Stores

open Data (Pass)

/-- What is asked for, and of whom. -/
structure Inquiry where
  platform : Platform
  letters : Letters
  world : World
  attempts : Option ℚ
  country : String
  artist : Artist Json
  profileAnchored : Bool
  artistName : String
  limit : Option ℚ
  session : Session

/-- Every loop returns a catalogue, and the limit and fixed caps bound what it sends. -/
structure Inquiry.Ends (q : Inquiry) : Prop where
  tidal : EndsWithin q.limit (Tidal.listArtistCatalog q.platform q.letters q.world (maxAttempts q.attempts) q.country
    q.artist q.profileAnchored q.limit q.session) q.session.requests fun limit => 20 * (limit + 2)
  soundCloud : EndsWithin q.limit (SoundCloud.listArtistCatalog q.platform q.letters q.world q.artist q.limit q.session)
    q.session.requests fun limit => 2 * (limit + 2)
  spotify : EndsWithin q.limit (Spotify.listArtistCatalog q.platform q.letters q.world (maxAttempts q.attempts)
    q.artistName q.limit q.session) q.session.requests fun limit => 20 * (limit + 2)
  deezer : EndsWithin q.limit (Deezer.listArtistCatalog q.platform q.letters q.world q.artist q.artistName q.limit
    q.session) q.session.requests fun _ => 582

/-- The rows that are read for so many tracks can be read, and a page of releases that names a next one brings one. -/
structure Inquiry.Served (q : Inquiry) (limit : ℕ) : Prop where
  tidal : (Tidal.api q.platform q.letters q.world (maxAttempts q.attempts) q.artist).ReadsAll limit
    (Progress.start q.session (Tidal.firstPage q.platform q.country q.artist)) Tidal.readable
  soundCloud : (SoundCloud.api q.platform q.letters q.world q.artist).ReadsAll limit
    (Progress.start q.session (SoundCloud.firstPage q.platform q.artist)) SoundCloud.readable
  spotify : Spotify.ReadsAll q.platform q.letters q.world (maxAttempts q.attempts) q.artistName limit q.session
  deezer : Deezer.ReadsAll q.platform q.world (Deezer.start q.session (Deezer.firstPage q.platform q.artist))
  releases : Deezer.Advances q.platform q.world (Deezer.start q.session (Deezer.firstPage q.platform q.artist))

/-- Where every step is served so, every loop ends. -/
theorem ends_of_served (q : Inquiry) (hserved : ∀ limit, normalizeStoreCatalogLimit q.limit = .ok limit → q.Served limit) :
    q.Ends := by
  have hattempts := maxAttempts_le q.attempts
  have hbound (limit : ℕ) : 4 * maxAttempts q.attempts * (limit + 2) ≤ 20 * (limit + 2) :=
    Nat.mul_le_mul_right _ (by omega)
  constructor
  · refine endsWithin_withLimit rfl fun limit hlimit => ?_
    obtain ⟨result, session, hrun, hsent, hreturns⟩ := Tidal.enumerate_ends
      q.platform q.letters q.world (maxAttempts q.attempts) q.country q.artist q.profileAnchored
      limit q.session
    obtain ⟨catalog, rfl⟩ := hreturns (hserved limit hlimit).tidal
    exact ⟨_, catalog, session, hrun, hsent.trans (Nat.add_le_add_left (hbound limit) _)⟩
  · refine endsWithin_withLimit rfl fun limit hlimit => ?_
    obtain ⟨result, session, hrun, hsent, hreturns⟩ := SoundCloud.enumerate_ends
      q.platform q.letters q.world q.artist limit q.session
    obtain ⟨catalog, rfl⟩ := hreturns (hserved limit hlimit).soundCloud
    exact ⟨_, catalog, session, hrun, hsent⟩
  · refine endsWithin_withLimit rfl fun limit hlimit => ?_
    obtain ⟨result, session, hrun, hsent, hreturns⟩ := Spotify.enumerate_ends
      q.platform q.letters q.world (maxAttempts q.attempts) q.artistName limit q.session
    obtain ⟨catalog, rfl⟩ := hreturns (hserved limit hlimit).spotify
    exact ⟨_, catalog, session, hrun, hsent.trans (Nat.add_le_add_left (hbound limit) _)⟩
  · refine endsWithin_withLimit rfl fun limit hlimit => ?_
    obtain ⟨result, session, hrun, hsent, hreturns⟩ := Deezer.enumerate_ends
      q.platform q.letters q.world q.artist q.artistName limit q.session (hserved limit hlimit).releases
    obtain ⟨catalog, rfl⟩ := hreturns (hserved limit hlimit).deezer
    exact ⟨_, catalog, session, hrun, hsent⟩

/-! ### An upstream that ends at once -/

/-- A body that every provider takes for its token, or for its last page. -/
def lastPage : Json := .obj [("access_token", .str "token"), ("data", .arr []), ("collection", .arr []),
  ("tracks", .obj [("items", .arr [])])]

def lastPages (limit : Option ℚ) : Inquiry where
  platform := ⟨fun _ _ => none, fun s => s, fun _ => none⟩
  letters := ⟨String.toUpper, String.toLower⟩
  world := ⟨fun _ _ => .response 200 (.ok lastPage) "", fun _ => 0⟩
  attempts := none
  country := "US"
  artist := ⟨"1", .str "artist", .null⟩
  profileAnchored := true
  artistName := "artist"
  limit := limit
  session := ⟨0, 0, none, none⟩

theorem eq_lastPage {limit : Option ℚ} {body : Json} (h : (lastPages limit).world.Answers body) : body = lastPage := by
  obtain ⟨_, _, _, _, hreply⟩ := h
  simp only [lastPages, Reply.response.injEq, Except.ok.injEq] at hreply
  exact hreply.2.1.symm

theorem ends_lastPages : (lastPages (some 100)).Ends := by
  refine ends_of_served _ fun limit _ => ?_
  constructor
  · rintro s page - ⟨next, -, -, -, hpage⟩ -
    have hbody : (bearerJson (lastPages (some 100)).platform (lastPages (some 100)).world Tidal.bearer
        (maxAttempts (lastPages (some 100)).attempts) s.session next).1 = some page := page?_eq hpage
    rw [eq_lastPage (bearerJson_answers hbody)]
    cases limit - s.fetched <;> rfl
  · rintro s page - ⟨next, -, -, -, hpage⟩ -
    have hbody : (SoundCloud.getJson (lastPages (some 100)).platform (lastPages (some 100)).world
        s.session next).1 = some page :=
      page?_eq hpage
    rw [eq_lastPage (SoundCloud.getJson_answers hbody)]
    cases limit - s.fetched <;> rfl
  · rintro s tracks - ⟨-, -, hpage⟩
    have htracks := page?_eq hpage
    cases hdata : (Spotify.request (lastPages (some 100)).platform (lastPages (some 100)).world
        (maxAttempts (lastPages (some 100)).attempts) s.session
        (Spotify.searchPath (lastPages (some 100)).platform (lastPages (some 100)).artistName limit s.fetched)).1 with
    | none =>
      rw [hdata] at htracks
      cases htracks
    | some data =>
      rw [hdata, eq_lastPage (bearerJson_answers hdata)] at htracks
      obtain rfl := Option.some.inj htracks
      decide
  · constructor
    · rintro s page - ⟨next, -, -, -, hpage⟩
      rw [eq_lastPage (Deezer.getJson_answers (page?_eq hpage))]
      decide
    · intro fuel s _ body hbody
      rw [eq_lastPage (Deezer.readAlbums_answers hbody)]
      decide
  · rintro s page - ⟨next, -, -, -, hpage⟩ hnext
    rw [eq_lastPage (Deezer.getJson_answers (page?_eq hpage))] at hnext
    exact absurd hnext (by decide)

/-! ### An upstream without end -/

def albumsUrl : List Char := "https://api.deezer.com/artist/1/albums?limit=100&index=".toList

/-- The cursor of the `n`-th page: one more digit each time. -/
def cursor (n : ℕ) : String := String.ofList (albumsUrl ++ List.replicate n '1')

theorem length_cursor (n : ℕ) : (cursor n).length = 55 + n := by
  have hbase : albumsUrl.length = 55 := by decide
  rw [cursor, String.length_ofList, List.length_append, List.length_replicate, hbase]

/-- Every page is empty and names another one. -/
def freshPages (limit : Option ℚ) : Inquiry :=
  { lastPages limit with
    platform := ⟨fun text _ => some ⟨"https:", "api.deezer.com", "https://api.deezer.com", "/artist/1/albums", text⟩,
      fun s => s, fun _ => none⟩
    world := ⟨fun n _ => .response 200 (.ok (.obj [("data", .arr []), ("next", .str (cursor n))])) "", fun _ => 0⟩ }

theorem validated_cursor (limit : Option ℚ) (n : ℕ) :
    Deezer.validatedDeezerCursor (freshPages limit).platform (some (.str (cursor n))) = some (cursor n) := by
  have hne : cursor n ≠ "" := by
    intro h
    have hlength := length_cursor n
    rw [h, String.length_empty] at hlength
    omega
  have htruthy : Json.truthy (some (.str (cursor n))) = true := decide_eq_true hne
  rw [Deezer.validatedDeezerCursor, validatedCursor, if_pos htruthy, Json.toText, Json.text]
  rfl

/-- After so many pages of an endless supply. -/
structure StillReading (n : ℕ) (s : Deezer.Albums) : Prop where
  requests : s.session.requests = n
  albums : s.albums = []
  next : ∃ next, s.albumNext = some next ∧ next.length < 55 + n ∧
    ∀ visited ∈ s.visitedAlbumPages, visited.length < next.length

theorem StillReading.pass (limit : Option ℚ) {n : ℕ} {s : Deezer.Albums} (h : StillReading n s) :
    ∃ s', Deezer.pass (freshPages limit).platform (freshPages limit).world s = .again s' ∧ StillReading (n + 1) s' := by
  obtain ⟨next, hnext, hlength, hvisited⟩ := h.next
  have hfresh : ¬ (next ∈ s.visitedAlbumPages ∨ 500 ≤ s.albums.length) := by
    rw [h.albums, not_or]
    exact ⟨fun hmem => absurd (hvisited next hmem) (Nat.lt_irrefl _), by decide⟩
  refine ⟨_, by rw [Deezer.pass, hnext]; dsimp only; rw [if_neg hfresh]; rfl, ?_⟩
  constructor
  · show s.session.requests + 1 = n + 1
    rw [h.requests]
  · show s.albums ++ [] = []
    rw [h.albums]
    rfl
  · refine ⟨cursor s.session.requests, validated_cursor limit _, ?_, fun visited hmem => ?_⟩
    · rw [length_cursor, h.requests]
      omega
    · rw [length_cursor, h.requests]
      rcases List.mem_append.1 hmem with hmem | hmem
      · exact (hvisited visited hmem).trans hlength
      · rw [List.mem_singleton.1 hmem]
        exact hlength

/-- However many passes are made, another page is asked for. -/
theorem stillReading_run (limit : Option ℚ) (fuel : ℕ) {n : ℕ} {s : Deezer.Albums} (h : StillReading n s) :
    ∃ s', Data.Loop.run (Deezer.pass (freshPages limit).platform (freshPages limit).world) fuel s = .again s' ∧
      StillReading (n + fuel) s' := by
  induction fuel generalizing n s with
  | zero => exact ⟨s, rfl, h⟩
  | succ fuel ih =>
    obtain ⟨s', hpass, hs'⟩ := h.pass limit
    obtain ⟨s'', hrun, hs''⟩ := ih hs'
    refine ⟨s'', (Data.Loop.run_again hpass fuel).trans hrun, ?_⟩
    rwa [show n + (fuel + 1) = n + 1 + fuel by omega]

theorem stillReading_start (limit : Option ℚ) : StillReading 0 (Deezer.start (freshPages limit).session
    (Deezer.firstPage (freshPages limit).platform (freshPages limit).artist)) :=
  have hlength : ("https://api.deezer.com/artist/1/albums?limit=100" : String).length < 55 := by decide
  ⟨rfl, rfl, _, rfl, hlength, fun visited hmem => absurd hmem List.not_mem_nil⟩

theorem freshPages_none (limit : Option ℚ) (rows fuel : ℕ) :
    Deezer.enumerate (freshPages limit).platform (freshPages limit).letters (freshPages limit).world
      (freshPages limit).artist (freshPages limit).artistName rows (freshPages limit).session fuel = none := by
  obtain ⟨s', hrun, -⟩ := stillReading_run limit fuel (stillReading_start limit)
  rw [Deezer.enumerate, hrun]

/-- The pages of releases that are asked for have no bound, and the loop does not end. -/
theorem freshPages_endless : ∃ q : Inquiry, ¬ q.Ends ∧
    (∀ fuel, Deezer.listArtistCatalog q.platform q.letters q.world q.artist q.artistName q.limit q.session fuel = none) ∧
    ∀ bound, ∃ s, Data.Loop.Reaches (Deezer.pass q.platform q.world)
      (Deezer.start q.session (Deezer.firstPage q.platform q.artist)) s ∧ bound < s.session.requests := by
  have hlimit : normalizeStoreCatalogLimit (some 100) = .ok 100 := rfl
  have hnone (fuel : ℕ) : Deezer.listArtistCatalog (freshPages (some 100)).platform (freshPages (some 100)).letters
      (freshPages (some 100)).world (freshPages (some 100)).artist (freshPages (some 100)).artistName (some 100)
      (freshPages (some 100)).session fuel = none := by
    rw [Deezer.listArtistCatalog, withLimit, hlimit]
    dsimp only
    rw [freshPages_none, Option.map_none]
  refine ⟨freshPages (some 100), fun hends => ?_, hnone, fun bound => ?_⟩
  · obtain ⟨fuel, catalog, session, hrun, -⟩ := hends.deezer
    exact absurd ((hnone fuel).symm.trans hrun) (by simp)
  · obtain ⟨s, hrun, hs⟩ := stillReading_run (some 100) (bound + 1) (stillReading_start (some 100))
    refine ⟨s, Data.Loop.reaches_of_run .start hrun, ?_⟩
    rw [hs.requests]
    omega

end CatalogSentinel.Stores
