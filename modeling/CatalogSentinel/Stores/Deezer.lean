import CatalogSentinel.Stores.Catalog

/-!
The Deezer catalogue of an artist that has been resolved: the albums page by page, and then
the tracks of the first eighty of them. What bounds the album pages is the number of albums
that they bring, not that of the pages.
-/

namespace CatalogSentinel.Stores.Deezer

open Data (Pass)

variable (platform : Platform) (letters : Letters) (world : World)

def getJson (s : Session) (url : String) : Option Json × Session :=
  match fetch world s url with
  | (.response status (.ok body) _, s) => (if isOk status then some body else none, s)
  | (_, s) => (none, s)

def validatedDeezerCursor (value : Option Json) : Option String :=
  validatedCursor platform "api.deezer.com" value

/-! ### The releases of the artist -/

structure Albums where
  session : Session
  albumNext : Option String
  visitedAlbumPages : List String
  albums : List Json
  albumsComplete : Bool

/-- `a?.id != null` -/
def hasId (album : Json) : Bool := Json.given (Json.readIf "id" (some album))

/-- `for (const a of page.data ?? []) { if (a?.id != null) albums.push(a); }` -/
def albumsOf (page : Json) : Except TypeError (List Json) :=
  (Json.iterate (page.field "data")).map (List.filter hasId)

/-- `while (albumNext) { … }` -/
def pass (s : Albums) : Pass Albums (Albums × Option TypeError) :=
  match s.albumNext with
  | none => .done (s, none)
  | some albumNext =>
    if albumNext ∈ s.visitedAlbumPages ∨ 500 ≤ s.albums.length then .done ({ s with albumsComplete := false }, none)
    else
      let (body, session) := getJson world s.session albumNext
      let s := { s with session, visitedAlbumPages := s.visitedAlbumPages ++ [albumNext] }
      match page? body with
      | none => .done ({ s with albumsComplete := false }, none)
      | some page =>
        match albumsOf page with
        | .error error => .done (s, some error)
        | .ok albums =>
          .again { s with
            albums := s.albums ++ albums
            albumNext := validatedDeezerCursor platform (page.field "next") }

def firstPage (artist : Artist Json) : String :=
  s!"https://api.deezer.com/artist/{platform.encodeURIComponent artist.id}/albums?limit=100"

def start (session : Session) (url : String) : Albums :=
  { session, albumNext := some url, visitedAlbumPages := [], albums := [], albumsComplete := true }

/-! ### The tracks of a release -/

def maxAlbums : ℕ := 80

/-- The body of the response for a release, or that its id cannot be written into a URL. -/
def readAlbum (s : Session) (album : Json) : Except TypeError (Option Json) × Session :=
  match Json.toText (album.field "id") with
  | .error error => (.error error, s)
  | .ok id =>
    let (body, s) := getJson world s
      s!"https://api.deezer.com/album/{platform.encodeURIComponent id}/tracks?limit=200"
    (.ok (page? body), s)

def readAlbums (s : Session) : List Json → List (Except TypeError (Option Json)) × Session
  | [] => ([], s)
  | album :: albums =>
    let (body, s) := readAlbum platform world s album
    let (bodies, s) := readAlbums s albums
    (body :: bodies, s)

/-- The tracks so far, or all of them if the limit has been reached. -/
structure Tracks where
  listing : Listing
  cappedByLimit : Bool

/-- `normalizeIsrc(track.isrc) ?? (normalizeTitle(track.title ?? '') || String(track.id))` -/
def keyOf (track : Json) : Except TypeError String := do
  match ← isrcOf letters (track.field "isrc") with
  | some isrc => return isrc
  | none =>
    let title ← titleOf letters (some (Json.orElse (.str "") (track.field "title")))
    if title ≠ "" then return title else Json.toText (track.field "id")

def urlOf (track : Json) : Except TypeError (Option Json) :=
  if Json.given (track.field "link") then .ok (track.field "link")
  else if Json.truthy (track.field "id") then
    (Json.toText (track.field "id")).map fun id => some (.str s!"https://www.deezer.com/track/{id}")
  else .ok none

def addTrack (artist : Artist Json) (limit : ℕ) (album : Json) (s : Tracks) (track : Json) : Except TypeError Tracks := do
  if s.cappedByLimit then return s
  let credited ← Json.read "artist" (some track)
  let creditedId := Json.readIf "id" credited
  if Json.truthy creditedId && (← Json.toText creditedId) ≠ artist.id then return s
  let key ← keyOf letters track
  if key ∈ s.listing.seen then return s
  let isrc ← isrcOf letters (track.field "isrc")
  let url ← urlOf track
  let trackAlbum := track.field "album"
  let listing := s.listing.add key
    { title := Json.orElse (.str "") (Json.orElseRead (track.field "title") (track.field "title_short"))
      primaryArtist := Json.orElse artist.name (Json.readIf "name" credited)
      album := Json.orElseRead (album.field "title") (Json.orElseRead (Json.readIf "title" trackAlbum) none)
      isrc := isrc
      url := url
      releaseDate := Json.orElseRead (album.field "release_date") none
      artworkUrl := Json.orElseRead (album.field "cover_medium") (Json.orElseRead (album.field "cover")
        (Json.orElseRead (Json.readIf "cover_medium" trackAlbum)
          (Json.orElseRead (Json.readIf "cover" trackAlbum) none))) }
  return ⟨listing, limit ≤ listing.tracks.length⟩

/-- The rows of one release after the other, until the limit has been reached. -/
def addAlbum (artist : Artist Json) (limit : ℕ) (s : Tracks) (album : Json × Option Json) : Except TypeError Tracks := do
  if s.cappedByLimit then return s
  let rows ← Json.iterate (album.2.bind fun body => body.field "data")
  rows.foldlM (addTrack letters artist limit album.1) s

/-- The catalogue that the releases come to. -/
def catalog (artist : Artist Json) (artistName : String) (limit : ℕ) (s : Albums) (requestFailed : Bool) (tracks : Tracks) :
    StoreArtistCatalog Json :=
  let cappedAlbums := maxAlbums < s.albums.length
  let complete := s.albumsComplete && !requestFailed && !cappedAlbums && !tracks.cappedByLimit
  let warnings :=
    if requestFailed then ["A Deezer album track request failed; the catalog is incomplete."]
    else if !s.albumsComplete then ["Deezer album pagination was incomplete; the catalog is incomplete."]
    else if cappedAlbums then
      [s!"Deezer artist has more than {maxAlbums} releases; only the newest were read, so the catalog is incomplete."]
    else if tracks.cappedByLimit then
      [s!"Deezer catalog reached the configured {limit}-track limit before every release was read; the catalog is incomplete."]
    else if tracks.listing.tracks.isEmpty then
      [s!"Deezer resolved the artist but returned no released tracks for \"{artistName}\"."]
    else []
  { store := "Deezer"
    artist := some artist
    tracks := tracks.listing.tracks
    pagination := ⟨some tracks.listing.tracks.length, tracks.listing.tracks.length, complete⟩
    warnings := warnings }

/-- What follows the album pages. -/
def readTracks (artist : Artist Json) (artistName : String) (limit : ℕ) (s : Albums) :
    Except TypeError (StoreArtistCatalog Json) × Session :=
  let scope := s.albums.take maxAlbums
  let (bodies, session) := readAlbums platform world s.session scope
  let catalog : Except TypeError (StoreArtistCatalog Json) := do
    let perAlbum ← bodies.mapM (·)
    let requestFailed := perAlbum.any (·.isNone)
    let tracks ← (scope.zip perAlbum).foldlM (addAlbum letters artist limit) ⟨⟨[], []⟩, false⟩
    return catalog artist artistName limit s requestFailed tracks
  (catalog, session)

/-- The loop, with so many passes at most, and the tracks; what they come to, if it has ended. -/
def enumerate (artist : Artist Json) (artistName : String) (limit : ℕ) (session : Session) (fuel : ℕ) :
    Option (Except TypeError (StoreArtistCatalog Json) × Session) :=
  match Data.Loop.run (pass platform world) fuel (start session (firstPage platform artist)) with
  | .again _ => none
  | .done (s, some error) => some (.error error, s.session)
  | .done (s, none) => some (readTracks platform letters world artist artistName limit s)

/-- From where the artist has been resolved. -/
def listArtistCatalog (artist : Artist Json) (artistName : String) (limit : Option ℚ)
    (session : Session) (fuel : ℕ) : Option (Except Thrown (StoreArtistCatalog Json) × Session) :=
  withLimit limit session fun limit =>
    enumerate platform letters world artist artistName limit session fuel

/-! ### Releases that can be read -/

def readableTrack (track : Json) : Bool :=
  Json.given (some track) &&
    (!Json.truthy (Json.readIf "id" (track.field "artist")) ||
      (Json.toText (Json.readIf "id" (track.field "artist"))).isOk) &&
    Json.textOrFalse (track.field "isrc") && Json.textOrNothing (track.field "title") &&
    (Json.toText (track.field "id")).isOk

def readableRelease (body : Json) : Bool :=
  match Json.iterate (body.field "data") with
  | .ok rows => rows.all readableTrack
  | .error _ => false

/-- The id can be written into a URL. -/
def readableAlbum (album : Json) : Bool := (Json.toText (album.field "id")).isOk

def readableAlbums (page : Json) : Bool :=
  match albumsOf page with
  | .ok albums => albums.all readableAlbum
  | .error _ => false

/-- A page brings a release that can be taken. -/
def brings (page : Json) : Bool :=
  match albumsOf page with
  | .ok albums => !albums.isEmpty
  | .error _ => false

variable {platform letters world} {artist : Artist Json} {limit : ℕ}

theorem getJson_requests (s : Session) (url : String) :
    (getJson world s url).2.requests = s.requests + 1 := by
  simp only [getJson, fetch]
  split
  · next h => rw [← (Prod.mk.inj h).2]
  · next h => rw [← (Prod.mk.inj h).2]

variable (platform world) in
theorem readAlbums_requests (albums : List Json) (s : Session) :
    (readAlbums platform world s albums).2.requests ≤ s.requests + albums.length := by
  induction albums generalizing s with
  | nil => exact Nat.le_refl _
  | cons album albums ih =>
    have hrest := ih (readAlbum platform world s album).2
    have hone : (readAlbum platform world s album).2.requests ≤ s.requests + 1 := by
      simp only [readAlbum]
      split
      · exact Nat.le_add_right _ _
      · exact Nat.le_of_eq (getJson_requests _ _)
    simp only [readAlbums, List.length_cons]
    omega

variable (platform world) in
theorem readAlbums_ok {albums : List Json} (h : ∀ a ∈ albums, readableAlbum a = true) (s : Session) :
    ∀ b ∈ (readAlbums platform world s albums).1, ∃ body, b = .ok body := by
  induction albums generalizing s with
  | nil => exact fun b hb => absurd hb List.not_mem_nil
  | cons album albums ih =>
    intro b hb
    simp only [readAlbums, List.mem_cons] at hb
    rcases hb with rfl | hb
    · obtain ⟨id, hid⟩ := Json.exists_of_isOk (h album List.mem_cons_self)
      exact ⟨_, by rw [readAlbum, hid]⟩
    · exact ih (fun a ha => h a (List.mem_cons_of_mem _ ha)) _ b hb

theorem toText_of_not_truthy {value : Option Json} (h : Json.truthy value = false) :
    ∃ s, Json.toText value = .ok s := by
  match value with
  | none => exact ⟨_, rfl⟩
  | some .null | some (.bool _) | some (.num _) | some (.str _) => exact ⟨_, by rw [Json.toText, Json.text]⟩
  | some (.arr _) | some (.obj _) => simp [Json.truthy] at h

theorem urlOf_total {track : Json} (h : (Json.toText (track.field "id")).isOk = true) :
    ∃ url, urlOf track = .ok url := by
  obtain ⟨id, hid⟩ := Json.exists_of_isOk h
  rw [urlOf]
  split
  · exact ⟨_, rfl⟩
  · split
    · exact ⟨_, by rw [hid]; rfl⟩
    · exact ⟨none, rfl⟩

variable (letters) in
theorem keyOf_total {track : Json} (hisrc : Json.textOrFalse (track.field "isrc") = true)
    (htitle : Json.textOrNothing (track.field "title") = true) (hid : (Json.toText (track.field "id")).isOk = true) :
    ∃ key, keyOf letters track = .ok key := by
  obtain ⟨isrc, hisrc⟩ := isrcOf_total letters hisrc
  obtain ⟨id, hid⟩ := Json.exists_of_isOk hid
  have htext : ∃ title, Json.asText (some (Json.orElse (.str "") (track.field "title"))) = .ok title := by
    match track.field "title", htitle with
    | none, _ | some .null, _ => exact ⟨"", rfl⟩
    | some (.str s), _ => exact ⟨s, rfl⟩
  obtain ⟨title, htitle⟩ := htext
  simp only [keyOf, hisrc, titleOf, htitle, bind, Except.bind, Except.map, pure, Except.pure]
  cases isrc with
  | some isrc => exact ⟨isrc, rfl⟩
  | none =>
    dsimp only
    split
    · exact ⟨_, rfl⟩
    · exact ⟨id, hid⟩

theorem addTrack_total {album : Json} {s : Tracks} {track : Json} (h : readableTrack track = true) :
    ∃ s', addTrack letters artist limit album s track = .ok s' := by
  simp only [readableTrack, Bool.and_eq_true] at h
  obtain ⟨⟨⟨⟨hgiven, hcredit⟩, hisrc⟩, htitle⟩, hid⟩ := h
  obtain ⟨key, hkey⟩ := keyOf_total letters hisrc htitle hid
  obtain ⟨isrc, hisrc⟩ := isrcOf_total letters hisrc
  obtain ⟨url, hurl⟩ := urlOf_total hid
  obtain ⟨creditedId, hcreditedId⟩ : ∃ id, Json.toText (Json.readIf "id" (track.field "artist")) = .ok id := by
    rw [Bool.or_eq_true, Bool.not_eq_true'] at hcredit
    rcases hcredit with hfalse | hok
    · exact toText_of_not_truthy hfalse
    · exact Json.exists_of_isOk hok
  simp only [addTrack, Json.read_ok hgiven, hkey, hisrc, hurl, hcreditedId, bind, Except.bind, pure, Except.pure]
  split
  · exact ⟨_, rfl⟩
  · split
    · exact ⟨_, rfl⟩
    · split
      · exact ⟨_, rfl⟩
      · exact ⟨_, rfl⟩

theorem addAlbum_total {s : Tracks} {album : Json × Option Json}
    (h : ∀ body ∈ album.2, readableRelease body = true) :
    ∃ s', addAlbum letters artist limit s album = .ok s' := by
  simp only [addAlbum, bind, Except.bind, pure, Except.pure]
  split
  · exact ⟨_, rfl⟩
  · cases hbody : album.2 with
    | none =>
      simp only [Option.bind_none, Json.iterate]
      exact ⟨_, rfl⟩
    | some body =>
      have hreadable := h body hbody
      simp only [readableRelease] at hreadable
      split at hreadable
      · next rows hrows =>
        rw [List.all_eq_true] at hreadable
        simp only [Option.bind_some, hrows]
        exact foldlM_total _ (fun s track htrack => addTrack_total (hreadable track htrack)) s
      · cases hreadable

/-- The releases are listed if they can be read. -/
theorem readTracks_total {artistName : String} {s : Albums} (halbums : ∀ a ∈ s.albums, readableAlbum a = true)
    (hbodies : ∀ body, .ok (some body) ∈ (readAlbums platform world s.session (s.albums.take maxAlbums)).1 →
      readableRelease body = true) :
    ∃ catalog, (readTracks platform letters world artist artistName limit s).1 = .ok catalog := by
  have hok := readAlbums_ok platform world
    (fun a (ha : a ∈ s.albums.take maxAlbums) => halbums a (List.mem_of_mem_take ha)) s.session
  obtain ⟨perAlbum, hperAlbum, hmem⟩ := mapM_total _ (f := fun b => b) hok
  obtain ⟨tracks, htracks⟩ := foldlM_total ((s.albums.take maxAlbums).zip perAlbum)
    (f := addAlbum letters artist limit) (fun s album halbum => addAlbum_total fun body hbody => by
      obtain ⟨b, hb, heq⟩ := hmem album.2 (List.of_mem_zip halbum).2
      rw [heq, Option.mem_def.1 hbody] at hb
      exact hbodies body hb) ⟨⟨[], []⟩, false⟩
  simp only [readTracks, hperAlbum, htracks, bind, Except.bind, pure, Except.pure]
  exact ⟨_, rfl⟩

/-! ### The loop ends where every page brings a release -/

/-- The page that a pass from here is given, if it asks for one. -/
def PageAt (world : World) (s : Albums) (page : Json) : Prop :=
  ∃ albumNext, s.albumNext = some albumNext ∧ albumNext ∉ s.visitedAlbumPages ∧ s.albums.length < 500 ∧
    page? (getJson world s.session albumNext).1 = some page

/-- Every page that names a next one brings a release. -/
def Advances (platform : Platform) (world : World) (start : Albums) : Prop :=
  ∀ s page, Data.Loop.Reaches (pass platform world) start s → PageAt world s page →
    (validatedDeezerCursor platform (page.field "next")).isSome → brings page = true

/-- What the loop and the releases are given can be read. -/
structure ReadsAll (platform : Platform) (world : World) (start : Albums) : Prop where
  pages : ∀ s page, Data.Loop.Reaches (pass platform world) start s → PageAt world s page → readableAlbums page = true
  releases : ∀ fuel s, Data.Loop.run (pass platform world) fuel start = .done (s, none) →
    ∀ body, .ok (some body) ∈ (readAlbums platform world s.session (s.albums.take maxAlbums)).1 →
      readableRelease body = true

/-- The releases that are still wanted, and the pass that finds no next page. -/
def potential (s : Albums) : ℕ := (500 - s.albums.length) + if s.albumNext.isSome then 1 else 0

theorem pass_again {s s' : Albums} (h : pass platform world s = .again s') :
    ∃ page albums, PageAt world s page ∧ albumsOf page = .ok albums ∧ s'.albums = s.albums ++ albums ∧
      s'.albumNext = validatedDeezerCursor platform (page.field "next") ∧
      s'.session.requests = s.session.requests + 1 := by
  simp only [pass] at h
  split at h
  · simp at h
  · next albumNext hnext =>
    split at h
    · simp at h
    · next hgoes =>
      rw [not_or, not_le] at hgoes
      split at h
      · simp at h
      · next page hpage =>
        split at h
        · simp at h
        · next albums halbums =>
          obtain rfl := Pass.again.inj h
          exact ⟨page, albums, ⟨albumNext, hnext, hgoes.1, hgoes.2, hpage⟩, halbums, rfl, rfl, getJson_requests _ _⟩

theorem pass_done {s : Albums} {ended : Albums × Option TypeError} (h : pass platform world s = .done ended) :
    ended.1.session.requests ≤ s.session.requests + 1 ∧ ended.1.albums = s.albums ∧
      (ended.2 = none ∨ ∃ page, PageAt world s page ∧ readableAlbums page = false) := by
  simp only [pass] at h
  split at h
  · obtain rfl := Pass.done.inj h
    exact ⟨Nat.le_succ _, rfl, .inl rfl⟩
  · next albumNext hnext =>
    split at h
    · obtain rfl := Pass.done.inj h
      exact ⟨Nat.le_succ _, rfl, .inl rfl⟩
    · next hgoes =>
      rw [not_or, not_le] at hgoes
      split at h
      · obtain rfl := Pass.done.inj h
        exact ⟨Nat.le_of_eq (getJson_requests _ _), rfl, .inl rfl⟩
      · next page hpage =>
        split at h
        · next error herror =>
          obtain rfl := Pass.done.inj h
          refine ⟨Nat.le_of_eq (getJson_requests _ _), rfl,
            .inr ⟨page, ⟨albumNext, hnext, hgoes.1, hgoes.2, hpage⟩, ?_⟩⟩
          rw [readableAlbums, herror]
        · simp at h

theorem pass_spends {start s : Albums} (hadvances : Advances platform world start)
    (hreaches : Data.Loop.Reaches (pass platform world) start s) :
    Data.Loop.Spends (pass platform world) potential (·.session.requests)
      (fun ended : Albums × Option TypeError => ended.1.session.requests) 1 s where
  again := by
    intro s' h
    obtain ⟨page, albums, hpage, halbums, hlist, hnext, hrequests⟩ := pass_again h
    refine ⟨?_, hrequests.le⟩
    obtain ⟨albumNext, hsome, -, hroom, -⟩ := id hpage
    have hlength : s'.albums.length = s.albums.length + albums.length := by rw [hlist, List.length_append]
    simp only [potential, hsome, Option.isSome_some, if_true]
    split
    · next hmore =>
      have hbrings := hadvances s page hreaches hpage (by rw [← hnext]; exact hmore)
      have hpos : 0 < albums.length := by
        simpa [brings, halbums, List.length_pos_iff] using hbrings
      omega
    · omega
  done := fun ended h => (pass_done h).1

theorem albums_readable {start s : Albums} (hstart : start.albums = [])
    (hpages : ∀ s page, Data.Loop.Reaches (pass platform world) start s → PageAt world s page →
      readableAlbums page = true)
    (hreaches : Data.Loop.Reaches (pass platform world) start s) : ∀ a ∈ s.albums, readableAlbum a = true := by
  refine hreaches.keeps (fun s => ∀ a ∈ s.albums, readableAlbum a = true) ?_ ?_
  · rw [hstart]
    exact fun a ha => absurd ha List.not_mem_nil
  · intro s s' hs hinv hbody a ha
    obtain ⟨page, albums, hpage, halbums, hlist, -, -⟩ := pass_again hbody
    rw [hlist] at ha
    rcases List.mem_append.1 ha with ha | ha
    · exact hinv a ha
    · have hreadable := hpages s page hs hpage
      simp only [readableAlbums, halbums, List.all_eq_true] at hreadable
      exact hreadable a ha

/-- The catalogue is enumerated with at most so many requests if every page that names a next
one brings a release, and returned if what is read can be read. -/
theorem enumerate_ends (platform : Platform) (letters : Letters) (world : World)
    (artist : Artist Json) (artistName : String) (limit : ℕ) (session : Session)
    (hadvances : Advances platform world (start session (firstPage platform artist))) :
    ∃ result session', enumerate platform letters world artist artistName limit session 502 =
        some (result, session') ∧
      session'.requests ≤ session.requests + 582 ∧
      (ReadsAll platform world (start session (firstPage platform artist)) → ∃ catalog, result = .ok catalog) := by
  obtain ⟨⟨s, thrown⟩, hend, hsent⟩ := Data.Loop.run_ends (start session (firstPage platform artist))
    fun s hs => pass_spends hadvances hs
  have hend' : Data.Loop.run (pass platform world) 502 (start session (firstPage platform artist)) =
      .done (s, thrown) := hend
  have hsent' : s.session.requests ≤ session.requests + 502 := hsent
  cases thrown with
  | some error =>
    refine ⟨_, _, by rw [enumerate, hend'], hsent'.trans (Nat.add_le_add_left (by decide) _), fun hall => ?_⟩
    have hnone := Data.Loop.done_of_run (P := fun ended : Albums × Option TypeError => ended.2 = none) hend'
      fun s ended hreaches hdone => by
        obtain ⟨-, -, hnone | ⟨page, hpage, hunreadable⟩⟩ := pass_done hdone
        · exact hnone
        · rw [hall.pages s page hreaches hpage] at hunreadable
          cases hunreadable
    cases hnone
  | none =>
    have hrelease := readAlbums_requests platform world (s.albums.take maxAlbums) s.session
    have hcapped : (s.albums.take maxAlbums).length ≤ 80 := by
      rw [List.length_take]
      exact Nat.min_le_left _ _
    refine ⟨_, _, by rw [enumerate, hend'], ?_, fun hall => ?_⟩
    · simp only [readTracks]
      omega
    · refine readTracks_total ?_ (hall.releases 502 s hend')
      exact Data.Loop.done_of_run
        (P := fun ended : Albums × Option TypeError => ∀ a ∈ ended.1.albums, readableAlbum a = true)
        hend' fun s ended hreaches hdone => by
          rw [(pass_done hdone).2.1]
          exact albums_readable rfl hall.pages hreaches

theorem getJson_answers {s : Session} {url : String} {body : Json}
    (h : (getJson world s url).1 = some body) : world.Answers body := by
  simp only [getJson, fetch] at h
  split at h
  · next hreply =>
    obtain rfl : _ = body := by
      dsimp only at h
      split at h
      · exact Option.some.inj h
      · simp at h
    exact ⟨_, _, _, _, (Prod.mk.inj hreply).1⟩
  · simp at h

theorem readAlbums_answers {albums : List Json} {s : Session} {body : Json}
    (h : .ok (some body) ∈ (readAlbums platform world s albums).1) : world.Answers body := by
  induction albums generalizing s with
  | nil => exact absurd h List.not_mem_nil
  | cons album albums ih =>
    simp only [readAlbums, List.mem_cons] at h
    rcases h with h | h
    · simp only [readAlbum] at h
      split at h
      · simp at h
      · exact getJson_answers (page?_eq (Except.ok.inj h).symm)
    · exact ih h

end CatalogSentinel.Stores.Deezer
