import CatalogSentinel.Stores.Catalog

/-!
The tracks that a search on Spotify finds for an artist, by offset. A page that repeats an
earlier one, or brings nothing although more is announced, ends the search.
-/

namespace CatalogSentinel.Stores.Spotify

open Data (Pass trim)

variable (platform : Platform) (letters : Letters) (world : World)

def bearer : BearerApi where
  tokenUrl := "https://accounts.spotify.com/api/token"
  margin := 5000
  tokenStatus := fun _ => none
  tokenMissing := none
  tokenFailure := fun _ => none
  unavailable := "Could not obtain a Spotify access token."
  refreshFailed := "Spotify access-token refresh failed after HTTP 401."
  status := fun status text => trim s!"{status} {String.ofList (text.toList.take 180)}"
  failure := fun error => error.message

/-- `this.api(path)` -/
def request (attempts : ℕ) (s : Session) (path : String) : Option Json × Session :=
  bearerJson platform world bearer attempts s s!"https://api.spotify.com/v1{path}"

/-- One row of `JSON.stringify(items.map(…))`: what is missing is written as `null`. -/
def signatureRow (track : Json) : Except TypeError Json := do
  let urls ← Json.read "external_urls" (some track)
  return .arr <| [Json.readIf "spotify" urls, Json.readIf "isrc" (track.field "external_ids"), track.field "name"].map
    (·.getD .null)

structure Search where
  session : Session
  fetched : ℕ
  total : Option ℚ
  hasMore : Bool
  requestFailed : Bool
  pageSignatures : List (List Json)
  artist : Option (Artist Json)
  listing : Listing

abbrev Ended := Search × Option TypeError

/-- `primary.external_urls?.spotify ?? …` -/
def artistOf (primary : Json) : Except TypeError (Artist Json) := do
  let id := Json.toText (primary.field "id")
  let spotify := Json.readIf "spotify" (primary.field "external_urls")
  let url ← if Json.given spotify then pure (Json.orElse .null spotify)
    else id.map fun id => Json.str s!"https://open.spotify.com/artist/{id}"
  return ⟨id.toOption.getD "", Json.orElse .null (primary.field "name"), url⟩

def imageUrl (images : Option Json) (index : ℕ) : Option Json :=
  match images with
  | some (.arr images) => Json.readIf "url" images[index]?
  | some images => Json.readIf "url" (images.field (toString index))
  | none => none

/-- The row of a page, which is listed if its first artist is the one who was asked for. -/
def addTrack (artistName : String) (found : Option (Artist Json) × Listing) (track : Json) :
    Except TypeError (Option (Artist Json) × Listing) := do
  let primary := Json.firstIf (← Json.read "artists" (some track))
  if !Json.truthy primary then return found
  let name ← Json.asText (← Json.read "name" primary)
  if normalizeArtist letters name ≠ normalizeArtist letters artistName then return found
  let artist ← match found.1, primary with
    | some artist, _ => pure artist
    | none, some primary => artistOf primary
    | none, none => Json.throw
  let isrc ← isrcOf letters (Json.readIf "isrc" (track.field "external_ids"))
  let key ← match isrc with
    | some isrc => pure isrc
    | none => titleOf letters (track.field "name")
  let album := track.field "album"
  let images := Json.readIf "images" album
  return (some artist, found.2.add key
    { title := Json.orElse .null (track.field "name")
      primaryArtist := .str name
      album := Json.orElseRead (Json.readIf "name" album) none
      isrc := isrc
      url := Json.orElseRead (Json.readIf "spotify" (track.field "external_urls")) none
      releaseDate := Json.orElseRead (Json.readIf "release_date" album) none
      artworkUrl := Json.orElseRead (imageUrl images 1) (Json.orElseRead (imageUrl images 0) none) })

/-- Whether more is announced after a page, and whether its announcements contradict each other. -/
def announced (fetched : ℕ) (total : Option ℚ) (responseHasNext : Bool) : Bool × Bool :=
  match total with
  | some total => if total ≤ fetched then (false, responseHasNext) else (true, false)
  | none => (responseHasNext, false)

/-- The rows of a page and where to go on from it. -/
def readPage (artistName : String) (s : Search) (tracks : Json) : Except TypeError (Pass Search Search) := do
  let items ← Json.rows (tracks.field "items")
  let pageSignature ← items.mapM signatureRow
  if !items.isEmpty && s.pageSignatures.any (Json.sameItems pageSignature) then
    return .done { s with requestFailed := true }
  let pageSignatures := if items.isEmpty then s.pageSignatures else s.pageSignatures ++ [pageSignature]
  let total := Json.number? (tracks.field "total") <|> s.total
  let (artist, listing) ← items.foldlM (addTrack letters artistName) (s.artist, s.listing)
  let fetched := s.fetched + items.length
  let (hasMore, contradicted) := announced fetched total (Json.truthy (tracks.field "next"))
  let s := { s with
    fetched, total, hasMore, pageSignatures, artist, listing
    requestFailed := s.requestFailed || contradicted }
  return if items.isEmpty && hasMore then .done { s with requestFailed := true } else .again s

/-- At most ten rows from where the search has come to. -/
def searchPath (artistName : String) (limit fetched : ℕ) : String :=
  let query := platform.encodeURIComponent s!"artist:\"{artistName}\""
  let pageSize := min 10 (limit - fetched)
  s!"/search?q={query}&type=track&limit={pageSize}&offset={fetched}"

/-- `while (hasMore && fetched < limit) { … }` -/
def pass (attempts : ℕ) (artistName : String) (limit : ℕ) (s : Search) : Pass Search Ended :=
  if !s.hasMore || limit ≤ s.fetched then .done (s, none)
  else
    let (data, session) := request platform world attempts s.session (searchPath platform artistName limit s.fetched)
    let s := { s with session }
    match page? (Json.readIf "tracks" data) with
    | none => .done ({ s with requestFailed := true }, none)
    | some tracks =>
      match readPage letters artistName s tracks with
      | .error error => .done (s, some error)
      | .ok (.done s) => .done (s, none)
      | .ok (.again s) => .again s

def start (session : Session) : Search :=
  { session := { session with lastError := none }, fetched := 0, total := none, hasMore := true,
    requestFailed := false, pageSignatures := [], artist := none, listing := ⟨[], []⟩ }

/-- `/premium/i.test(error)` -/
def saysPremium (error : String) : Bool :=
  (error.toList.map Char.toLower).tails.any ("premium".toList).isPrefixOf

/-- The catalogue that the pages come to, which is never complete. -/
def catalog (artistName : String) (limit : ℕ) (s : Search) : StoreArtistCatalog Json :=
  let capped := limit ≤ s.fetched && s.hasMore
  let failed := s.session.lastError.filter (· ≠ "")
  let warnings := match failed with
    | some error =>
      [if saysPremium error then "Spotify Web API requires the app owner to have an active Spotify Premium subscription."
      else s!"Spotify API error: {error}"]
    | none =>
      if capped then
        [s!"Spotify catalog reached the configured {limit}-track limit before every page was fetched; the catalog is incomplete."]
      else if s.requestFailed then
        ["Spotify catalog page request failed or did not advance; the catalog is incomplete."]
      else if s.artist.isNone then
        [s!"No exact Spotify artist catalog was resolved for \"{artistName}\"; absence cannot be verified."]
      else ["Spotify Search is non-exhaustive; exact per-track verification is required for every catalogue miss."]
  { store := "Spotify"
    artist := s.artist
    tracks := s.listing.tracks
    pagination := ⟨s.total, s.fetched, false⟩
    warnings := warnings }

/-- The loop, with so many passes at most; what it comes to, if it has ended. -/
def enumerate (attempts : ℕ) (artistName : String) (limit : ℕ) (session : Session) (fuel : ℕ) :
    Option (Except TypeError (StoreArtistCatalog Json) × Session) :=
  match Data.Loop.run (pass platform letters world attempts artistName limit) fuel (start session) with
  | .again _ => none
  | .done (s, some error) => some (.error error, s.session)
  | .done (s, none) => some (.ok (catalog artistName limit s), s.session)

/-- Where the credentials are configured. -/
def listArtistCatalog (attempts : ℕ) (artistName : String) (limit : Option ℚ)
    (session : Session) (fuel : ℕ) : Option (Except Thrown (StoreArtistCatalog Json) × Session) :=
  withLimit limit (start session).session fun limit =>
    enumerate platform letters world attempts artistName limit session fuel

/-! ### Pages that can be read -/

/-- The first artist has a name, and an id if there is no link. -/
def readableArtist (primary : Option Json) : Bool :=
  !Json.truthy primary || ((Json.asText (Json.readIf "name" primary)).isOk &&
    (Json.given (Json.readIf "spotify" (Json.readIf "external_urls" primary)) ||
      (Json.toText (Json.readIf "id" primary)).isOk))

def readableTrack (track : Json) : Bool :=
  Json.given (some track) && readableArtist (Json.firstIf (track.field "artists")) &&
    Json.textOrFalse (Json.readIf "isrc" (track.field "external_ids")) && (Json.asText (track.field "name")).isOk

def readable (tracks : Json) : Bool :=
  match Json.rows (tracks.field "items") with
  | .ok items => items.all readableTrack
  | .error _ => false

variable {platform letters world}

theorem given_of_truthy {value : Option Json} (h : Json.truthy value = true) : ∃ v, value = some v ∧ v ≠ .null := by
  cases value with
  | none => simp [Json.truthy] at h
  | some v =>
    refine ⟨v, rfl, ?_⟩
    rintro rfl
    simp [Json.truthy] at h

theorem readIf_field {name : String} {value : Json} (h : value ≠ .null) :
    Json.readIf name (some value) = value.field name := by
  cases value with
  | null => exact absurd rfl h
  | bool | num | str | arr | obj => rfl

theorem artistOf_total {primary : Json} (h : readableArtist (some primary) = true)
    (htruthy : Json.truthy (some primary) = true) : ∃ artist, artistOf primary = .ok artist := by
  obtain ⟨_, hsome, hne⟩ := given_of_truthy htruthy
  obtain rfl := Option.some.inj hsome
  simp only [readableArtist, htruthy, Bool.not_true, Bool.false_or, Bool.and_eq_true, Bool.or_eq_true,
    readIf_field hne] at h
  simp only [artistOf]
  split
  · exact ⟨_, rfl⟩
  · next hgiven =>
    obtain ⟨id, hid⟩ := Json.exists_of_isOk (h.2.resolve_left hgiven)
    simp only [hid, Except.map, bind, Except.bind, pure, Except.pure]
    exact ⟨_, rfl⟩

theorem addTrack_total {artistName : String} {found : Option (Artist Json) × Listing} {track : Json}
    (h : readableTrack track = true) : ∃ found', addTrack letters artistName found track = .ok found' := by
  simp only [readableTrack, Bool.and_eq_true] at h
  obtain ⟨⟨⟨hgiven, hartist⟩, hisrc⟩, hname⟩ := h
  obtain ⟨isrc, hisrc⟩ := isrcOf_total letters hisrc
  obtain ⟨title, htitle⟩ := Json.exists_of_isOk hname
  simp only [addTrack, Json.read_ok hgiven, bind, Except.bind, pure, Except.pure]
  split
  · exact ⟨_, rfl⟩
  · next htruthy =>
    simp only [Bool.not_eq_true', Bool.not_eq_false] at htruthy
    obtain ⟨primary, hprimary, hne⟩ := given_of_truthy htruthy
    rw [hprimary] at htruthy hartist
    have hartist' := hartist
    simp only [readableArtist, htruthy, Bool.not_true, Bool.false_or, Bool.and_eq_true, readIf_field hne] at hartist'
    obtain ⟨name, hname⟩ := Json.exists_of_isOk hartist'.1
    have hread : Json.read "name" (some primary) = .ok (primary.field "name") := by
      cases primary with
      | null => exact absurd rfl hne
      | bool | num | str | arr | obj => rfl
    simp only [hprimary, hread, hname]
    split
    · exact ⟨_, rfl⟩
    · obtain ⟨artist, hartist⟩ := artistOf_total hartist htruthy
      cases found.1 with
      | some known =>
        cases isrc with
        | some isrc =>
          simp only [hisrc]
          exact ⟨_, rfl⟩
        | none =>
          simp only [hisrc, titleOf, htitle, Except.map]
          exact ⟨_, rfl⟩
      | none =>
        cases isrc with
        | some isrc =>
          simp only [hartist, hisrc]
          exact ⟨_, rfl⟩
        | none =>
          simp only [hartist, hisrc, titleOf, htitle, Except.map]
          exact ⟨_, rfl⟩

variable (letters) in
/-- A readable page is read. -/
theorem readPage_total (artistName : String) {s : Search} {tracks : Json} (h : readable tracks = true) :
    ∃ next, readPage letters artistName s tracks = .ok next := by
  simp only [readable] at h
  split at h
  · next items hitems =>
    rw [List.all_eq_true] at h
    obtain ⟨signature, hsignature, -⟩ := mapM_total items (f := signatureRow) fun track htrack => by
      have hgiven := h track htrack
      simp only [readableTrack, Bool.and_eq_true] at hgiven
      exact ⟨_, by rw [signatureRow, Json.read_ok hgiven.1.1.1]; rfl⟩
    obtain ⟨found, hfound⟩ := foldlM_total items (f := addTrack letters artistName)
      (fun found track htrack => addTrack_total (h track htrack)) (s.artist, s.listing)
    simp only [readPage, hitems, hsignature, hfound, bind, Except.bind, pure, Except.pure]
    split
    · exact ⟨_, rfl⟩
    · exact ⟨_, rfl⟩
  · cases h

/-! ### The loop ends -/

/-- A search goes on from a page with more rows or with nothing more announced. -/
theorem readPage_ok {artistName : String} {s : Search} {tracks : Json} {next : Pass Search Search}
    (h : readPage letters artistName s tracks = .ok next) :
    (∀ s', next = .done s' → s'.session = s.session) ∧
      ∀ s', next = .again s' → s'.session = s.session ∧ s.fetched ≤ s'.fetched ∧
        (s'.hasMore = true → s.fetched < s'.fetched) := by
  simp only [readPage, bind, Except.bind, pure, Except.pure] at h
  cases hitems : Json.rows (tracks.field "items") with
  | error e => simp [hitems] at h
  | ok items =>
    simp only [hitems] at h
    cases hsignature : items.mapM signatureRow with
    | error e => simp [hsignature] at h
    | ok signature =>
      simp only [hsignature] at h
      split at h
      · obtain rfl := Except.ok.inj h
        refine ⟨fun s' hs' => ?_, fun s' hs' => nomatch hs'⟩
        obtain rfl := Pass.done.inj hs'
        rfl
      · cases hfound : items.foldlM (addTrack letters artistName) (s.artist, s.listing) with
        | error e => simp [hfound] at h
        | ok found =>
          simp only [hfound] at h
          obtain rfl := Except.ok.inj h
          split
          · refine ⟨fun s' hs' => ?_, fun s' hs' => nomatch hs'⟩
            obtain rfl := Pass.done.inj hs'
            rfl
          · next hmore =>
            refine ⟨fun s' hs' => (nomatch hs'), fun s' hs' => ?_⟩
            obtain rfl := Pass.again.inj hs'
            refine ⟨rfl, Nat.le_add_right _ _, fun hhas => ?_⟩
            dsimp only at hhas
            rw [hhas, Bool.and_true, List.isEmpty_iff] at hmore
            have := List.length_pos_iff.2 hmore
            dsimp only
            omega

variable {attempts limit : ℕ} {artistName : String}

/-- The page that a pass from here is given, if it asks for one. -/
def PageAt (platform : Platform) (world : World) (attempts : ℕ) (artistName : String) (limit : ℕ) (s : Search)
    (tracks : Json) : Prop :=
  s.hasMore = true ∧ s.fetched < limit ∧
    page? (Json.readIf "tracks" (request platform world attempts s.session
      (searchPath platform artistName limit s.fetched)).1) = some tracks

/-- The rows that are still wanted, and the pass that finds no more. -/
def potential (limit : ℕ) (s : Search) : ℕ := (limit - s.fetched) + if s.hasMore then 1 else 0

variable (platform world attempts) in
theorem request_requests (s : Session) (path : String) :
    (request platform world attempts s path).2.requests ≤ s.requests + 4 * attempts := bearerJson_requests rfl

variable (platform letters world attempts limit artistName) in
theorem pass_spends (s : Search) :
    Data.Loop.Spends (pass platform letters world attempts artistName limit) (potential limit) (·.session.requests)
      (fun ended : Ended => ended.1.session.requests) (4 * attempts) s where
  again := by
    intro s' h
    simp only [pass] at h
    split at h
    · simp at h
    · next hgoes =>
      simp only [Bool.or_eq_true, Bool.not_eq_true', decide_eq_true_eq, not_or, Bool.not_eq_false, not_le] at hgoes
      have hcost := request_requests platform world attempts s.session
        (searchPath platform artistName limit s.fetched)
      split at h
      · simp at h
      · split at h
        · simp at h
        · simp at h
        · next hread =>
          obtain rfl := Pass.again.inj h
          obtain ⟨hsession, hle, hmore⟩ := (readPage_ok hread).2 _ rfl
          dsimp only at hsession hle hmore
          refine ⟨?_, ?_⟩
          · simp only [potential, hgoes.1, if_true]
            split
            · next hhas =>
              have := hmore hhas
              omega
            · omega
          · rw [hsession]
            exact hcost
  done := by
    intro ended h
    simp only [pass] at h
    split at h
    · obtain rfl := Pass.done.inj h
      exact Nat.le_add_right _ _
    · have hcost := request_requests platform world attempts s.session
        (searchPath platform artistName limit s.fetched)
      split at h
      · obtain rfl := Pass.done.inj h
        exact hcost
      · split at h
        · obtain rfl := Pass.done.inj h
          exact hcost
        · next hread =>
          obtain rfl := Pass.done.inj h
          have hsession := (readPage_ok hread).1 _ rfl
          dsimp only at hsession ⊢
          rw [hsession]
          exact hcost
        · simp at h

/-- Every page that the loop is given can be read. -/
def ReadsAll (platform : Platform) (letters : Letters) (world : World) (attempts : ℕ) (artistName : String)
    (limit : ℕ) (session : Session) : Prop :=
  ∀ s tracks, Data.Loop.Reaches (pass platform letters world attempts artistName limit) (start session) s →
    PageAt platform world attempts artistName limit s tracks → readable tracks = true

/-- A pass that throws was given a page that cannot be read. -/
theorem pass_thrown {s : Search} {ended : Ended}
    (h : pass platform letters world attempts artistName limit s = .done ended) :
    ended.2 = none ∨ ∃ tracks, PageAt platform world attempts artistName limit s tracks ∧ readable tracks = false := by
  simp only [pass] at h
  split at h
  · obtain rfl := Pass.done.inj h
    exact .inl rfl
  · next hgoes =>
    simp only [Bool.or_eq_true, Bool.not_eq_true', decide_eq_true_eq, not_or, Bool.not_eq_false, not_le] at hgoes
    split at h
    · obtain rfl := Pass.done.inj h
      exact .inl rfl
    · next tracks hpage =>
      split at h
      · next error hthrown =>
        refine .inr ⟨tracks, ⟨hgoes.1, hgoes.2, hpage⟩, ?_⟩
        by_contra hreadable
        rw [Bool.not_eq_false] at hreadable
        obtain ⟨next, hnext⟩ := readPage_total letters artistName
          (s := { s with session := (request platform world attempts s.session
            (searchPath platform artistName limit s.fetched)).2 }) hreadable
        rw [hnext] at hthrown
        cases hthrown
      · obtain rfl := Pass.done.inj h
        exact .inl rfl
      · simp at h

/-- The catalogue is enumerated with at most so many requests, and returned if the pages can be read. -/
theorem enumerate_ends (platform : Platform) (letters : Letters) (world : World) (attempts : ℕ)
    (artistName : String) (limit : ℕ) (session : Session) :
    ∃ result session', enumerate platform letters world attempts artistName limit session (limit + 2) =
        some (result, session') ∧
      session'.requests ≤ session.requests + 4 * attempts * (limit + 2) ∧
      (ReadsAll platform letters world attempts artistName limit session → ∃ catalog, result = .ok catalog) := by
  obtain ⟨⟨s, thrown⟩, hend, hsent⟩ := Data.Loop.run_ends (start session) fun s _ =>
    pass_spends platform letters world attempts limit artistName s
  have hend' : Data.Loop.run (pass platform letters world attempts artistName limit) (limit + 2) (start session) =
      .done (s, thrown) := hend
  cases thrown with
  | none => exact ⟨_, _, by rw [enumerate, hend'], hsent, fun _ => ⟨_, rfl⟩⟩
  | some error =>
    refine ⟨_, _, by rw [enumerate, hend'], hsent, fun hall => ?_⟩
    have hnone := Data.Loop.done_of_run (P := fun ended : Ended => ended.2 = none) hend' fun s ended hreaches hdone => by
      obtain hnone | ⟨tracks, hpage, hreadable⟩ := pass_thrown hdone
      · exact hnone
      · rw [hall s tracks hreaches hpage] at hreadable
        cases hreadable
    cases hnone

end CatalogSentinel.Stores.Spotify
