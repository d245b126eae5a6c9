import CatalogSentinel.Stores.Catalog

/-!
The SoundCloud catalogue of an artist that has been resolved: the tracks of a user, page by
page.
-/

namespace CatalogSentinel.Stores.SoundCloud

open Data (Pass)

variable (platform : Platform) (letters : Letters) (world : World)

/-- A token that is granted at the first attempt or not at all. -/
def getToken (s : Session) : Option Json × Session :=
  match freshToken world 30000 s with
  | (some value, s) => (some value, s)
  | (none, s) =>
    match fetch world s "https://api.soundcloud.com/oauth/token" with
    | (.response status (.ok body) _, s) =>
      if !isOk status then (none, s)
      else
        match keepToken platform world body s with
        | .ok (value, s) => (value, s)
        | .error _ => (none, s)
    | (_, s) => (none, s)

def getJson (s : Session) (url : String) : Option Json × Session :=
  match getToken platform world s with
  | (none, s) => (none, s)
  | (some token, s) =>
    match Json.toText (some token) with
    | .error _ => (none, s)
    | .ok _ =>
      match fetch world s url with
      | (.response status (.ok body) _, s) => (if isOk status then some body else none, s)
      | (_, s) => (none, s)

def validatedSoundCloudCursor (value : Option Json) : Option String :=
  validatedCursor platform "api.soundcloud.com" value

/-- `(t.display_date ?? t.created_at ?? '').slice(0, 10) || null` -/
def releaseDate (track : Json) : Except TypeError (Option Json) :=
  match Json.orElse (.str "") (Json.orElseRead (track.field "display_date") (track.field "created_at")) with
  | .str date => .ok (if date = "" then none else some (.str (String.ofList (date.toList.take 10))))
  | .arr items => .ok (some (.arr (items.take 10)))
  | _ => Json.throw

def addTrack (user : Artist Json) (listing : Listing) (track : Json) : Except TypeError Listing := do
  let title ← Json.read "title" (some track)
  if !Json.truthy title then return listing
  let metadata := track.field "publisher_metadata"
  let isrc ← isrcOf letters (Json.readIf "isrc" metadata)
  let key ← match isrc with
    | some isrc => pure isrc
    | none => titleOf letters title
  if key ∈ listing.seen then return listing
  let releaseDate ← releaseDate track
  return listing.add key
    { title := Json.orElse (.str "") title
      primaryArtist := Json.orElse user.name
        (Json.orElseRead (Json.readIf "artist" metadata) (Json.readIf "username" (track.field "user")))
      album := Json.orElseRead (Json.readIf "album_title" metadata) none
      isrc := isrc
      url := Json.orElseRead (track.field "permalink_url") none
      releaseDate := releaseDate
      artworkUrl := Json.orElseRead (track.field "artwork_url") none }

/-- `page?.collection ?? []`: a text has a length and a `slice` as well. -/
def collection (page : Json) : Except TypeError (List Json) :=
  match page.field "collection" with
  | some (.str value) =>
    .ok (value.toList.flatMap fun ch => List.replicate (if ch.toNat < 0x10000 then 1 else 2) (.str (String.singleton ch)))
  | value => Json.rows value

def readRows (user : Artist Json) (page : Json) (room : ℕ) (total : Option ℚ) (listing : Listing) :
    Except TypeError PageRead := do
  let rows ← collection page
  let selected := rows.take room
  let listing ← selected.foldlM (addTrack letters user) listing
  return {
    examined := selected.length
    truncated := selected.length < rows.length
    total := total
    unusable := 0
    listing := listing }

def api (user : Artist Json) : CursorApi where
  getJson := getJson platform world
  malformed := fun _ => none
  readRows := readRows letters user
  cursor := fun page => page.field "next_href"
  validatedCursor := validatedSoundCloudCursor platform
  repeated := "SoundCloud returned a repeated pagination cursor; the catalog is incomplete."
  requestFailed := fun _ => "SoundCloud catalog page request failed; the catalog is incomplete."
  invalidCursor := "SoundCloud returned an invalid pagination cursor; the catalog is incomplete."
  notAdvanced := "SoundCloud pagination did not advance; the catalog is incomplete."

def firstPage (user : Artist Json) : String :=
  s!"https://api.soundcloud.com/users/{platform.encodeURIComponent user.id}/tracks?limit=50&linked_partitioning=true"

/-- The catalogue that the pages come to. -/
def catalog (user : Artist Json) (s : Progress) : StoreArtistCatalog Json :=
  let complete := s.complete && s.next.isNone
  let warnings := s.warnings ++
    if !complete && !s.warnings.any saysIncomplete then
      ["SoundCloud catalog was capped before every page was fetched; the catalog is incomplete."]
    else []
  let warnings := warnings ++
    if s.listing.tracks.isEmpty && complete then ["SoundCloud returned the user but no tracks."] else []
  { store := "SoundCloud"
    artist := some user
    tracks := s.listing.tracks
    pagination := ⟨none, s.fetched, complete⟩
    warnings := warnings }

/-- The loop, with so many passes at most; what it comes to, if it has ended. -/
def enumerate (user : Artist Json) (limit : ℕ) (session : Session) (fuel : ℕ) :
    Option (Except TypeError (StoreArtistCatalog Json) × Session) :=
  match Data.Loop.run ((api platform letters world user).pass limit) fuel
      (Progress.start session (firstPage platform user)) with
  | .again _ => none
  | .done (s, some error) => some (.error error, s.session)
  | .done (s, none) => some (.ok (catalog user s), s.session)

/-- From where the artist has been resolved. -/
def listArtistCatalog (user : Artist Json) (limit : Option ℚ)
    (session : Session) (fuel : ℕ) : Option (Except Thrown (StoreArtistCatalog Json) × Session) :=
  withLimit limit session fun limit =>
    enumerate platform letters world user limit session fuel

/-! ### Pages that can be read -/

/-- A track with a title, an ISRC and a date of the types that are declared, as far as they are there. -/
def readableTrack (track : Json) : Bool :=
  Json.given (some track) && Json.textOrFalse (track.field "title") &&
    Json.textOrFalse (Json.readIf "isrc" (track.field "publisher_metadata")) && (releaseDate track).isOk

/-- So many rows of the page can be read. -/
def readable (page : Json) (room : ℕ) : Bool :=
  match collection page with
  | .ok rows => (rows.take room).all readableTrack
  | .error _ => false

variable {platform letters world}

theorem addTrack_total {user : Artist Json} {listing : Listing} {track : Json} (h : readableTrack track = true) :
    ∃ listing', addTrack letters user listing track = .ok listing' := by
  simp only [readableTrack, Bool.and_eq_true] at h
  obtain ⟨⟨⟨hgiven, htitle⟩, hisrc⟩, hdate⟩ := h
  obtain ⟨isrc, hisrc⟩ := isrcOf_total letters hisrc
  obtain ⟨date, hdate⟩ := Json.exists_of_isOk hdate
  simp only [addTrack, Json.read_ok hgiven, hisrc, bind, Except.bind, pure, Except.pure]
  split
  · exact ⟨_, rfl⟩
  · next htruthy =>
    have htext : (Json.asText (track.field "title")).isOk = true := by
      simp only [Bool.not_eq_true', Bool.not_eq_false] at htruthy
      simpa [Json.textOrFalse, htruthy] using htitle
    obtain ⟨title, htitle⟩ := Json.exists_of_isOk htext
    cases isrc with
    | some isrc =>
      dsimp only
      split
      · exact ⟨_, rfl⟩
      · simp only [hdate]
        exact ⟨_, rfl⟩
    | none =>
      simp only [titleOf, htitle, Except.map]
      split
      · exact ⟨_, rfl⟩
      · simp only [hdate]
        exact ⟨_, rfl⟩

/-- The rows of a readable page are read. -/
theorem readRows_total {user : Artist Json} {page : Json} {room : ℕ} (h : readable page room = true) (total : Option ℚ)
    (listing : Listing) : ∃ read, readRows letters user page room total listing = .ok read := by
  simp only [readable] at h
  split at h
  · next rows hrows =>
    rw [List.all_eq_true] at h
    obtain ⟨listing', hlisting⟩ := foldlM_total (rows.take room) (f := addTrack letters user)
      (fun listing track htrack => addTrack_total (h track htrack)) listing
    simp only [readRows, hrows, hlisting, bind, Except.bind, pure, Except.pure]
    exact ⟨_, rfl⟩
  · cases h

/-! ### The loop ends -/

theorem getToken_requests {s s' : Session} {value : Option Json} (h : getToken platform world s = (value, s')) :
    s'.requests ≤ s.requests + 1 := by
  rw [getToken] at h
  split at h
  · next hfresh =>
    have := freshToken_requests hfresh
    rw [← (Prod.mk.inj h).2]
    omega
  · next s₁ hfresh =>
    have hsame := freshToken_requests hfresh
    simp only [fetch] at h
    split at h
    · next hreply =>
      have hs := (Prod.mk.inj hreply).2
      split at h
      · rw [← (Prod.mk.inj h).2, ← hs]
        exact Nat.le_of_eq (congrArg (· + 1) hsame)
      · split at h
        · next hkept =>
          have hkept := keepToken_requests hkept
          rw [← (Prod.mk.inj h).2, hkept, ← hs]
          exact Nat.le_of_eq (congrArg (· + 1) hsame)
        · rw [← (Prod.mk.inj h).2, ← hs]
          exact Nat.le_of_eq (congrArg (· + 1) hsame)
    · next hreply =>
      rw [← (Prod.mk.inj h).2, ← (Prod.mk.inj hreply).2]
      exact Nat.le_of_eq (congrArg (· + 1) hsame)

/-- A page costs a token and a request at most. -/
theorem getJson_requests {s s' : Session} {url : String} {body : Option Json}
    (h : getJson platform world s url = (body, s')) : s'.requests ≤ s.requests + 2 := by
  rw [getJson] at h
  split at h
  · next htoken =>
    have := getToken_requests htoken
    rw [← (Prod.mk.inj h).2]
    omega
  · next s₁ htoken =>
    have hsent := getToken_requests htoken
    split at h
    · rw [← (Prod.mk.inj h).2]
      omega
    · have hsent' : s₁.requests + 1 ≤ s.requests + 2 := by omega
      simp only [fetch] at h
      split at h
      · next hreply =>
        rw [← (Prod.mk.inj h).2, ← (Prod.mk.inj hreply).2]
        exact hsent'
      · next hreply =>
        rw [← (Prod.mk.inj h).2, ← (Prod.mk.inj hreply).2]
        exact hsent'

theorem api_sends (user : Artist Json) : (api platform letters world user).Sends 2 := fun _ _ => getJson_requests rfl

/-- The catalogue is enumerated with at most so many requests, and returned if the pages can be read. -/
theorem enumerate_ends (platform : Platform) (letters : Letters) (world : World)
    (user : Artist Json) (limit : ℕ) (session : Session) :
    ∃ result session', enumerate platform letters world user limit session (limit + 2) =
        some (result, session') ∧
      session'.requests ≤ session.requests + 2 * (limit + 2) ∧
      ((api platform letters world user).ReadsAll limit (Progress.start session (firstPage platform user)) readable →
        ∃ catalog, result = .ok catalog) := by
  obtain ⟨s, thrown, hend, hsent, hreturns⟩ := (api platform letters world user).ends limit
    (api_sends user) (fun _ _ total listing h => readRows_total h total listing) session
    (firstPage platform user)
  cases thrown with
  | none => exact ⟨_, _, by rw [enumerate, hend], hsent, fun _ => ⟨_, rfl⟩⟩
  | some error => exact ⟨_, _, by rw [enumerate, hend], hsent, fun h => nomatch hreturns h⟩

theorem getJson_answers {s : Session} {url : String} {body : Json}
    (h : (getJson platform world s url).1 = some body) : world.Answers body := by
  rw [getJson] at h
  split at h
  · simp at h
  · split at h
    · simp at h
    · simp only [fetch] at h
      split at h
      · next hreply =>
        obtain rfl : _ = body := by
          dsimp only at h
          split at h
          · exact Option.some.inj h
          · simp at h
        exact ⟨_, _, _, _, (Prod.mk.inj hreply).1⟩
      · simp at h

end CatalogSentinel.Stores.SoundCloud
