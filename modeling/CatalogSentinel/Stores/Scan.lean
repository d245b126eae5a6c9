import CatalogSentinel.Stores.Catalog

/-!
The scan of a distributed catalogue against what is live on each store. The catalogues of the
artists are read and indexed first, then every track gets a verdict for every store. What the
stores answer is given from outside; an answer that is not there is a call that was rejected.
-/

namespace CatalogSentinel.Stores

open Data

structure ReleasedTrack where
  title : String
  primaryArtist : String
  isrc : Option String
  deriving DecidableEq, Repr

inductive PresenceStatus
  | live
  | notLive
  | wrongProfile
  | unverifiable
  deriving DecidableEq, Repr

inductive MatchedBy
  | isrc
  | titleArtist
  deriving DecidableEq, Repr

structure StorePresence where
  store : String
  status : PresenceStatus
  matchedBy : Option MatchedBy
  foundArtist : Option String
  url : Option String
  confidence : ℚ
  needsManualReview : Bool
  reviewQuery : Option String
  deriving DecidableEq, Repr

structure IsrcLookupResult where
  found : Bool
  artist : Option String
  title : Option String
  url : Option String
  artworkUrl : Option String
  deriving DecidableEq, Repr

structure TitleSearchResult where
  found : Bool
  url : Option String
  deriving DecidableEq, Repr

inductive CatalogMode
  | enumerable
  | confirmOnly
  deriving DecidableEq, Repr

inductive TitleSearchMode
  | query
  | catalog
  deriving DecidableEq, Repr

/-- A store the scan can query. -/
structure ScannableStore where
  store : String
  listArtistCatalog : String → ℕ → Option (StoreArtistCatalog String)
  catalogMode : CatalogMode
  isrc : Option (String → Option IsrcLookupResult)
  title : Option (String → String → Option TitleSearchResult)
  titleSearchMode : TitleSearchMode
  confirmOnly : Bool

/-- A `Map`, by the calls of `set` that made it. -/
abbrev Index := List (String × StoreTrack String)

def Index.get (index : Index) (key : String) : Option (StoreTrack String) :=
  (index.reverse.find? (·.1 = key)).map Prod.snd

structure PreparedArtistCatalog where
  requestedArtist : String
  complete : Bool
  titleIndex : Index
  isrcIndex : Index
  warnings : List String

structure PreparedStoreCatalog where
  store : String
  isrc : Option (String → Option IsrcLookupResult)
  title : Option (String → String → Option TitleSearchResult)
  titleSearchMode : TitleSearchMode
  confirmOnly : Bool
  catalogs : List PreparedArtistCatalog

structure PreparedStorePresence where
  expectedArtistKey : String
  artistKeys : List String
  storeNames : List String
  stores : List PreparedStoreCatalog
  warnings : List String

structure PrepareStorePresenceInput where
  expectedArtist : String
  expectedArtists : List String
  releasedTracks : List ReleasedTrack
  stores : List ScannableStore
  catalogMaxTracks : Option ℚ
  catalogFetchConcurrency : Option ℚ
  maxDistinctArtists : Option ℚ

variable (letters : Letters)

def boundedInteger (value : Option ℚ) (fallback min max : ℕ) (name : String) : Except Failure ℕ :=
  let resolved := value.getD fallback
  if resolved.den = 1 ∧ (min : ℚ) ≤ resolved ∧ resolved ≤ max then .ok resolved.num.toNat
  else .error ⟨"Error", s!"{name} must be an integer between {min} and {max}."⟩

/-! ### The catalogues -/

/-- One more name, unless its key is empty or known; the names stand with their keys. -/
def requestArtist (maxArtists : ℕ) (artistSet : List (String × String)) (value : String) :
    Except Failure (List (String × String)) :=
  let name := trim value
  let key := normalizeArtist letters name
  if name = "" ∨ key = "" ∨ artistSet.any (·.1 = key) then .ok artistSet
  else if maxArtists ≤ artistSet.length then
    .error ⟨"Error",
      s!"Store scan contains more than the configured {maxArtists} distinct artists; no artist was dropped."⟩
  else .ok (artistSet ++ [(key, name)])

def requestedArtists (input : PrepareStorePresenceInput) : Except Failure (List String) := do
  let maxArtists ← boundedInteger input.maxDistinctArtists 5000 1 20000 "maxDistinctArtists"
  let artistSet ← ((input.expectedArtist :: input.expectedArtists) ++
    input.releasedTracks.map (·.primaryArtist)).foldlM (requestArtist letters maxArtists) []
  if artistSet.isEmpty then
    throw ⟨"Error", "Store scan requires at least one non-empty artist identity."⟩
  return artistSet.map Prod.snd

/-- `/timed?.?out/`, where a text begins with it -/
def timedOutHere (cs : List Char) : Bool :=
  let ends (cs : List Char) : Bool :=
    "out".toList.isPrefixOf cs || match cs with
      | ch :: cs => !isLineTerminator ch && "out".toList.isPrefixOf cs
      | [] => false
  "time".toList.isPrefixOf cs && (ends (cs.drop 4) || (cs[4]? = some 'd' && ends (cs.drop 5)))

def degradedWords : List String :=
  ["credential", "premium", "token", "unauthor", "forbidden", "quota", "request failed", "not configured", "truncat",
    "incomplete", "partial", "capped", "limit"]

/-- The test for a warning of a degraded provider; what matches `rate.?limit` has `limit` in it. -/
def degradedWarning (warning : String) : Bool :=
  (warning.toList.map Char.toLower).tails.any fun cs =>
    degradedWords.any (fun word => word.toList.isPrefixOf cs) || timedOutHere cs

/-- A track of a catalogue that is credited to somebody else is not indexed. -/
def credited (requestedArtist : String) (track : StoreTrack String) : Bool :=
  trim track.primaryArtist = "" || sameArtist letters (some track.primaryArtist) (some requestedArtist)

def titleIndex (requestedArtist : String) (tracks : List (StoreTrack String)) : Index :=
  (tracks.filter (credited letters requestedArtist)).filterMap fun track =>
    let title := normalizeTitle letters track.title
    if title = "" then none else some (title, track)

def isrcIndex (requestedArtist : String) (tracks : List (StoreTrack String)) : Index :=
  (tracks.filter (credited letters requestedArtist)).filterMap fun track =>
    (normalizeIsrc letters track.isrc).map fun isrc => (isrc, track)

def catalogWarnings (store : ScannableStore) (first : Bool) (requestedArtist : String)
    (catalog : Option (StoreArtistCatalog String)) : List String :=
  if store.catalogMode = .confirmOnly then
    if first then
      [s!"{store.store} does not expose a complete artist catalogue; individual confirmations are required."]
    else []
  else
    match catalog with
    | some catalog => catalog.warnings
    | none => [s!"{store.store} catalogue request failed for \"{requestedArtist}\"; absence cannot be verified."]

/-- What is kept of the catalogue that a store returned for an artist, if it returned one. -/
def prepareArtistCatalog (store : ScannableStore) (first : Bool) (requestedArtist : String)
    (catalog : Option (StoreArtistCatalog String)) : PreparedArtistCatalog :=
  let tracks := (catalog.map (·.tracks)).getD []
  let warnings := catalogWarnings store first requestedArtist catalog
  let complete :=
    match catalog with
    | some catalog =>
      (catalog.artist.any fun artist => sameArtist letters (some artist.name) (some requestedArtist)) &&
        catalog.pagination.complete && !warnings.any degradedWarning
    | none => false
  { requestedArtist, complete, warnings
    titleIndex := titleIndex letters requestedArtist tracks
    isrcIndex := isrcIndex letters requestedArtist tracks }

/-- The catalogue of a store that can enumerate one. -/
def fetchCatalog (store : ScannableStore) (catalogMaxTracks : ℕ) (requestedArtist : String) :
    Option (StoreArtistCatalog String) :=
  if store.catalogMode = .confirmOnly then none else store.listArtistCatalog requestedArtist catalogMaxTracks

/-- A store with what it returned for each artist. -/
def prepareStore (store : ScannableStore) (requests : List (String × Option (StoreArtistCatalog String))) :
    PreparedStoreCatalog :=
  { store := store.store
    isrc := store.isrc
    title := store.title
    titleSearchMode := store.titleSearchMode
    confirmOnly := store.confirmOnly
    catalogs := requests.mapIdx fun index request =>
      prepareArtistCatalog letters store (index = 0) request.1 request.2 }

def checkMaximum (store : ScannableStore) (catalogMaxTracks : ℕ)
    (requests : List (String × Option (StoreArtistCatalog String))) : Except Failure Unit :=
  if requests.any fun request => request.2.any fun catalog => catalogMaxTracks < catalog.tracks.length then
    .error ⟨"Error", s!"{store.store} violated the configured catalogue maximum."⟩
  else .ok ()

/-- `[...new Set(warnings)]`, of which so many are listed at most -/
def summarizeWarnings (warnings : List String) : List String :=
  let allWarnings := warnings.eraseDups
  if allWarnings.length ≤ 250 then allWarnings
  else allWarnings.take 250 ++
    [s!"[Store scan] {allWarnings.length - 250} additional provider warnings were summarized; every affected result remains unverifiable."]

def prepareStorePresence (input : PrepareStorePresenceInput) : Except Failure PreparedStorePresence := do
  let artists ← requestedArtists letters input
  let catalogMaxTracks ← boundedInteger input.catalogMaxTracks 20000 1 100000 "catalogMaxTracks"
  let _ ← boundedInteger input.catalogFetchConcurrency 2 1 16 "catalogFetchConcurrency"
  let stores ← input.stores.mapM fun store => do
    let requests := artists.map fun artist => (artist, fetchCatalog store catalogMaxTracks artist)
    checkMaximum store catalogMaxTracks requests
    return prepareStore letters store requests
  let warnings := stores.flatMap fun store => store.catalogs.flatMap fun catalog =>
    catalog.warnings.map fun warning => s!"[{store.store} / {catalog.requestedArtist}] {warning}"
  return {
    expectedArtistKey := normalizeArtist letters input.expectedArtist
    artistKeys := artists.map (normalizeArtist letters)
    storeNames := stores.map (·.store)
    stores := stores
    warnings := summarizeWarnings warnings }

/-! ### The verdicts -/

/-- The artist whose catalogues a track is looked for in. -/
def scopedArtist (expectedArtist : String) (track : ReleasedTrack) : String :=
  orElse (trim track.primaryArtist) expectedArtist

def scopedCatalogs (expectedArtist : String) (track : ReleasedTrack) (store : PreparedStoreCatalog) :
    List PreparedArtistCatalog :=
  store.catalogs.filter fun catalog =>
    sameArtist letters (some catalog.requestedArtist) (some (scopedArtist expectedArtist track))

/-- A verdict with its confidence, below which a human is asked. -/
def mk (expectedArtist : String) (track : ReleasedTrack) (store : PreparedStoreCatalog) (status : PresenceStatus)
    (matchedBy : Option MatchedBy) (confidence : ℚ) (foundArtist url : Option String) : StorePresence :=
  let needsManualReview := confidence < 3 / 5
  { store := store.store
    status, matchedBy, foundArtist, url, confidence, needsManualReview
    reviewQuery :=
      if needsManualReview then some (trim s!"{orElse track.primaryArtist expectedArtist} {track.title}")
      else none }

def isrcHit (catalogs : List PreparedArtistCatalog) (track : ReleasedTrack) : Option (StoreTrack String) :=
  (normalizeIsrc letters track.isrc).bind fun isrc => catalogs.findSome? fun catalog => catalog.isrcIndex.get isrc

def titleHit (catalogs : List PreparedArtistCatalog) (track : ReleasedTrack) : Option (StoreTrack String) :=
  let title := normalizeTitle letters track.title
  if title = "" then none else catalogs.findSome? fun catalog => catalog.titleIndex.get title

/-- The verdict of the exact lookup, or whether it failed. -/
def confirmIsrc (expectedArtist : String) (track : ReleasedTrack) (store : PreparedStoreCatalog) :
    Except StorePresence Bool :=
  match normalizeIsrc letters track.isrc, store.isrc with
  | some isrc, some lookupIsrc =>
    match lookupIsrc isrc with
    | none => .ok true
    | some lk =>
      if lk.found then
        if sameArtist letters lk.artist (some (scopedArtist expectedArtist track)) then
          .error (mk expectedArtist track store .live (some .isrc) (19 / 20) none lk.url)
        else .error (mk expectedArtist track store .wrongProfile (some .isrc) (9 / 10) lk.artist lk.url)
      else .ok false
  | _, _ => .ok false

/-- The verdict of the search by title, or whether it failed. -/
def confirmTitle (expectedArtist : String) (track : ReleasedTrack) (store : PreparedStoreCatalog) :
    Except StorePresence Bool :=
  match store.title with
  | some searchTitle =>
    if store.titleSearchMode = .query ∧ (normalizeTitle letters track.title ≠ "" ∨ track.title ≠ "") then
      match searchTitle (orElse track.primaryArtist expectedArtist) track.title with
      | none => .ok true
      | some found =>
        if found.found then
          .error (mk expectedArtist track store .live (some .titleArtist)
            (if store.confirmOnly then 3 / 4 else 17 / 20) none found.url)
        else .ok false
    else .ok false
  | none => .ok false

/-- A miss proves absence only against catalogues that have been read to their end. -/
def miss (expectedArtist : String) (track : ReleasedTrack) (store : PreparedStoreCatalog)
    (catalogs : List PreparedArtistCatalog) (supplementalDegraded : Bool) : StorePresence :=
  let scopedComplete := !catalogs.isEmpty && catalogs.all (·.complete)
  if store.confirmOnly || !scopedComplete || supplementalDegraded then
    mk expectedArtist track store .unverifiable none (3 / 10) none none
  else mk expectedArtist track store .notLive none (4 / 5) none none

def presence (quick : Bool) (expectedArtist : String) (track : ReleasedTrack) (store : PreparedStoreCatalog) :
    StorePresence :=
  let catalogs := scopedCatalogs letters expectedArtist track store
  match isrcHit letters catalogs track, titleHit letters catalogs track with
  | some hit, _ => mk expectedArtist track store .live (some .isrc) 1 none hit.url
  | none, some hit => mk expectedArtist track store .live (some .titleArtist) (4 / 5) none hit.url
  | none, none =>
    if quick then miss expectedArtist track store catalogs false
    else
      match confirmIsrc letters expectedArtist track store with
      | .error verdict => verdict
      | .ok isrcFailed =>
        match confirmTitle letters expectedArtist track store with
        | .error verdict => verdict
        | .ok titleFailed => miss expectedArtist track store catalogs (isrcFailed || titleFailed)

structure TrackScanResult where
  track : ReleasedTrack
  perStore : List StorePresence
  deriving DecidableEq, Repr

structure ScanSummary where
  total : ℕ
  live : ℕ
  notLive : ℕ
  wrongProfile : ℕ
  unverifiable : ℕ
  needsReview : ℕ
  deriving DecidableEq, Repr

structure StoreScanReport where
  expectedArtist : String
  stores : List String
  results : List TrackScanResult
  warnings : List String
  summary : ScanSummary
  deriving DecidableEq, Repr

def scanTrack (quick : Bool) (expectedArtist : String) (prepared : PreparedStorePresence) (track : ReleasedTrack) :
    TrackScanResult :=
  ⟨track, prepared.stores.map (presence letters quick expectedArtist track)⟩

def summarize (flat : List StorePresence) : ScanSummary where
  total := flat.length
  live := flat.countP (·.status = .live)
  notLive := flat.countP (·.status = .notLive)
  wrongProfile := flat.countP (·.status = .wrongProfile)
  unverifiable := flat.countP (·.status = .unverifiable)
  needsReview := flat.countP (·.needsManualReview)

/-- The prepared catalogues are those of this scan, and of every artist of it. -/
def checkPrepared (expectedArtist : String) (releasedTracks : List ReleasedTrack) (storeNames : List String)
    (prepared : PreparedStorePresence) : Except Failure Unit :=
  if prepared.expectedArtistKey ≠ normalizeArtist letters expectedArtist ∨ storeNames ≠ prepared.storeNames then
    .error ⟨"Error", "Prepared store catalogue does not match this scan request."⟩
  else if releasedTracks.any (fun track =>
      let artist := normalizeArtist letters (orElse track.primaryArtist expectedArtist)
      artist ≠ "" && !prepared.artistKeys.contains artist) then
    .error ⟨"Error", "Prepared store catalogue does not cover every track artist."⟩
  else .ok ()

def scanStorePresence (expectedArtist : String) (releasedTracks : List ReleasedTrack) (storeNames : List String)
    (quick : Bool) (trackConcurrency : Option ℚ) (prepared : PreparedStorePresence) :
    Except Failure StoreScanReport := do
  checkPrepared letters expectedArtist releasedTracks storeNames prepared
  let _ ← boundedInteger trackConcurrency (if quick then 32 else 8) 1 64 "trackConcurrency"
  let results := releasedTracks.map (scanTrack letters quick expectedArtist prepared)
  return {
    expectedArtist
    stores := prepared.stores.map (·.store)
    results := results
    warnings := prepared.warnings
    summary := summarize (results.flatMap (·.perStore)) }

end CatalogSentinel.Stores
